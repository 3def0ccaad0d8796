import OnlineAuction.Accounts.Contracts

/-! Which password a token returned by `login` stands for. The token is minted
for the row that `db.refresh` reads after the commit has released the lock: a
rotation that commits in between lends its version to a login that verified the
password it replaced. -/

namespace OnlineAuction.Accounts

open RowLocks

/-- What was in force once stays on record. -/
theorem InForce.mono {S : Settings} {b b' : Backend} {result : LoginResult}
    (h : InForce S b result) (hCredentials : ∀ credential ∈ b.credentials,
      credential ∈ b'.credentials) : InForce S b' result := by
  intro k hTv
  obtain ⟨credential, hMem, hId, hVersion, hVerify⟩ := h k hTv
  exact ⟨credential, hCredentials credential hMem, hId, hVersion, hVerify⟩

/-- Every step keeps the promise of the tokens returned so far. -/
theorem inForce_of_commit {S : Settings} {A : Assumptions} {operation : Operation S}
    (hUnrotated : A.unrotated) {held : Held accounts} {e : Event accounts} {b b' : Backend}
    (h : ∀ result ∈ b.logins, InForce S b result)
    (hCommit : Commit S A operation held b e b') : ∀ result ∈ b'.logins, InForce S b' result := by
  cases hCommit with
  | idle => exact h
  | attempt old new =>
      exact fun result hResult => (h result hResult).mono fun _ hMem => List.mem_append_left _ hMem
  | rotate process registered old hashedPassword =>
      exact fun result hResult => (h result hResult).mono fun _ hMem => List.mem_append_left _ hMem
  | loggedIn new hInForce =>
      intro result hResult
      rcases List.mem_append.mp hResult with hOld | hNew
      · exact h result hOld
      · obtain rfl := List.mem_singleton.mp hNew
        exact hInForce hUnrotated
  | returned => exact h
  | connect => exact h
  | disconnect => exact h

/-- Over any number of processes: as long as no rotation of the account commits
between the commit of a login and its refresh, the version in the token it
returns is one at which the password it verified was in force. -/
theorem login_password_in_force {S : Settings} {rows : List User} {c : Config accounts}
    (run : Reaches (handleIn S) Unrotated (Backend.initial rows) c) :
    ∀ result ∈ c.db.logins, InForce S c.db result := by
  have run' : Reaches (handleIn S) (Assumptions.ok ⟨fun _ => True, True, False⟩)
      (Backend.initial rows) c := run.weaken fun _ _ _ h => ⟨fun _ => h, False.elim⟩
  exact Discipline.invariant_of_reaches (P := rules S ⟨fun _ => True, True, False⟩)
    (.of_initial rows) (fun request _ _ => keeps_rules trivial request.2) (by simp [Backend.initial])
    (fun _ h ⟨_, _, hCommit⟩ => inForce_of_commit trivial h hCommit) run'

def alice : User := ⟨1, "alice", "alice@example.org", "old password", 0, 0, none⟩

def alicesPassword : LoginPassword := ⟨"old password", by decide⟩

def newPassword : NewPassword := ⟨"new password", by decide⟩

def steps {Req : Type} (sid n : Nat) : List (Action accounts Req) := List.replicate n (.step sid)

/-- Session 1 logs Alice in up to its commit. -/
def loginCommits : List (Action accounts (Nat × Operation plainSettings)) :=
  [.start 1 (0, .login ⟨"alice", alicesPassword, 0⟩)] ++ steps 1 2 ++
    [.clock 1 0, .step 1]

def loginReturns : List (Action accounts (Nat × Operation plainSettings)) :=
  [.step 1, .clock 1 0, .step 1]

/-- Session 2 changes the password, in another process, with a token that Alice
holds already. -/
def passwordChanges : List (Action accounts (Nat × Operation plainSettings)) :=
  [.start 2 (1, .changePassword ⟨createUserAccessToken plainSettings 0 alice,
      alicesPassword, newPassword, 0⟩), .clock 2 0] ++ steps 2 4 ++
    [.clock 2 0, .step 2]

theorem login_password_in_force_alice : ∃ c : Config accounts,
    c.db.logins ≠ [] ∧ ∀ result ∈ c.db.logins, InForce plainSettings c.db result := by
  obtain ⟨c, run, hReturned⟩ := exists_reaches (handleIn plainSettings) Unrotated
    (Backend.initial [alice]) (loginCommits ++ loginReturns ++ passwordChanges)
    (fun c => c.db.logins ≠ []) (by decide +kernel)
  exact ⟨c, hReturned, login_password_in_force run⟩

/-- The old password, verified before the change, is answered with a token of
the version that the change has created. -/
theorem login_outlives_rotation : ¬∀ c : Config accounts,
    Reaches (handleIn plainSettings) (fun _ _ _ => True) (Backend.initial [alice]) c →
      ∀ result ∈ c.db.logins, InForce plainSettings c.db result := by
  intro hAll
  obtain ⟨c, run, hLogins, hCredentials⟩ := exists_reaches (handleIn plainSettings)
    (fun _ _ _ => True) (Backend.initial [alice]) (loginCommits ++ passwordChanges ++ loginReturns)
    (fun c => c.db.logins = [⟨"old password", [("user_id", .int 1), ("tv", .int 1)]⟩] ∧
      c.db.credentials = [⟨1, 0, "old password"⟩, ⟨1, 0, "old password"⟩, ⟨1, 1, "new password"⟩])
    (by decide +kernel)
  obtain ⟨credential, hMem, _, hVersion, hVerify⟩ :=
    hAll c run _ (by rw [hLogins]; exact List.mem_singleton_self _) 1 rfl
  rw [hCredentials] at hMem
  simp only [List.mem_cons, List.not_mem_nil, or_false] at hMem
  rcases hMem with rfl | rfl | rfl
  · cases hVersion
  · cases hVersion
  · exact absurd hVerify (by decide)

end OnlineAuction.Accounts
