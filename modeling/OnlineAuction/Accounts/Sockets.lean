import OnlineAuction.Accounts.Logins

/-! Which notification sockets survive a rotation. A rotation closes the sockets
it finds registered and commits afterwards; a handshake checks the version and
registers its socket afterwards. Either of the two gaps lets a socket of an
older version outlive the rotation. -/

namespace OnlineAuction.Accounts

open RowLocks

variable {S : Settings} {process : Nat}

/-- No socket in the process was admitted on a version older than that of a
rotation whose handler has returned. -/
def OlderSocketsClosed (process : Nat) (b : Backend) : Prop :=
  ∀ rotation ∈ b.rotations, ∀ socket ∈ b.userConnections process rotation.userId,
    rotation.tokenVersion ≤ socket.tv

/-- The registry of the process: every socket was admitted on the version in
force, which is none before that of any rotation that is over. -/
structure RegistryCurrent (process : Nat) (b : Backend) : Prop where
  sockets : ∀ userId, ∀ socket ∈ b.userConnections process userId,
    ∃ row, b.userById userId = some row ∧ row.tokenVersion = socket.tv
  rotations : ∀ rotation ∈ b.rotations, ReachedVersion b rotation.userId rotation.tokenVersion

namespace RegistryCurrent

variable {b : Backend}

/-- In a current registry no socket of an older version is open. -/
theorem olderSocketsClosed (h : RegistryCurrent process b) : OlderSocketsClosed process b := by
  intro rotation hRotation socket hSocket
  obtain ⟨row, hRow, hReached⟩ := h.rotations rotation hRotation
  obtain ⟨row', hRow', hVersion⟩ := h.sockets _ socket hSocket
  rw [Backend.userById_natCast, hRow, Option.some.injEq] at hRow'
  subst hRow'
  exact hVersion ▸ hReached

theorem of_initial (rows : List User) : RegistryCurrent process (Backend.initial rows) := by
  constructor <;> simp [Backend.initial]

/-- An account changes, to a version that its registered sockets share. -/
theorem setUser (h : RegistryCurrent process b) {old new : User}
    (hRow : b.users.get old.id = some old) (hId : new.id = old.id)
    (hVersion : old.tokenVersion ≤ new.tokenVersion)
    (hSockets : b.userConnections process old.id ≠ [] → new.tokenVersion = old.tokenVersion) :
    RegistryCurrent process (b.setUser new) where
  sockets userId socket hSocket := by
    obtain ⟨row, hUser, hTv⟩ := h.sockets userId socket hSocket
    by_cases hSame : userId = new.id
    · subst hSame
      rw [hId] at hSocket hUser
      rw [Backend.userById_natCast, hRow, Option.some.injEq] at hUser
      subst hUser
      exact ⟨new, Backend.get_setUser_self (hId ▸ hRow),
        (hSockets (List.ne_nil_of_mem hSocket)).trans hTv⟩
    · cases userId with
      | ofNat id =>
          have hOther : id ≠ new.id := fun hEq => hSame (congrArg Int.ofNat hEq)
          exact ⟨row, (b.get_setUser_other hOther).trans hUser, hTv⟩
      | negSucc id => exact ⟨row, hUser, hTv⟩
  rotations rotation hRotation := by
    have hKept : Kept Held.none b (b.setUser new) := .of_setUser hRow rfl hId hVersion
    exact hKept.reachedVersion (h.rotations rotation hRotation)

/-- A socket of the stored version may be registered. -/
theorem connect (h : RegistryCurrent process b) {p : Nat} {userId : ℤ} {socket : Socket} {row : User}
    (hRow : b.userById userId = some row) (hVersion : row.tokenVersion = socket.tv) :
    RegistryCurrent process (b.connectUser p userId socket) where
  sockets id other hOther := by
    change other ∈ b.setBucket p userId _ process id at hOther
    by_cases hKey : process = p ∧ id = userId
    · obtain ⟨rfl, rfl⟩ := hKey
      rw [b.setBucket_self, List.mem_append, List.mem_singleton] at hOther
      rcases hOther with hOld | rfl
      · exact h.sockets id other hOld
      · exact ⟨row, hRow, hVersion⟩
    · rw [b.setBucket_other _ hKey] at hOther
      exact h.sockets id other hOther
  rotations := h.rotations

/-- Dropping a socket keeps the registry current. -/
theorem disconnect (h : RegistryCurrent process b) (p : Nat) (socket : Socket) (userId : ℤ) :
    RegistryCurrent process (b.disconnectUser p socket userId) where
  sockets id other hOther := by
    change other ∈ b.setBucket p userId _ process id at hOther
    by_cases hKey : process = p ∧ id = userId
    · obtain ⟨rfl, rfl⟩ := hKey
      rw [b.setBucket_self] at hOther
      exact h.sockets id other (List.mem_of_mem_erase hOther)
    · rw [b.setBucket_other _ hKey] at hOther
      exact h.sockets id other hOther
  rotations := h.rotations

/-- Every commit of the serving process keeps its registry current. -/
theorem commit {operation : Operation S} {held : Held accounts} {e : Event accounts} {b' : Backend}
    (h : RegistryCurrent process b)
    (hCommit : Commit S ⟨(· = process), False, True⟩ operation held b e b') :
    RegistryCurrent process b' := by
  cases hCommit with
  | idle => exact h
  | attempt old new _ hRow hId hVersion => exact h.setUser hRow hId hVersion.ge fun _ => hVersion
  | loggedIn => exact ⟨h.sockets, h.rotations⟩
  | rotate p registered old hashedPassword hServes _ hRow hSwept =>
      obtain rfl : p = process := hServes
      exact h.setUser hRow rfl (by simp [User.rotate]) fun hSockets =>
        absurd (hSwept trivial) hSockets
  | returned rotation hReached =>
      refine ⟨h.sockets, fun other hOther => ?_⟩
      rcases List.mem_append.mp hOther with hOld | hNew
      · exact h.rotations other hOld
      · obtain rfl := List.mem_singleton.mp hNew
        exact hReached
  | connect p userId socket _ row hRow hVersion => exact h.connect hRow (hVersion trivial)
  | disconnect p socket userId => exact h.disconnect p socket userId

end RegistryCurrent

/-- In one process: as long as every socket is registered while its version is
in force, and none while a rotation of its user is between copying the bucket
and its commit, no socket of an older version is left once a rotation is over. -/
theorem rotation_closes_sockets {rows : List User} {c : Config accounts}
    (run : Reaches (handle S process) RegisteredInTime (Backend.initial rows) c) :
    OlderSocketsClosed process c.db := by
  have run' : Reaches (handle S process) (Assumptions.ok ⟨(· = process), False, True⟩)
      (Backend.initial rows) c := run.weaken fun _ _ _ h => ⟨False.elim, fun _ => h⟩
  have hCurrent : RegistryCurrent process c.db := Discipline.invariant_of_reaches
    (P := rules S ⟨(· = process), False, True⟩) (.of_initial rows)
    (fun operation _ _ => keeps_rules rfl operation) (.of_initial rows)
    (fun _ h ⟨_, _, hCommit⟩ => h.commit hCommit) run'
  exact hCurrent.olderSocketsClosed

/-- Session 1 checks the version of Alice's token. -/
def handshakeChecks : List (Action accounts (Operation plainSettings)) :=
  [.start 1 (.notificationsWebsocket ⟨1, some (createUserAccessToken plainSettings 0 alice), 7,
      false⟩), .clock 1 0, .step 1]

/-- Session 2 changes the password: it copies the bucket, closes what it finds,
commits and returns. -/
def rotationRuns (sockets : Nat) : List (Action accounts (Operation plainSettings)) :=
  [.start 2 (.changePassword ⟨createUserAccessToken plainSettings 0 alice,
      alicesPassword, newPassword, 0⟩), .clock 2 0] ++ steps 2 3 ++
    steps 2 sockets ++ [.step 2, .clock 2 0, .step 2]

/-- A socket that is registered before the rotation begins is closed by it. -/
theorem rotation_closes_sockets_alice : ∃ c : Config accounts,
    c.db.rotations ≠ [] ∧ OlderSocketsClosed 0 c.db := by
  obtain ⟨c, run, hOver⟩ := exists_reaches (handle plainSettings 0) RegisteredInTime
    (Backend.initial [alice]) (handshakeChecks ++ [.step 1] ++ rotationRuns 1)
    (fun c => c.db.rotations ≠ []) (by decide +kernel)
  exact ⟨c, hOver, rotation_closes_sockets run⟩

/-- A socket whose version was checked before the rotation and which is
registered afterwards stays. -/
theorem socket_outlives_rotation : ¬∀ c : Config accounts,
    Reaches (handle plainSettings 0) (fun _ _ _ => True) (Backend.initial [alice]) c →
      OlderSocketsClosed 0 c.db := by
  intro hAll
  obtain ⟨c, run, hRotations, hSockets⟩ := exists_reaches (handle plainSettings 0)
    (fun _ _ _ => True) (Backend.initial [alice]) (handshakeChecks ++ rotationRuns 0 ++ [.step 1])
    (fun c => c.db.rotations = [⟨0, 1, 1⟩] ∧ c.db.userConnections 0 1 = [⟨7, 0⟩])
    (by decide +kernel)
  have hClosed := hAll c run ⟨0, 1, 1⟩ (by rw [hRotations]; exact List.mem_singleton_self _) ⟨7, 0⟩
    (by rw [Nat.cast_one, hSockets]; exact List.mem_singleton_self _)
  exact absurd hClosed (by decide)

end OnlineAuction.Accounts
