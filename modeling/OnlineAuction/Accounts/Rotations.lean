import OnlineAuction.Accounts.Logins
import OnlineAuction.Accounts.TokenPurposes
import OnlineAuction.Library.Counters

/-! The version of an account over any number of password changes and confirmed
reset links: it counts the rotations that were committed, every reset link is
spent by the first rotation after it, and no token of an older version is ever
accepted again. -/

namespace OnlineAuction.Accounts

open RowLocks Counters

variable {S : Settings}

/-- A rotation that was committed: the operation whose session committed it and
the row it replaced. -/
structure RotationCommit (S : Settings) where
  operation : Operation S
  user : User

/-- Which operation each session serves, and the rotations committed so far. -/
structure History (S : Settings) where
  requests : Nat → Option (Nat × Operation S)
  rotations : List (RotationCommit S)

def rotates (requests : Nat → Option (Nat × Operation S)) (c : Config accounts)
    (a : Action accounts (Nat × Operation S)) : Option (RotationCommit S) :=
  match written c a with
  | some (sid, .commit (.rotation _ userId _)) => do
      let request ← requests sid
      let user ← c.db.users.get userId
      some ⟨request.2, user⟩
  | _ => none

def History.record (h : History S) (c : Config accounts) (a : Action accounts (Nat × Operation S))
    (_ : Config accounts) : History S where
  requests := serving h.requests a
  rotations := h.rotations ++ (rotates h.requests c a).toList

abbrev Rotating (S : Settings) := Config accounts × History S

def Rotating.initial (rows : List User) : Rotating S :=
  (.initial (Backend.initial rows), ⟨fun _ => none, []⟩)

def rotating (S : Settings) :
    Rotating S → Action accounts (Nat × Operation S) → Option (Rotating S) :=
  Runs.recording (advance (handleIn S)) History.record

/-- Every run counts. -/
abbrev Reached (start s : Rotating S) : Prop :=
  Runs.Reaches (rotating S) (fun _ _ => True) start s

def Backend.version (b : Backend) (userId : UserId) : Option ℤ :=
  (b.users.get userId).map User.tokenVersion

/-- The rotation confirms a reset link that carries this token. -/
def RotationCommit.Consumes (rotation : RotationCommit S) (token : S.jwt.Token) : Prop :=
  ∃ data, rotation.operation = .passwordResetConfirm data ∧ data.token = token

/-- `password_reset_confirm` has no account to rotate: the token is not a reset
link, or the account it names is gone, or at another version. -/
def LinkVoid (S : Settings) (now : Time) (token : S.jwt.Token) (users : ℤ → Option User) : Prop :=
  ∀ userId claimedTv, decodePasswordResetToken S now token = .ok (userId, claimedTv) →
    ∀ user ∈ users userId, claimedTv ≠ user.tokenVersion

/-- What the rotations committed between two states of a run have done. The version of an
account goes up by one for each of its rotations and for nothing else, and a link for a
version that the account had reached before is void after the first of them. -/
structure Since (s s' : Rotating S) (later : List (RotationCommit S)) : Prop where
  logged : s'.2.rotations = s.2.rotations ++ later
  versions : ∀ userId, s'.1.db.version userId =
    (s.1.db.version userId).map fun v : ℤ => v + later.countP (·.user.id = userId)
  onePerVersion : later.Pairwise fun r r' =>
    r.user.id = r'.user.id → r.user.tokenVersion < r'.user.tokenVersion
  oneShot : later.Pairwise fun r r' => ∀ issued user,
    ¬(r.Consumes (createPasswordResetToken S issued user) ∧
      r'.Consumes (createPasswordResetToken S issued user))
  voided : ∀ issued user, ReachedVersion s.1.db user.id user.tokenVersion →
    later.Pairwise fun r r' => r.user.id = user.id →
      ¬r'.Consumes (createPasswordResetToken S issued user)
  rejected : ∀ issued user, ReachedVersion s.1.db user.id user.tokenVersion →
    (∃ r ∈ later, r.user.id = user.id) → ∀ kind now,
      OpensNoSession S now (mint S issued user kind) s'.1.db.userById ∧
        LinkVoid S now (mint S issued user kind) s'.1.db.userById

inductive Rotates (b b' : Backend) : Option (RotationCommit S) → Prop where
  | kept (hVersions : b'.version = b.version) : Rotates b b' none
  | rotated (rotation : RotationCommit S)
      (hVersion : b.version rotation.user.id = some rotation.user.tokenVersion)
      (hVersions : b'.version = Function.update b.version rotation.user.id
        (some (rotation.user.tokenVersion + 1)))
      (hConfirmed : Confirmed S rotation.operation rotation.user.id rotation.user.tokenVersion) :
      Rotates b b' (some rotation)

/-- Writing a user's row sets that user's version alone. -/
theorem Backend.version_setUser {b : Backend} {old new : User}
    (hRow : b.users.get old.id = some old) (hId : new.id = old.id) :
    (b.setUser new).version = Function.update b.version old.id (some new.tokenVersion) := by
  funext userId
  by_cases hUser : userId = old.id
  · subst hUser
    rw [Function.update_self, Backend.version, ← hId, Backend.get_setUser_self (hId ▸ hRow)]
    rfl
  · rw [Function.update_of_ne hUser, Backend.version, b.get_setUser_other (hId ▸ hUser)]
    rfl

section Steps

variable {A : Assumptions} {operation : Operation S} {held : Held accounts} {b b' : Backend}

theorem Commit.version_of_update {note : Note}
    (hCommit : Commit S A operation held b (.update note) b') : b'.version = b.version := by
  cases hCommit with
  | loggedIn => rfl
  | returned => rfl
  | connect => rfl
  | disconnect => rfl

/-- The step lemma: a rotation adds one to the version of its account, any other
step leaves the versions as they are. -/
theorem Rotates.of_outcome {requests : Nat → Option (Nat × Operation S)} {c c' : Config accounts}
    {a : Action accounts (Nat × Operation S)}
    (hOutcome : (rules S A).Outcome (fun request => promise S A request.2) requests c c' a) :
    Rotates c.db c'.db (rotates requests c a) := by
  cases hOutcome with
  | quiet hSame hWritten =>
      rw [rotates, hWritten]
      exact .kept (by rw [hSame])
  | observed _ hDb =>
      show Rotates c.db c'.db none
      exact .kept (by rw [hDb])
  | updated hWritten _ hDoes =>
      rw [rotates, hWritten]
      exact .kept (Commit.version_of_update hDoes)
  | @committed sid note request hWritten hRequest hDoes =>
      rw [rotates, hWritten]
      replace hDoes : Commit S A request.2 (c.held sid) c.db (.commit note) c'.db := hDoes
      generalize c'.db = b' at hDoes
      cases hDoes with
      | attempt old new hHeld hRow hId hVersion =>
          have hSame : c.db.version old.id = some new.tokenVersion := by
            simp [Backend.version, hRow, hVersion]
          apply Rotates.kept
          rw [Backend.version_setUser hRow hId, ← hSame, Function.update_eq_self]
      | rotate process registered old hashedPassword _ hHeld hRow _ hConfirmed =>
          simp only [hRequest, hRow, Option.bind_eq_bind, Option.bind_some]
          apply Rotates.rotated ⟨request.2, old⟩
          · simp [Backend.version, hRow]
          · exact Backend.version_setUser hRow rfl
          · exact hConfirmed

end Steps

structure Progress (start : Backend) (log : List (RotationCommit S)) (s : Rotating S) : Prop where
  rotations : ∃ later, s.2.rotations = log ++ later ∧
    Counted (·.user.id) (·.user.tokenVersion) start.version s.1.db.version later ∧
    ∀ r ∈ later, Confirmed S r.operation r.user.id r.user.tokenVersion

theorem Progress.step {start : Backend} {log : List (RotationCommit S)} {s : Rotating S}
    {c' : Config accounts} {a : Action accounts (Nat × Operation S)} (h : Progress start log s)
    (hRotates : Rotates s.1.db c'.db (rotates s.2.requests s.1 a)) :
    Progress start log (c', s.2.record s.1 a c') := by
  obtain ⟨later, hLog, hCounted, hConfirmed⟩ := h.rotations
  cases hRotation : rotates s.2.requests s.1 a with
  | none =>
      rw [hRotation] at hRotates
      cases hRotates with
      | kept hVersions =>
          refine ⟨later, ?_, ?_, hConfirmed⟩
          · simp [History.record, hRotation, hLog]
          · exact hVersions ▸ hCounted
  | some rotation =>
      rw [hRotation] at hRotates
      cases hRotates with
      | rotated _ hVersion hVersions hNew =>
          refine ⟨later ++ [rotation], ?_, ?_, ?_⟩
          · simp [History.record, hRotation, hLog]
          · rw [hVersions]
            exact hCounted.increment hVersion
          · intro r hr
            rcases List.mem_append.mp hr with hOld | hLast
            · exact hConfirmed r hOld
            · exact List.mem_singleton.mp hLast ▸ hNew

/-- A minted token that passes as a reset link carries its user and version. -/
theorem decodePasswordResetToken_mint (hJwt : S.jwt.Lawful) {issued now : Time} {user : User}
    {kind : Kind} {claims : ℤ × ℤ}
    (h : decodePasswordResetToken S now (mint S issued user kind) = .ok claims) :
    claims = (↑user.id, user.tokenVersion) := by
  by_cases hKind : kind = .passwordReset
  · subst hKind
    unfold decodePasswordResetToken decodePurposeToken at h
    cases hDecode : jwtDecode S now (mint S issued user .passwordReset) with
    | error e => cases e <;> simp [hDecode, bind, Except.bind] at h
    | ok payload =>
        obtain rfl := payload_of_decode hJwt hDecode
        have hClaims : (↑user.id, user.tokenVersion) = claims := by
          simpa [hDecode, bind, Except.bind, Kind.get_purpose, Kind.get_userId, Kind.get_tv] using h
        exact hClaims.symm
  · obtain ⟨e, he⟩ := decodePasswordResetToken_rejects hJwt hKind issued now user
    rw [he] at h
    cases h

/-- A confirmation names the account and the version it rotates. -/
theorem RotationCommit.Consumes.names {r : RotationCommit S} {issued : Time} {user : User}
    (hConsumes : r.Consumes (createPasswordResetToken S issued user)) (hJwt : S.jwt.Lawful)
    (hConfirmed : Confirmed S r.operation r.user.id r.user.tokenVersion) :
    r.user.id = user.id ∧ r.user.tokenVersion = user.tokenVersion := by
  obtain ⟨data, hOperation, hToken⟩ := hConsumes
  obtain ⟨now, hDecode⟩ := hConfirmed data hOperation
  rw [hToken] at hDecode
  have hClaims : ((r.user.id : ℤ), r.user.tokenVersion) = (↑user.id, user.tokenVersion) :=
    decodePasswordResetToken_mint hJwt (show decodePasswordResetToken S now
      (mint S issued user .passwordReset) = _ from hDecode)
  simpa using hClaims

/-- A token of a version that the account has left behind. -/
theorem linkVoid_of_passed (hJwt : S.jwt.Lawful) {users : ℤ → Option User} {user : User}
    (hPassed : ∀ row ∈ users user.id, user.tokenVersion < row.tokenVersion) (issued now : Time)
    (kind : Kind) : LinkVoid S now (mint S issued user kind) users := by
  intro userId claimedTv hDecode row hRow
  have hClaims := decodePasswordResetToken_mint hJwt hDecode
  rw [Prod.mk.injEq] at hClaims
  obtain ⟨rfl, rfl⟩ := hClaims
  exact (hPassed row hRow).ne

/-- A token of an earlier version opens no session, whatever its kind. -/
theorem opensNoSession_of_passed (hJwt : S.jwt.Lawful) {users : ℤ → Option User} {user : User}
    (hPassed : ∀ row ∈ users user.id, user.tokenVersion < row.tokenVersion) (issued now : Time)
    (kind : Kind) : OpensNoSession S now (mint S issued user kind) users := by
  apply (opensNoSession_iff hJwt).mpr
  intro hOpens
  obtain ⟨_, _, row, hRow, hVersion⟩ := hOpens
  exact (hPassed row hRow).ne hVersion.symm

/-- Between two states of a run the versions have moved by the rotations logged
in between. -/
theorem progress_of_reaches {rows : List User} {s s' : Rotating S}
    (past : Reached (.initial rows) s) (run : Reached s s') :
    Progress s.1.db s.2.rotations s' := by
  have hRules : ∀ (request : Nat × Operation S) (b : Backend), WellFormed b →
      ((rules S ⟨fun _ => True, False, False⟩).promising (promise S _ request.2)).Safe
        (handleIn S request) Held.none b := fun request _ _ => handle_safe trivial request.2
  have hMeets : ∀ (s : Rotating S) (a : Action accounts (Nat × Operation S)), True →
      Meets (rules S ⟨fun _ => True, False, False⟩).ok s.1 a :=
    fun _ _ _ _ _ _ => ⟨False.elim, False.elim⟩
  have hPast := Discipline.Valid.invariant (I := fun _ => True)
    (V := History.requests) (fun _ _ _ _ => rfl) hRules hMeets
    (fun _ _ _ _ _ => trivial) (.initial (WellFormed.of_initial rows)) trivial past
  have hStart : Progress s.1.db s.2.rotations s := ⟨[], by simp, .refl _, by simp⟩
  exact (Discipline.Valid.invariant (I := Progress s.1.db s.2.rotations)
    (V := History.requests) (fun _ _ _ _ => rfl) hRules hMeets
    (fun _ h _ hOutcome _ => h.step (.of_outcome hOutcome)) hPast.1 hStart run).2

/-- Between any two states of a run of any number of processes, the version of
an account has gone up by one for each rotation committed, each rotation
replaced a version of its own, no reset link was followed twice or after a
rotation, and tokens from before a rotation are accepted nowhere after it. -/
theorem credentials_since (hJwt : S.jwt.Lawful) {rows : List User} {s s' : Rotating S}
    (past : Reached (.initial rows) s) (run : Reached s s') :
    ∃ later, Since s s' later := by
  obtain ⟨later, hLogged, hCounted, hConfirmed⟩ := (progress_of_reaches past run).rotations
  have hPassed {user : User} (hReached : ReachedVersion s.1.db user.id user.tokenVersion)
      {r : RotationCommit S} (hr : r ∈ later) (hUser : r.user.id = user.id) :
      user.tokenVersion ≤ r.user.tokenVersion ∧
        ∀ row ∈ s'.1.db.userById user.id, user.tokenVersion < row.tokenVersion := by
    obtain ⟨row, hRow, hLe⟩ := hReached
    obtain ⟨first, last, hFirst, hLast, hFirstLe, hLt⟩ := hCounted.between r hr
    have hFirst' : row.tokenVersion = first := by
      simpa [Backend.version, hUser, hRow] using hFirst
    refine ⟨by omega, fun row' hRow' => ?_⟩
    have hLast' : row'.tokenVersion = last := by
      rw [Option.mem_def, Backend.userById_natCast] at hRow'
      simpa [Backend.version, hUser, hRow'] using hLast
    omega
  refine ⟨later, hLogged, hCounted.counts, hCounted.increasing, ?_, ?_, ?_⟩
  · apply hCounted.increasing.imp_of_mem
    intro r r' hr hr' hIncreasing issued user hBoth
    have hFirst := hBoth.1.names hJwt (hConfirmed r hr)
    have hSecond := hBoth.2.names hJwt (hConfirmed r' hr')
    have hLt := hIncreasing (hFirst.1.trans hSecond.1.symm)
    omega
  · intro issued user hReached
    apply hCounted.increasing.imp_of_mem
    intro r r' hr hr' hIncreasing hUser hConsumes
    have hNames := hConsumes.names hJwt (hConfirmed r' hr')
    have hLt := hIncreasing (hUser.trans hNames.1.symm)
    have hLe := (hPassed hReached hr hUser).1
    omega
  · intro issued user hReached hRotated kind now
    obtain ⟨r, hr, hUser⟩ := hRotated
    have hRow := (hPassed hReached hr hUser).2
    exact ⟨opensNoSession_of_passed hJwt hRow issued now kind,
      linkVoid_of_passed hJwt hRow issued now kind⟩

/-- Session 1 follows a reset link of Alice's to its commit. -/
def resetConfirms : List (Action accounts (Nat × Operation plainSettings)) :=
  [.start 1 (0, .passwordResetConfirm ⟨createPasswordResetToken plainSettings 0 alice,
      newPassword, 0⟩), .clock 1 0] ++ steps 1 3

/-- Two sessions rotate Alice's account, each in a process of its own: the link
is followed while the password change waits for the row. -/
def changeWaits : List (Action accounts (Nat × Operation plainSettings)) :=
  [.start 2 (1, .changePassword ⟨createUserAccessToken plainSettings 0 alice,
      ⟨newPassword.val, newPassword.2.2⟩, newPassword, 0⟩), .clock 2 0, .step 2]

theorem credentials_since_alice : ∃ s : Rotating plainSettings,
    s.2.rotations.map (fun r => r.user.tokenVersion) = [0, 1] ∧
      ∃ later, Since (.initial [alice]) s later := by
  obtain ⟨s, run, hRotated⟩ := Runs.exists_reaches (rotating plainSettings) (fun _ _ => True)
    (.initial [alice]) (changeWaits ++ resetConfirms ++ steps 2 3)
    (fun s => s.2.rotations.map (fun r => r.user.tokenVersion) = [0, 1]) (by decide +kernel)
  exact ⟨s, hRotated, credentials_since plainJwt_lawful .init run⟩

end OnlineAuction.Accounts
