import OnlineAuction.Accounts.LoginStages
import OnlineAuction.Library.Journals

/-! The attempts to log in to an account, in the order of its row lock. However
many sessions try, and whatever else is done to the accounts, the passwords that
are judged wrong in a row are the lockouts apart. -/

namespace OnlineAuction.Accounts

open RowLocks Lockouts

variable {S : Settings}

def Numbered (b : Backend) : Prop := ∀ id row, b.users.get id = some row → row.id = id

def Copied (row : User) (held : Held accounts) (b : Backend) : Prop :=
  held row.id = true ∧ b.lockOf row.id = some row.lock

def Stage.copy : Stage → Option User
  | .locked _ row => some row
  | .judging _ row _ => some row
  | _ => none

def Knowledge (stage : Stage) (held : Held accounts) (b : Backend) : Prop :=
  ∀ row, stage.copy = some row → Copied row held b

/-- A step that keeps the lock of a held row keeps the copy true. -/
theorem Copied.same {row : User} {held held' : Held accounts} {b b' : Backend}
    (h : Copied row held b) (hHeld : held row.id = true → held' row.id = true)
    (hLock : b'.lockOf row.id = b.lockOf row.id) : Copied row held' b' :=
  ⟨hHeld h.1, hLock.trans h.2⟩

/-- The attempt that an answer concludes, and the account it was made on. An
attempt that cannot be committed is answered with an error of the server, and
is none. -/
def Stage.attempt (S : Settings) : Stage → Answer accounts → Option (UserId × Attempt Time)
  | .locked _ row, .clock now =>
      if row.lock.closed now then some (row.id, ⟨now, .refused⟩) else none
  | .judging data row now, .committed _ _ =>
      some (row.id, ⟨now, if verifyPassword S data.password row.hashedPassword then .succeeded
        else .failed⟩)
  | _, _ => none

/-- An answer leaves every lockout as it was, but for that of an account which
the session has judged a password of. -/
inductive Changed (S : Settings) (stage : Stage) (answer : Answer accounts)
    (held : Held accounts) (b b' : Backend) : Prop where
  | silent (hNone : stage.attempt S answer = none) (hLocks : ∀ id, b'.lockOf id = b.lockOf id)
      (hNumbered : Numbered b → Numbered b')
  | refused (data : UserLogin) (row : User) (now : Time) (hStage : stage = .locked data row)
      (hAnswer : answer = .clock now) (hClosed : row.lock.closed now = true) (hDb : b' = b)
  | judged (data : UserLogin) (row : User) (now : Time) (verdict : Verdict)
      (hStage : stage = .judging data row now)
      (hAttempt : stage.attempt S answer = some (row.id, ⟨now, verdict⟩))
      (hVerdict : verdict ≠ .refused) (hNumbered : Numbered b → Numbered b')
      (hCopied : Copied row held b)
      (hLock : b'.lockOf row.id = some (row.lock.after lockoutForFailures ⟨now, verdict⟩))
      (hOthers : ∀ id, id ≠ row.id → b'.lockOf id = b.lockOf id)

section Knowledge

variable {c c' : Config accounts} {sid other : Nat} {stage : Stage} {answer : Answer accounts}

theorem Changed.of_same {held : Held accounts} {b : Backend} (stage : Stage)
    (answer : Answer accounts) (hCommit : ∀ note d, answer ≠ .committed note d) :
    Changed S stage answer held b b := by
  cases hAttempt : stage.attempt S answer with
  | none => exact .silent hAttempt (fun _ => rfl) id
  | some attempt =>
      cases stage with
      | locked data row =>
          cases answer with
          | clock now =>
              simp only [Stage.attempt, Option.ite_none_right_eq_some] at hAttempt
              exact .refused data row now rfl rfl hAttempt.1 rfl
          | _ => cases hAttempt
      | judging data row now =>
          cases answer with
          | committed note d => exact absurd rfl (hCommit note d)
          | _ => cases hAttempt
      | searching => cases hAttempt
      | refused => cases hAttempt
      | other => cases hAttempt

theorem Changed.of_told (hTold : (staging S).Told c c' sid stage answer)
    (hKnown : Knowledge stage (c.held sid) c.db) :
    Changed S stage answer (c.held sid) c.db c'.db := by
  cases hTold with
  | read _ hDb => exact hDb ▸ .of_same _ _ (by simp)
  | locked _ _ hDb => exact hDb ▸ .of_same _ _ (by simp)
  | refused _ hDb => exact hDb ▸ .of_same _ _ (by simp)
  | clock _ _ hDb => exact hDb ▸ .of_same _ _ (by simp)
  | failed _ hDb => exact hDb ▸ .of_same _ _ (by simp)
  | updated note write hMay hDb =>
      obtain ⟨rfl, hKeeps⟩ := hMay
      rw [hDb]
      exact .silent rfl (hKeeps.lockOf c.db) hKeeps.numbered
  | committed note write hMay hDb =>
      rw [hDb]
      cases stage with
      | searching => exact absurd hMay id
      | locked => exact absurd hMay id
      | refused => exact absurd hMay id
      | other =>
          have hKeeps : KeepsLocks write := hMay
          exact .silent rfl (hKeeps.lockOf c.db) hKeeps.numbered
      | judging data row now =>
          obtain ⟨changed, rfl, hLock⟩ := Judged.eq S hMay
          have hCopied := hKnown row rfl
          refine .judged data row now _ rfl rfl ?_ numbered_flushUser hCopied ?_
            fun id hId => lockOf_flushUser_other hId
          · split_ifs <;> decide
          · rw [lockOf_flushUser hCopied.2, hLock]
            split_ifs <;> rfl

/-- What another session holds is as it was. -/
theorem Changed.copied {held held' : Held accounts} {b b' : Backend}
    (h : Changed S stage answer held b b')
    (hDisjoint : ∀ key, held' key = true → held key = false)
    {row : User} (hCopied : Copied row held' b) : Copied row held' b' := by
  cases h with
  | silent _ hLocks => exact hCopied.same (fun h => h) (hLocks row.id)
  | refused _ _ _ _ _ _ hDb => exact hDb ▸ hCopied
  | judged data mine now _ _ _ _ _ hMine _ hOthers =>
      apply hCopied.same (fun h => h) (hOthers row.id _)
      intro hSame
      have hFree := hDisjoint row.id hCopied.1
      rw [hSame, hMine.1] at hFree
      cases hFree

/-- The entries of an account are added by the holder of its lock. -/
theorem Changed.held {held : Held accounts} {b b' : Backend}
    (h : Changed S stage answer held b b') (hKnown : Knowledge stage held b) {key : UserId}
    {attempt : Attempt Time} (hAttempt : stage.attempt S answer = some (key, attempt)) :
    held key = true := by
  cases h with
  | silent hNone =>
      rw [hNone] at hAttempt
      cases hAttempt
  | refused data row now hStage hAnswer hClosed =>
      subst hStage hAnswer
      simp only [Stage.attempt, hClosed, if_true, Option.some.injEq, Prod.mk.injEq] at hAttempt
      exact hAttempt.1 ▸ (hKnown row rfl).1
  | judged data row now verdict hStage hSame _ _ hCopied =>
      rw [hSame] at hAttempt
      cases hAttempt
      exact hCopied.1

/-- The lock and the copy of a session after an answer to it. -/
theorem Knowledge.told (hNumbered : Numbered c.db)
    (hTold : (staging S).Told c c' sid stage answer) (hKnown : Knowledge stage (c.held sid) c.db) :
    Knowledge (stage.after answer) (c'.held sid) c'.db := by
  intro row hCopy
  cases hTold with
  | read note hDb hLocks =>
      rw [Config.held_of_same hLocks, hDb]
      cases stage <;> exact hKnown row hCopy
  | refused key hDb hLocks =>
      rw [Config.held_of_same hLocks, hDb]
      cases stage <;> exact hKnown row hCopy
  | updated note write hMay hDb hLocks =>
      obtain ⟨rfl, _⟩ := hMay
      cases hCopy
  | clock now _ hDb hLocks =>
      rw [Config.held_of_same hLocks, hDb]
      cases stage with
      | locked data old =>
          simp only [Stage.after] at hCopy
          split_ifs at hCopy
          · cases hCopy
          · exact hKnown row hCopy
      | searching => cases hCopy
      | refused => cases hCopy
      | other => cases hCopy
      | judging => exact hKnown row hCopy
  | locked key hFree hDb hLocks =>
      rw [Config.held_of_grant hLocks, hDb]
      cases stage with
      | searching data =>
          simp only [Stage.after] at hCopy
          cases hRow : (c.db.userById key).filter fun row => row.username = data.username with
          | none =>
              rw [hRow] at hCopy
              cases hCopy
          | some found =>
              rw [hRow] at hCopy
              obtain rfl : found = row := Option.some.inj hCopy
              obtain ⟨hStored, _⟩ := Option.filter_eq_some_iff.mp hRow
              cases key with
              | negSucc => cases hStored
              | ofNat id =>
                  obtain rfl : found.id = id := hNumbered id found hStored
                  have hGet : c.db.users.get found.id = some found := hStored
                  have hExists : accounts.hasRow c.db (found.id : ℤ) = true := by
                    show (c.db.users.get found.id).isSome = true
                    rw [hGet]
                    rfl
                  refine ⟨Held.grant_self _ hExists, ?_⟩
                  rw [Backend.lockOf, hGet]
                  rfl
      | locked => exact (hKnown row hCopy).same (Held.grant_sub _ _ _) rfl
      | judging => exact (hKnown row hCopy).same (Held.grant_sub _ _ _) rfl
      | refused => cases hCopy
      | other => cases hCopy
  | committed => cases stage <;> cases hCopy
  | failed => cases stage <;> cases hCopy

end Knowledge

abbrev Guessing := Config accounts × Journal Stage UserId (Attempt Time)

def Guessing.initial (rows : List User) : Guessing := (.initial (Backend.initial rows), .empty)

def guess (S : Settings) : Guessing → Action accounts (Nat × Operation S) → Option Guessing :=
  Runs.recording (advance (handleIn S))
    (Journal.record (staging S) (Stage.begin S) (Stage.attempt S))

/-- The reading that a session takes with the lock of an account is not before
any attempt on it. -/
def steady : Stage → Answer accounts → (UserId → List (Attempt Time)) → Bool
  | .locked _ row, .clock now, attempts =>
      (attempts row.id).all fun attempt => attempt.time ≤ now
  | _, _, _ => true

/-- The attempts on every account are served by its lock, which is stored. -/
structure Logged (rows : List User) (b : Backend) (attempts : UserId → List (Attempt Time)) :
    Prop where
  numbered : Numbered b
  served : ∀ id first, (Backend.initial rows).lockOf id = some first →
    Served lockoutForFailures first (attempts id)
  stored : ∀ id first, (Backend.initial rows).lockOf id = some first →
    b.lockOf id = some (first.run lockoutForFailures (attempts id))
  sorted : ∀ id, (attempts id).Pairwise fun earlier later => earlier.time ≤ later.time

/-- A password is judged at a reading that finds the lock open, after all the
other attempts. -/
structure Judging (stage : Stage) (held : Held accounts) (b : Backend)
    (attempts : UserId → List (Attempt Time)) : Prop where
  known : Knowledge stage held b
  opened : ∀ data row now, stage = .judging data row now → ¬row.lock.closed now = true
  later : ∀ data row now, stage = .judging data row now →
    ∀ attempt ∈ attempts row.id, attempt.time ≤ now

section Outline

variable {rows : List User} {c c' : Config accounts} {sid : Nat} {stage : Stage}
  {answer : Answer accounts} {attempts : UserId → List (Attempt Time)}

/-- A session comes to judge a password at a reading that finds the lock open. -/
theorem judging_of_after {data : UserLogin} {row : User} {now : Time}
    (h : stage.after answer = .judging data row now) :
    stage.attempt S answer = none ∧ (stage = .judging data row now ∨
      stage = .locked data row ∧ answer = .clock now ∧ ¬row.lock.closed now = true) := by
  cases stage with
  | locked data' row' =>
      cases answer with
      | clock t =>
          simp only [Stage.after] at h
          split_ifs at h with hClosed
          cases h
          exact ⟨if_neg hClosed, .inr ⟨rfl, rfl, hClosed⟩⟩
      | _ => cases h
  | judging data' row' now' =>
      cases answer with
      | committed => cases h
      | failed => cases h
      | _ => exact ⟨rfl, .inl h⟩
  | searching data' =>
      cases answer with
      | locked key b =>
          simp only [Stage.after] at h
          split at h <;> cases h
      | _ => cases h
  | refused => cases answer <;> cases h
  | other => cases answer <;> cases h

/-- An attempt on one account that its lock, as it is stored, serves. -/
theorem Logged.push {b b' : Backend} (hLogged : Logged rows b attempts) {key : UserId}
    {attempt : Attempt Time} {lock : Lock Time} (hNumbered : Numbered b')
    (hLock : b.lockOf key = some lock)
    (hServed : attempt.verdict = .refused ↔ lock.closed attempt.time = true)
    (hAfter : b'.lockOf key = some (lock.after lockoutForFailures attempt))
    (hOthers : ∀ id, id ≠ key → b'.lockOf id = b.lockOf id)
    (hLater : ∀ other ∈ attempts key, other.time ≤ attempt.time) :
    Logged rows b' (Journal.push attempts (some (key, attempt))) := by
  have hLast : ∀ first, (Backend.initial rows).lockOf key = some first →
      lock = first.run lockoutForFailures (attempts key) := fun first hFirst =>
    Option.some.inj (hLock.symm.trans (hLogged.stored key first hFirst))
  constructor
  · exact hNumbered
  · intro id first hFirst
    rw [Journal.push_some]
    split_ifs with hId
    · subst hId
      rw [hLast first hFirst] at hServed
      exact served_snoc.mpr ⟨hLogged.served id first hFirst, hServed⟩
    · exact hLogged.served id first hFirst
  · intro id first hFirst
    rw [Journal.push_some]
    split_ifs with hId
    · subst hId
      rw [hAfter, hLast first hFirst, Lock.run_append, Lock.run_singleton]
    · exact (hOthers id hId).trans (hLogged.stored id first hFirst)
  · intro id
    rw [Journal.push_some]
    split_ifs with hId
    · subst hId
      rw [List.pairwise_append]
      simpa using ⟨hLogged.sorted id, hLater⟩
    · exact hLogged.sorted id

/-- An answer adds at most one attempt, which the lock of its account serves. -/
theorem Logged.told (hLogged : Logged rows c.db attempts)
    (hTold : (staging S).Told c c' sid stage answer) (hSteady : steady stage answer attempts = true)
    (hJudging : Judging stage (c.held sid) c.db attempts) :
    Logged rows c'.db (Journal.push attempts (stage.attempt S answer)) := by
  have hKnown := hJudging.known
  cases Changed.of_told hTold hKnown with
  | silent hNone hLocks hNumbered =>
      rw [hNone]
      exact ⟨hNumbered hLogged.numbered, hLogged.served,
        fun id first hFirst => (hLocks id).trans (hLogged.stored id first hFirst), hLogged.sorted⟩
  | refused data row now hStage hClock hClosed hDb =>
      subst hStage hClock
      have hAttempt : Stage.attempt S (.locked data row) (.clock now) =
          some (row.id, ⟨now, .refused⟩) := if_pos hClosed
      have hSteady : ∀ attempt ∈ attempts row.id, attempt.time ≤ now := by
        simpa [steady] using hSteady
      have hLock := (hKnown row rfl).2
      rw [hAttempt, hDb]
      exact hLogged.push hLogged.numbered hLock (by simpa using hClosed) hLock (fun _ _ => rfl)
        hSteady
  | judged data row now verdict hStage hAttempt hVerdict hNumbered hCopied hLock hOthers =>
      have hOpen := hJudging.opened data row now hStage
      rw [hAttempt]
      exact hLogged.push (hNumbered hLogged.numbered) hCopied.2 (by simp [hOpen, hVerdict]) hLock
        hOthers (hJudging.later data row now hStage)

/-- The locks are logged as the stages of the logins say. -/
theorem outline (S : Settings) (rows : List User) : Journal.Outline (staging S) (Stage.begin S)
    (Stage.attempt S) steady (Logged rows) Judging where
  started request _ _ := by
    obtain ⟨process, operation⟩ := request
    constructor
    · intro row hCopy
      cases operation <;> cases hCopy
    · intro data row now hStage
      cases operation <;> cases hStage
    · intro data row now hStage
      cases operation <;> cases hStage
  keeps hLogged hTold hSteady hJudging := hLogged.told hTold hSteady hJudging
  told {c c' sid stage answer attempts} hLogged hTold hSteady hJudging := by
    refine ⟨hJudging.known.told hLogged.numbered hTold, ?_, ?_⟩
    · intro data row now hStage
      obtain ⟨_, hBefore | ⟨_, _, hOpen⟩⟩ := judging_of_after (S := S) hStage
      · exact hJudging.opened data row now hBefore
      · exact hOpen
    · intro data row now hStage
      obtain ⟨hNone, hBefore⟩ := judging_of_after (S := S) hStage
      rw [hNone]
      rcases hBefore with hBefore | ⟨rfl, rfl, _⟩
      · exact hJudging.later data row now hBefore
      · show ∀ attempt ∈ attempts row.id, attempt.time ≤ now
        simpa [steady] using hSteady
  others {c c' sid other stage stage' answer attempts} hLogged hOther hTold _ hJudging hOthers := by
    have hChanged := Changed.of_told hTold hJudging.known
    have hDisjoint := fun key hKey => c.held_disjoint hOther key hKey
    refine ⟨fun row hCopy => hChanged.copied hDisjoint (hOthers.known row hCopy),
      hOthers.opened, ?_⟩
    intro data row now hStage
    cases hAttempt : stage.attempt S answer with
    | none => exact hOthers.later data row now hStage
    | some entry =>
        obtain ⟨key, attempt⟩ := entry
        have hKey : row.id ≠ key := by
          rintro rfl
          have hFree := hDisjoint row.id (hOthers.known row (by rw [hStage]; rfl)).1
          rw [hChanged.held hJudging.known hAttempt] at hFree
          cases hFree
        rw [Journal.push_some, if_neg hKey]
        exact hOthers.later data row now hStage

end Outline

section Runs

variable {rows : List User} {id : UserId} {first : Lock Time} {c c' : Config accounts}
  {h : Journal Stage UserId (Attempt Time)} {a : Action accounts (Nat × Operation S)}

theorem lockoutForFailures_eq (count : ℤ) : lockoutForFailures count =
    if 20 ≤ count then some (hours 1) else if 15 ≤ count then some (minutes 15)
    else if 10 ≤ count then some (minutes 5) else if 5 ≤ count then some (minutes 1) else none := by
  unfold lockoutForFailures loginLockoutTiers
  split_ifs with h20 h15 h10 h5
  · simp [h20]
  · simp [h20, h15]
  · simp [h20, h15, h10]
  · simp [h20, h15, h10, h5]
  · simp [h20, h15, h10, h5]

/-- More failures are never locked out for less. -/
theorem windowOf_lockoutForFailures_mono (i j : ℤ) (hLe : i ≤ j) :
    windowOf lockoutForFailures i ≤ windowOf lockoutForFailures j := by
  simp only [windowOf, lockoutForFailures_eq]
  split_ifs <;> first | omega | decide

theorem logged_initial (rows : List User) :
    Logged rows (Backend.initial rows) fun _ => [] where
  numbered := (WellFormed.of_initial rows).userIds
  served _ _ _ := trivial
  stored _ _ hFirst := hFirst
  sorted _ := .nil

/-- The failures counted at the start are not negative. -/
theorem failures_nonneg (hCounts : ∀ row ∈ rows, 0 ≤ row.failedLoginCount)
    (hFirst : (Backend.initial rows).lockOf id = some first) : 0 ≤ first.failures := by
  obtain ⟨row, hRow, rfl⟩ := Option.map_eq_some_iff.mp hFirst
  cases id with
  | zero => cases hRow
  | succ n =>
      obtain ⟨old, hOld, rfl⟩ := Option.map_eq_some_iff.mp hRow
      exact hCounts old (List.mem_of_getElem? hOld)

/-- A refused session goes on to write nothing. -/
theorem refused_quiet (hWithin : (staging S).Within h.states c) {sid : Nat} {userId : UserId}
    (hState : h.states sid = some (.refused userId)) (hSession : a.session = sid)
    (moves : advance (handleIn S) c a = some c') : c'.db = c.db := by
  obtain ⟨hTurn, _⟩ := hWithin.turn Stage.handleIn_follows moves
  cases hTurn with
  | started sid request hIdle hDb => exact hDb
  | closed sid hDb => exact hDb
  | told other stage answer p next hAnswer _ hStage _ hTold =>
      obtain rfl : other = sid := (session_of_answered hAnswer).symm.trans hSession
      obtain rfl : stage = .refused userId := Option.some.inj (hStage.symm.trans hState)
      cases hTold with
      | read _ hDb => exact hDb
      | locked _ _ hDb => exact hDb
      | refused _ hDb => exact hDb
      | clock _ _ hDb => exact hDb
      | failed _ hDb => exact hDb
      | updated note write hMay => cases hMay.1
      | committed note write hMay => exact absurd hMay id

end Runs

/-- Over any number of processes and sessions, whatever they do to the accounts
besides: the passwords judged wrong in a row are the lockouts apart; the lock of
the account, which refuses exactly the attempts made while it is closed, is the
one that the attempts make of the first; and a refused session writes nothing. -/
theorem guesses_apart {rows : List User} (hCounts : ∀ row ∈ rows, 0 ≤ row.failedLoginCount)
    {s : Guessing} (run : Runs.Reaches (guess S) (fun s a => Journal.meets steady s a = true)
      (.initial rows) s)
    (id : UserId) (first : Lock Time) (hFirst : (Backend.initial rows).lockOf id = some first) :
    FailuresApart lockoutForFailures (s.2.entries id) ∧
      Served lockoutForFailures first (s.2.entries id) ∧
      s.1.db.lockOf id = some (first.run lockoutForFailures (s.2.entries id)) ∧
      ∀ sid userId a s', s.2.states sid = some (.refused userId) → a.session = sid →
        guess S s a = some s' → s'.1.db = s.1.db := by
  have hHolds := Journal.Holds.run (outline S rows) Stage.handleIn_follows
    (.initial (logged_initial rows)) run
  have hServed := hHolds.inv.served id first hFirst
  refine ⟨?_, hServed, hHolds.inv.stored id first hFirst, ?_⟩
  · exact failuresApart_of_served windowOf_lockoutForFailures_mono
      (failures_nonneg hCounts hFirst) hServed (hHolds.inv.sorted id)
  · intro sid userId a s' hState hSession hGuess
    obtain ⟨c', moves, rfl⟩ := Option.map_eq_some_iff.mp hGuess
    exact refused_quiet hHolds.within hState hSession moves

/-- An attempt to log in as Dave, who has a password of his own. -/
def attempt (sid : Nat) (password : LoginPassword) (now : Time) :
    List (Action accounts (Nat × Operation plainSettings)) :=
  [.start sid (0, .login ⟨"dave", password, 0⟩), .step sid, .step sid, .clock sid now, .step sid]

def dave : User := ⟨1, "dave", "dave@example.org", "his password", 0, 4, none⟩

/-- The fifth failure locks the account for a minute. The right password is
refused at half time, a wrong one is judged at the end. -/
theorem guesses_apart_dave : ∃ s : Guessing,
    s.2.entries 1 = [⟨0, .failed⟩, ⟨seconds 30, .refused⟩, ⟨seconds 60, .failed⟩] ∧
      s.1.db.lockOf 1 = some ⟨6, some (seconds 120)⟩ ∧
      FailuresApart lockoutForFailures (s.2.entries 1) := by
  obtain ⟨s, run, hAttempts, hLock⟩ := Runs.exists_reaches (guess plainSettings)
    (fun s a => Journal.meets steady s a = true) (.initial [dave])
    (attempt 1 ⟨"guess", by decide⟩ 0 ++ (attempt 2 ⟨"his password", by decide⟩ (seconds 30)).take 4
      ++ [.close 2] ++ attempt 3 ⟨"another guess", by decide⟩ (seconds 60))
    (fun s => s.2.entries 1 = [⟨0, .failed⟩, ⟨seconds 30, .refused⟩, ⟨seconds 60, .failed⟩] ∧
      s.1.db.lockOf 1 = some ⟨6, some (seconds 120)⟩) (by decide +kernel)
  have hCounts : ∀ row ∈ [dave], 0 ≤ row.failedLoginCount := by decide
  exact ⟨s, hAttempts, hLock, (guesses_apart hCounts run 1 ⟨4, none⟩ rfl).1⟩

end OnlineAuction.Accounts
