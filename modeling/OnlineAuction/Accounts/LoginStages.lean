import OnlineAuction.Accounts.Commits
import OnlineAuction.Library.Lockouts
import OnlineAuction.Library.Outlines

/-! How far a login has come, and what it knows of the account there. From the
moment it has the row lock, the failure count and the lockout of the account
are those of its copy, whatever the other sessions do. -/

namespace OnlineAuction.Accounts

open RowLocks Lockouts

variable (S : Settings)

def User.lock (user : User) : Lock Time := ⟨user.failedLoginCount, user.lockedUntil⟩

def Backend.lockOf (b : Backend) (id : UserId) : Option (Lock Time) :=
  (b.users.get id).map User.lock

/-- A login looks the account up, has it locked, and is refused or goes on to
judge the password. `other` is any other operation, and a login whose account
is not there or whose commit is over. -/
inductive Stage where
  | searching (data : UserLogin)
  | locked (data : UserLogin) (row : User)
  | refused (userId : UserId)
  | judging (data : UserLogin) (row : User) (now : Time)
  | other

def Stage.begin (request : Nat × Operation S) : Stage :=
  match request.2 with
  | .login data => .searching data
  | _ => .other

def Stage.after : Stage → Answer accounts → Stage
  | .searching data, .locked key b =>
      match (b.userById key).filter fun row => row.username = data.username with
      | some row => .locked data row
      | none => .other
  | .locked data row, .clock now =>
      if row.lock.closed now then .refused row.id else .judging data row now
  | _, .committed _ _ => .other
  | _, .failed _ => .other
  | stage, _ => stage

/-- Numbers, failure counts and lockouts are as before. -/
def KeepsLocks (write : Backend → Backend) : Prop :=
  ∀ b id, ((write b).users.get id).map (fun row => (row.id, row.lock)) =
    (b.users.get id).map fun row => (row.id, row.lock)

def Judged (data : UserLogin) (row : User) (now : Time) (write : Backend → Backend) : Prop :=
  if verifyPassword S data.password row.hashedPassword then
    ∃ hashedPassword, write = (Backend.flushUser · row (row.successfulLogin hashedPassword))
  else write = (Backend.flushUser · row (row.failedLogin now))

/-- Only a login that judges the password touches the lockout of an account, and
one that is refused writes nothing at all. -/
def staging : Typestate accounts Stage where
  update stage _ write := stage = .other ∧ KeepsLocks write
  commit stage _ write := match stage with
    | .judging data row now => Judged S data row now write
    | .other => KeepsLocks write
    | _ => False
  after := Stage.after

section Writes

variable {b b' : Backend} {write : Backend → Backend} {loaded changed : User}

/-- A write that keeps the locks keeps each of them. -/
theorem KeepsLocks.lockOf (h : KeepsLocks write) (b : Backend) (id : UserId) :
    (write b).lockOf id = b.lockOf id := by
  have hMapped := congrArg (Option.map Prod.snd) (h b id)
  rwa [Option.map_map, Option.map_map] at hMapped

theorem KeepsLocks.numbered (h : KeepsLocks write)
    (hIds : ∀ id row, b.users.get id = some row → row.id = id) :
    ∀ id row, (write b).users.get id = some row → row.id = id := by
  intro id row hRow
  have hMapped := h b id
  rw [hRow, Option.map_some] at hMapped
  obtain ⟨old, hOld, hSame⟩ := Option.map_eq_some_iff.mp hMapped.symm
  rw [← hIds id old hOld]
  exact (congrArg Prod.fst hSame).symm

/-- Flushing a copy that keeps its lock keeps all locks. -/
theorem keepsLocks_flushUser (hLock : changed.lock = loaded.lock) :
    KeepsLocks (Backend.flushUser · loaded changed) := by
  obtain ⟨hCount, hUntil⟩ := Lock.mk.inj hLock
  intro b id
  show ((b.users.modify loaded.id _).get id).map _ = _
  by_cases hId : id = loaded.id
  · subst hId
    simp [User.flush, User.lock, column, hCount, hUntil, Function.comp_def]
  · rw [Table.get_modify_other _ _ hId]

/-- Over a row whose lockout is that of the copy, the lockout of the changed
copy is stored. -/
theorem lockOf_flushUser (hLock : b.lockOf loaded.id = some loaded.lock) :
    (b.flushUser loaded changed).lockOf loaded.id = some changed.lock := by
  obtain ⟨row, hRow, hSame⟩ := Option.map_eq_some_iff.mp hLock
  obtain ⟨hCount, hUntil⟩ := Lock.mk.inj hSame
  have hFlush : (User.flush loaded changed row).lock = changed.lock := by
    simp only [User.lock, User.flush, column, hCount, hUntil, Lock.mk.injEq]
    constructor <;> split_ifs with hChanged <;> simp [hChanged]
  show ((b.users.modify loaded.id _).get loaded.id).map _ = _
  rw [Table.get_modify_self, hRow]
  exact congrArg some hFlush

/-- Flushing one user keeps the locks of the others. -/
theorem lockOf_flushUser_other {id : UserId} (hId : id ≠ loaded.id) :
    (b.flushUser loaded changed).lockOf id = b.lockOf id := by
  show ((b.users.modify loaded.id _).get id).map _ = _
  rw [Table.get_modify_other _ _ hId]
  rfl

theorem numbered_flushUser (hIds : ∀ id row, b.users.get id = some row → row.id = id) :
    ∀ id row, (b.flushUser loaded changed).users.get id = some row → row.id = id := by
  intro id row hRow
  obtain ⟨old, hOld, hSame⟩ : ∃ old, b.users.get id = some old ∧ old.id = row.id := by
    by_cases hId : id = loaded.id
    · subst hId
      obtain ⟨old, hOld, rfl⟩ : ∃ old, b.users.get loaded.id = some old ∧
          User.flush loaded changed old = row := by simpa [Backend.flushUser] using hRow
      exact ⟨old, hOld, rfl⟩
    · exact ⟨row, (Table.get_modify_other _ _ hId).symm.trans hRow, rfl⟩
  exact hSame ▸ hIds id old hOld

/-- A failed login moves the lock by one failure. -/
theorem User.failedLogin_lock (user : User) (now : Time) :
    (user.failedLogin now).lock = user.lock.fail lockoutForFailures now := by
  simp only [User.failedLogin, User.lock, Lock.fail]
  cases lockoutForFailures (user.failedLoginCount + 1) <;> rfl

/-- What a judged login writes: the lock is cleared or moved by one failure. -/
theorem Judged.eq {data : UserLogin} {row : User} {now : Time} (h : Judged S data row now write) :
    ∃ changed : User, write = (Backend.flushUser · row changed) ∧ changed.lock =
      if verifyPassword S data.password row.hashedPassword then ⟨0, none⟩
      else row.lock.fail lockoutForFailures now := by
  unfold Judged at h
  split_ifs at h ⊢
  · obtain ⟨hashedPassword, rfl⟩ := h
    exact ⟨_, rfl, rfl⟩
  · exact ⟨_, h, User.failedLogin_lock row now⟩

end Writes

namespace Stage

variable {S}

@[simp] theorem staging_after_read (stage : Stage) (note : Note) (b : Backend) :
    (staging S).after stage (.read note b) = stage := by
  cases stage <;> rfl

@[simp] theorem follows_query {α : Type} {post : α → Stage → Prop} {stage : Stage}
    (select : Backend → α) :
    (staging S).Follows (query select) post stage ↔ ∀ b, post (select b) stage := by
  show (∀ b, post (select b) ((staging S).after stage (.read .none b))) ↔ _
  simp only [staging_after_read]

/-- The rule of the clock under the lock: the login is refused or goes on to be
judged. -/
theorem follows_utcnow_locked {post : Time → Stage → Prop} {data : UserLogin} {row : User} :
    (staging S).Follows utcnow post (.locked data row) ↔ ∀ now, post now
      (if row.lock.closed now then .refused row.id else .judging data row now) := Iff.rfl

/-- Outside a login the clock tells nothing. -/
@[simp] theorem follows_utcnow {post : Time → Stage → Prop} :
    (staging S).Follows utcnow post .other ↔ ∀ now, post now .other := Iff.rfl

/-- The rule of a commit. -/
theorem follows_commit {post : Unit → Stage → Prop} {stage : Stage} {note : Note}
    {write : Backend → Backend} (hMay : (staging S).commit stage note write)
    (hPost : ∀ b, post () ((staging S).after stage (.committed note b))) :
    (staging S).Follows (commit note write) post stage :=
  ⟨hMay, fun b => hPost b, trivial⟩

/-- The rule of an uncommitted write. -/
theorem follows_update {post : Unit → Stage → Prop} {note : Note} {write : Backend → Backend}
    (hKeeps : KeepsLocks write) (hPost : post () .other) :
    (staging S).Follows (update note write) post .other :=
  ⟨⟨rfl, hKeeps⟩, hPost⟩

/-- A login that finds its account has it locked, under its number. -/
theorem follows_selectUsernameForUpdate {data : UserLogin} {post : Option User → Stage → Prop}
    (hNone : ∀ stage, post none stage)
    (hLocked : ∀ row, post (some row) (.locked data row)) :
    (staging S).Follows (selectUsernameForUpdate data.username) post (.searching data) := by
  unfold selectUsernameForUpdate
  rw [Typestate.follows_bind, follows_query]
  intro b
  cases b.userByUsername data.username with
  | none => exact hNone _
  | some found =>
      refine ⟨trivial, fun b => ?_⟩
      show post ((b.userById found.id).filter fun row => row.username = data.username)
        (match (b.userById found.id).filter fun row => row.username = data.username with
          | some row => .locked data row
          | none => .other)
      cases (b.userById found.id).filter fun row => row.username = data.username with
      | none => exact hNone _
      | some row => exact hLocked row

/-- `login` goes through its stages in their order. -/
theorem login_follows (data : UserLogin) :
    (staging S).Follows (login S data) (fun _ _ => True) (.searching data) := by
  unfold login
  rw [Typestate.follows_bind]
  apply follows_selectUsernameForUpdate
  · intro stage
    rw [Typestate.follows_bind, Typestate.follows_orRaise]
    intro dbUser hNone
    cases hNone
  · intro dbUser
    rw [Typestate.follows_bind, Typestate.follows_orRaise]
    intro row hRow
    obtain rfl := Option.some.inj hRow
    rw [Typestate.follows_bind, follows_utcnow_locked]
    intro now
    rw [Typestate.follows_bind, Typestate.follows_raiseIf]
    intro hOpen
    change ¬dbUser.lock.closed now = true at hOpen
    rw [if_neg hOpen]
    cases hVerify : verifyPassword S data.password dbUser.hashedPassword with
    | false =>
        rw [Bool.not_false, if_pos rfl, Typestate.follows_bind]
        apply follows_commit
        · show Judged S data dbUser now _
          rw [Judged, hVerify]
          rfl
        · exact fun _ => trivial
    | true =>
        rw [Bool.not_true, if_neg Bool.false_ne_true, Typestate.follows_bind,
          Typestate.follows_ofExcept]
        intro hashedPassword _
        rw [Typestate.follows_bind]
        apply follows_commit
        · show Judged S data dbUser now _
          rw [Judged, hVerify]
          exact ⟨hashedPassword, rfl⟩
        · intro _
          rw [Typestate.follows_bind]
          intro refreshed
          rw [Typestate.follows_orRaise]
          intro row _
          show (staging S).Follows _ _ Stage.other
          rw [Typestate.follows_bind, follows_utcnow]
          intro issued
          rw [Typestate.follows_bind]
          apply follows_update (fun _ _ => rfl)
          trivial

theorem closeEach_follows (process : Nat) (userId : UserId) (bucket : List Socket) :
    (staging S).Follows (closeEach process userId bucket) (fun _ stage => stage = .other)
      .other := by
  induction bucket with
  | nil => rfl
  | cons ws rest ih =>
      rw [closeEach, Typestate.follows_bind]
      exact follows_update (fun _ _ => rfl) ih

/-- Invalidating the sessions is no stage of a login, and it keeps the lock. -/
theorem invalidateUserSessions_follows {process : Nat} {user : User}
    {post : User × Nat → Stage → Prop}
    (hPost : ∀ rotated registered, rotated.lock = user.lock → post (rotated, registered) .other) :
    (staging S).Follows (invalidateUserSessions process user) post .other := by
  unfold invalidateUserSessions
  rw [Typestate.follows_bind, follows_query]
  intro b
  rw [Typestate.follows_bind]
  apply (closeEach_follows process user.id _).weaken
  rintro _ stage rfl
  exact hPost _ _ rfl

/-- A rotation that keeps the lock may be committed. -/
theorem commitRotation_follows {process : Nat} {locked rotated : User} {registered : Nat}
    {post : Unit → Stage → Prop} (hLock : rotated.lock = locked.lock) (hPost : post () .other) :
    (staging S).Follows (commitRotation process locked rotated registered) post .other := by
  have hKeeps : KeepsLocks (Backend.flushUser · locked rotated) := keepsLocks_flushUser hLock
  exact ⟨hKeeps, fun _ => hPost, trivial⟩

/-- The rule of locking a user outside a login. -/
@[simp] theorem follows_selectUserForUpdate {userId : ℤ} {post : Option User → Stage → Prop} :
    (staging S).Follows (selectUserForUpdate userId) post .other ↔
      ∀ b : Backend, post (b.userById userId) .other :=
  iff_of_eq (true_and _)

theorem changePassword_follows (process : Nat) (data : ChangePasswordRequest S) :
    (staging S).Follows (changePassword S process data) (fun _ _ => True) .other := by
  unfold changePassword
  simp only [Typestate.follows_bind, follows_utcnow, follows_query, Typestate.follows_ofExcept,
    follows_selectUserForUpdate, Typestate.follows_orRaise, Typestate.follows_raiseIf]
  intro now b currentUser _ b' locked _ _ hashedPassword _
  apply invalidateUserSessions_follows
  intro rotated registered hLock
  rw [Typestate.follows_bind]
  apply commitRotation_follows
  · exact hLock
  · rw [Typestate.follows_bind, follows_utcnow]
    intro issued
    rw [Typestate.follows_bind]
    apply follows_update (fun _ _ => rfl)
    trivial

theorem passwordResetConfirm_follows (process : Nat) (data : PasswordResetConfirmBody S) :
    (staging S).Follows (passwordResetConfirm S process data) (fun _ _ => True) .other := by
  unfold passwordResetConfirm
  simp only [Typestate.follows_bind, follows_utcnow, Typestate.follows_ofExcept,
    follows_selectUserForUpdate, Typestate.follows_orRaise, Typestate.follows_raiseIf]
  intro now claims _ b locked _ _ hashedPassword _
  apply invalidateUserSessions_follows
  intro rotated registered hLock
  rw [Typestate.follows_bind]
  apply commitRotation_follows
  · exact hLock
  · exact follows_update (fun _ _ => rfl) trivial

theorem notificationsWebsocket_follows (process : Nat) (handshake : Handshake S) :
    (staging S).Follows (notificationsWebsocket S process handshake) (fun _ _ => True) .other := by
  unfold notificationsWebsocket
  cases handshake.token with
  | none => trivial
  | some token =>
      simp only [Typestate.follows_bind, follows_utcnow, follows_query]
      intro now b
      cases admitSocket S now token handshake.userId b.userById with
      | none => trivial
      | some user =>
          dsimp only
          rw [Typestate.follows_bind]
          apply follows_update (fun _ _ => rfl)
          split_ifs
          · trivial
          · exact follows_update (fun _ _ => rfl) trivial

theorem handleIn_follows (request : Nat × Operation S) :
    (staging S).Follows (handleIn S request) (fun _ _ => True) (.begin S request) := by
  obtain ⟨process, operation⟩ := request
  cases operation with
  | login data =>
      show (staging S).Follows (login S data >>= fun _ => pure ()) _ _
      rw [Typestate.follows_bind]
      exact login_follows data
  | changePassword data =>
      show (staging S).Follows (changePassword S process data >>= fun _ => pure ()) _ _
      rw [Typestate.follows_bind]
      exact changePassword_follows process data
  | passwordResetConfirm data => exact passwordResetConfirm_follows process data
  | notificationsWebsocket handshake => exact notificationsWebsocket_follows process handshake

end Stage

end OnlineAuction.Accounts
