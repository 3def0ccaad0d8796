import OnlineAuction.Accounts.Rotations

/-! Which password an account accepts. A login may store a new hash while the password is
being changed or reset elsewhere; whatever the interleaving, the account accepts the
password of its last rotation, and no other. -/

namespace OnlineAuction.Accounts.Passwords

open RowLocks

variable {S : Settings}

/-- `CryptContext` knows its own hashes, and accepts for each the text that was hashed. -/
structure Lawful (hashing : Hashing) : Prop where
  identify_hash : ∀ salt text, hashing.identify (hashing.hash salt text) = true
  verify_hash : ∀ salt text text', hashing.verify text' (hashing.hash salt text) = true ↔ text' = text

/-- A hash accepts the password it was made from and no other. -/
theorem verifyPassword_hash (hHashing : Lawful S.hashing) {salt : Nat} {password hashed : String}
    (hHash : hashPassword S salt password = .ok hashed) (text : String) :
    verifyPassword S text hashed = true ↔ text = password := by
  unfold hashPassword at hHash
  split_ifs at hHash with hLong
  obtain rfl := Except.ok.inj hHash
  unfold verifyPassword isModernPasswordHash
  rw [hHashing.identify_hash, if_pos rfl]
  constructor
  · intro hVerify
    split_ifs at hVerify
    exact (hHashing.verify_hash salt password text).mp hVerify
  · rintro rfl
    rw [if_neg hLong]
    exact (hHashing.verify_hash salt text text).mpr rfl

/-- The hash as it was, or a new hash of a password that the old one accepts. -/
inductive Rehashed (S : Settings) (old : String) : String → Prop where
  | same : Rehashed S old old
  | again {salt : Nat} {password hashed : String} (hVerify : verifyPassword S password old = true)
      (hHash : hashPassword S salt password = .ok hashed) : Rehashed S old hashed

/-- Whoever asks for the rotation knows the password that it replaces, or has a reset
link for the version that it ends; the account is to accept this password. -/
inductive Authorised (S : Settings) (user : User) : Operation S → String → Prop where
  | changed (data : ChangePasswordRequest S)
      (hCurrent : verifyPassword S data.currentPassword user.hashedPassword = true) :
      Authorised S user (.changePassword data) data.newPassword
  | reset (data : PasswordResetConfirmBody S) (now : Time)
      (hLink : decodePasswordResetToken S now data.token = .ok (↑user.id, user.tokenVersion)) :
      Authorised S user (.passwordResetConfirm data) data.newPassword

/-- What a write of a session that serves the operation and holds the locks `held` makes
of the accounts. -/
inductive Writes (S : Settings) (operation : Operation S) (held : Held accounts) (b : Backend) :
    Event accounts → Backend → Prop where
  | memory {e : Event accounts} {b' : Backend} (hUsers : b'.users = b.users)
      (hEvent : ∀ process userId registered, e ≠ .commit (.rotation process userId registered)) :
      Writes S operation held b e b'
  | attempt {old new : User} (hHeld : held old.id = true) (hRow : b.users.get old.id = some old)
      (hId : new.id = old.id) (hHash : Rehashed S old.hashedPassword new.hashedPassword) :
      Writes S operation held b (.commit .none) (b.setUser new)
  | rotate {process registered salt : Nat} {old : User} {password hashed : String}
      (hHeld : held old.id = true) (hRow : b.users.get old.id = some old)
      (hAuthorised : Authorised S old operation password)
      (hHash : hashPassword S salt password = .ok hashed) :
      Writes S operation held b (.commit (.rotation process old.id registered))
        (b.setUser (old.rotate hashed))

def Numbered (b : Backend) : Prop := ∀ id row, b.users.get id = some row → row.id = id

/-- Writing a row keeps the rows under their numbers. -/
theorem Numbered.setUser {b : Backend} (h : Numbered b) (new : User) : Numbered (b.setUser new) := by
  intro id row hRow
  by_cases hId : id = new.id
  · subst hId
    obtain ⟨_, _, rfl⟩ : ∃ old, b.users.get new.id = some old ∧ new = row := by
      simpa [Backend.setUser] using hRow
    rfl
  · exact h id row ((b.get_setUser_other hId).symm.trans hRow)

/-- Every write keeps the rows under their numbers. -/
theorem Numbered.writes {operation : Operation S} {held : Held accounts} {b b' : Backend}
    {e : Event accounts} (h : Numbered b) (hWrites : Writes S operation held b e b') :
    Numbered b' := by
  cases hWrites with
  | memory hUsers =>
      intro id row hRow
      exact h id row (hUsers ▸ hRow)
  | attempt => exact h.setUser _
  | rotate => exact h.setUser _

def rules (S : Settings) : Discipline accounts where
  ok _ _ _ := True
  inv := Numbered
  may held b b' := ∃ operation e, Writes S operation held b e b'
  inv_may h hMay := by
    obtain ⟨operation, e, hWrites⟩ := hMay
    exact h.writes hWrites
  may_observe {_ _ _ t} _ _ _ :=
    ⟨.notificationsWebsocket ⟨0, none, 0, false⟩, .clock .none t, .memory rfl nofun⟩

def promise (S : Settings) (operation : Operation S) : (rules S).Promise where
  does e held b b' := Writes S operation held b e b'
  may_of_does hWrites := ⟨operation, _, hWrites⟩

def discipline (S : Settings) (operation : Operation S) : Discipline accounts :=
  (rules S).promising (promise S operation)

section Effects

variable {operation : Operation S} {held : Held accounts} {b b' : Backend} {row : User} {α : Type}

/-- The holder of a row finds it as it was. -/
theorem locked_rely (h : UserLocked held row b) (hRely : (discipline S operation).Rely held b b') :
    UserLocked held row b' := by
  refine ⟨h.held, hRely.lift (r := fun (b b' : Backend) => b.users.get row.id = some row →
    b'.users.get row.id = some row) (fun _ h => h) (fun h h' => h' ∘ h) ?_ h.row⟩
  rintro d d' ⟨other, hDisjoint, _, _, e, hWrites⟩ hRow
  have hOther {old new : User} (hOld : other old.id = true) (hId : new.id = old.id) :
      row.id ≠ new.id := by
    intro hSame
    have hFree := hDisjoint row.id h.held
    rw [hSame, hId, hOld] at hFree
    cases hFree
  cases hWrites with
  | memory hUsers => rwa [hUsers]
  | attempt hOld _ hId => exact (d.get_setUser_other (hOther hOld hId)).trans hRow
  | @rotate _ _ _ old _ hashed hOld =>
      have hId : (old.rotate hashed).id = old.id := rfl
      exact (d.get_setUser_other (hOther hOld hId)).trans hRow

theorem wp_query {select : Backend → α} {post : α → Held accounts → Backend → Prop}
    (h : ∀ b', (discipline S operation).Rely held b b' → Numbered b' → post (select b') held b') :
    (discipline S operation).wp (query select) held post b :=
  fun b' hRely hNumbered _ => h b' hRely hNumbered

theorem wp_utcnow {post : Time → Held accounts → Backend → Prop}
    (h : ∀ b' t, (discipline S operation).Rely held b b' → post t held b') :
    (discipline S operation).wp utcnow held post b :=
  fun b' t hRely _ _ _ => h b' t hRely

/-- The rule of locking a user by number: the row is held if there is one. -/
theorem wp_selectUserForUpdate {userId : ℤ} {post : Option User → Held accounts → Backend → Prop}
    (hNone : ∀ b' held', post none held' b')
    (hSome : ∀ b' held' row, userId = row.id → UserLocked held' row b' → post (some row) held' b') :
    (discipline S operation).wp (selectUserForUpdate userId) held post b := by
  intro b' _ hNumbered _
  show post (b'.userById userId) _ b'
  cases hRow : b'.userById userId with
  | none => exact hNone b' _
  | some row =>
      have hId : userId = row.id := by
        cases userId with
        | ofNat id => exact congrArg Int.ofNat (hNumbered id row hRow).symm
        | negSucc id => cases hRow
      subst hId
      exact hSome b' _ row rfl
        ⟨held.grant_self (by simpa using Option.isSome_of_eq_some hRow), hRow⟩

/-- The rule of locking a user by name: the row is held if there is one. -/
theorem wp_selectUsernameForUpdate {username : String}
    {post : Option User → Held accounts → Backend → Prop}
    (hNone : ∀ b' held', post none held' b')
    (hSome : ∀ b' held' row, UserLocked held' row b' → post (some row) held' b') :
    (discipline S operation).wp (selectUsernameForUpdate username) held post b := by
  unfold selectUsernameForUpdate
  rw [Discipline.wp_bind]
  apply wp_query
  intro b₁ _ _
  cases b₁.userByUsername username with
  | none => exact hNone b₁ held
  | some found =>
      dsimp only
      rw [Discipline.wp_bind]
      refine wp_selectUserForUpdate hNone fun b' held' row _ hLocked => ?_
      rw [Discipline.wp_pure]
      cases hName : (some row).filter fun row => row.username = username with
      | none => exact hNone b' held'
      | some found =>
          obtain rfl := Option.some.inj (Option.filter_eq_some_iff.mp hName).1
          exact hSome b' held' row hLocked

/-- The rule of a commit: it must be one of the writes of the operation, and
the locks are gone after it. -/
theorem wp_commit {note : Note} {write : Backend → Backend}
    {post : Unit → Held accounts → Backend → Prop}
    (hWrites : ∀ b', (discipline S operation).Rely held b b' →
      Writes S operation held b' (.commit note) (write b'))
    (hPost : ∀ b', post () Held.none b') :
    (discipline S operation).wp (commit note write) held post b :=
  fun b' hRely _ => ⟨fun _ => ⟨hWrites b' hRely, hPost _⟩, trivial⟩

/-- A change of the process's memory. -/
theorem wp_update {note : Note} {write : Backend → Backend}
    {post : Unit → Held accounts → Backend → Prop} (hUsers : ∀ b, (write b).users = b.users)
    (hPost : ∀ b', (discipline S operation).Rely held b b' → post () held (write b')) :
    (discipline S operation).wp (update note write) held post b :=
  fun b' hRely _ _ => ⟨.memory (hUsers b') nofun, hPost b' hRely⟩

end Effects

section Operations

variable {operation : Operation S} {held : Held accounts} {b : Backend}

/-- A write of the columns that `login` changes. -/
theorem writes_attempt {old new : User} (h : UserLocked held old b) (hId : new.id = old.id)
    (hHash : Rehashed S old.hashedPassword new.hashedPassword) :
    Writes S operation held b (.commit .none) (b.flushUser old new) := by
  rw [Backend.flushUser_eq h.row hId]
  exact .attempt h.held h.row hId hHash

/-- A login writes a new hash only of the password it verified. -/
theorem rehashed_of_login {salt : Nat} {password old new : String}
    (hVerify : verifyPassword S password old = true) (hNew : rehash S salt password old = .ok new) :
    Rehashed S old new := by
  unfold rehash at hNew
  split_ifs at hNew
  · exact .again hVerify hNew
  · exact Except.ok.inj hNew ▸ .same

theorem login_safe (data : UserLogin) :
    (discipline S operation).wp (login S data) Held.none (fun _ _ _ => True) b := by
  unfold login
  rw [Discipline.wp_bind]
  apply wp_selectUsernameForUpdate (fun _ _ => by simp)
  intro b₁ held dbUser hLocked₁
  rw [Discipline.wp_bind, Discipline.wp_orRaise]
  rintro _ ⟨⟩
  rw [Discipline.wp_bind]
  apply wp_utcnow
  intro b₂ now hRely₂
  have hLocked₂ := locked_rely hLocked₁ hRely₂
  rw [Discipline.wp_bind, Discipline.wp_raiseIf]
  intro _
  cases hVerify : verifyPassword S data.password dbUser.hashedPassword with
  | false =>
      rw [Bool.not_false, if_pos rfl, Discipline.wp_bind]
      exact wp_commit (fun b₃ hRely₃ => writes_attempt (locked_rely hLocked₂ hRely₃) rfl .same)
        fun _ => trivial
  | true =>
      rw [Bool.not_true, if_neg Bool.false_ne_true, Discipline.wp_bind, Discipline.wp_ofExcept]
      intro hashedPassword hRehash
      rw [Discipline.wp_bind]
      refine wp_commit (fun b₃ hRely₃ => writes_attempt (locked_rely hLocked₂ hRely₃) rfl
        (rehashed_of_login hVerify hRehash)) fun b₃ => ?_
      rw [Discipline.wp_bind]
      intro b₄ _ _ _
      rw [Discipline.wp_orRaise]
      intro refreshed _
      rw [Discipline.wp_bind]
      apply wp_utcnow
      intro b₅ issued _
      rw [Discipline.wp_bind]
      exact wp_update (fun _ => rfl) fun _ _ => trivial

theorem wp_closeEach {process : Nat} {userId : UserId} {sockets : List Socket} {row : User}
    {post : Unit → Held accounts → Backend → Prop} (hLocked : UserLocked held row b)
    (hPost : ∀ b', UserLocked held row b' → post () held b') :
    (discipline S operation).wp (closeEach process userId sockets) held post b := by
  induction sockets generalizing b with
  | nil => exact hPost b hLocked
  | cons ws rest ih =>
      rw [closeEach, Discipline.wp_bind]
      refine wp_update (fun _ => rfl) fun b' hRely => ?_
      have hLocked' := locked_rely hLocked hRely
      exact ih ⟨hLocked'.held, hLocked'.row⟩

/-- Invalidating the sessions rotates the copy that was locked. -/
theorem wp_invalidateUserSessions {process : Nat} {row : User} (hLocked : UserLocked held row b)
    (hashedPassword : String) {post : User × Nat → Held accounts → Backend → Prop}
    (hPost : ∀ b' registered, UserLocked held row b' →
      post (row.rotate hashedPassword, registered) held b') :
    (discipline S operation).wp
      (invalidateUserSessions process { row with hashedPassword := hashedPassword }) held post b := by
  unfold invalidateUserSessions
  rw [Discipline.wp_bind]
  apply wp_query
  intro b₁ hRely₁ _
  dsimp only
  rw [Discipline.wp_bind]
  exact wp_closeEach (locked_rely hLocked hRely₁) fun b' hLocked' => hPost b' _ hLocked'

/-- The locked account is rotated, by whoever may, to a hash of the new password. -/
theorem wp_commitRotation {process registered salt : Nat} {row : User} {password hashed : String}
    (hLocked : UserLocked held row b) (hAuthorised : Authorised S row operation password)
    (hHash : hashPassword S salt password = .ok hashed)
    {post : Unit → Held accounts → Backend → Prop} (hPost : ∀ b', post () Held.none b') :
    (discipline S operation).wp (commitRotation process row (row.rotate hashed) registered) held
      post b := by
  refine wp_commit (fun b' hRely => ?_) hPost
  have hLocked' := locked_rely hLocked hRely
  have hId : (row.rotate hashed).id = row.id := rfl
  rw [Backend.flushUser_eq hLocked'.row hId]
  exact .rotate hLocked'.held hLocked'.row hAuthorised hHash

theorem wp_rotationReturns {process : Nat} {rotated : User} :
    (discipline S operation).wp (rotationReturns process rotated) held (fun _ _ _ => True) b :=
  wp_update (fun _ => rfl) fun _ _ => trivial

/-- A password change keeps the contract: the old password is verified on the
locked row. -/
theorem changePassword_safe (process : Nat) (data : ChangePasswordRequest S) :
    (discipline S (.changePassword data)).wp (changePassword S process data) Held.none
      (fun _ _ _ => True) b := by
  unfold changePassword
  rw [Discipline.wp_bind]
  apply wp_utcnow
  intro b₁ now _
  rw [Discipline.wp_bind]
  apply wp_query
  intro b₂ _ _
  rw [Discipline.wp_bind, Discipline.wp_ofExcept]
  intro currentUser _
  rw [Discipline.wp_bind]
  apply wp_selectUserForUpdate (fun _ _ => by simp)
  intro b₃ held locked _ hLocked₃
  rw [Discipline.wp_bind, Discipline.wp_orRaise]
  rintro _ ⟨⟩
  rw [Discipline.wp_bind, Discipline.wp_raiseIf]
  intro hVerify
  have hAuthorised : Authorised S locked (.changePassword data) data.newPassword :=
    .changed data (by simpa using hVerify)
  rw [Discipline.wp_bind, Discipline.wp_ofExcept]
  intro hashedPassword hHash
  rw [Discipline.wp_bind]
  apply wp_invalidateUserSessions hLocked₃
  intro b₄ registered hLocked₄
  dsimp only
  rw [Discipline.wp_bind]
  apply wp_commitRotation hLocked₄ hAuthorised hHash
  intro b₅
  rw [Discipline.wp_bind]
  apply wp_utcnow
  intro b₆ issued _
  rw [Discipline.wp_bind]
  exact wp_rotationReturns

/-- A password reset keeps the contract: its link is checked against the locked
row. -/
theorem passwordResetConfirm_safe (process : Nat) (data : PasswordResetConfirmBody S) :
    (discipline S (.passwordResetConfirm data)).wp (passwordResetConfirm S process data) Held.none
      (fun _ _ _ => True) b := by
  unfold passwordResetConfirm
  rw [Discipline.wp_bind]
  apply wp_utcnow
  intro b₁ now _
  rw [Discipline.wp_bind, Discipline.wp_ofExcept]
  rintro ⟨userId, claimedTv⟩ hDecode
  dsimp only
  rw [Discipline.wp_bind]
  apply wp_selectUserForUpdate (fun _ _ => by simp)
  intro b₂ held user hId hLocked₂
  rw [Discipline.wp_bind, Discipline.wp_orRaise]
  rintro _ ⟨⟩
  rw [Discipline.wp_bind, Discipline.wp_raiseIf, not_not]
  intro hClaimed
  rw [hId, hClaimed] at hDecode
  have hAuthorised : Authorised S user (.passwordResetConfirm data) data.newPassword :=
    .reset data now hDecode
  rw [Discipline.wp_bind, Discipline.wp_ofExcept]
  intro hashedPassword hHash
  rw [Discipline.wp_bind]
  apply wp_invalidateUserSessions hLocked₂
  intro b₃ registered hLocked₃
  dsimp only
  rw [Discipline.wp_bind]
  exact wp_commitRotation hLocked₃ hAuthorised hHash fun _ => wp_rotationReturns

theorem notificationsWebsocket_safe (process : Nat) (handshake : Handshake S) :
    (discipline S operation).wp (notificationsWebsocket S process handshake) Held.none
      (fun _ _ _ => True) b := by
  unfold notificationsWebsocket
  cases handshake.token with
  | none => trivial
  | some token =>
      dsimp only
      rw [Discipline.wp_bind]
      apply wp_utcnow
      intro b₁ now _
      rw [Discipline.wp_bind]
      apply wp_query
      intro b₂ _ _
      cases admitSocket S now token handshake.userId b₂.userById with
      | none => trivial
      | some user =>
          dsimp only
          rw [Discipline.wp_bind]
          refine wp_update (fun _ => rfl) fun _ _ => ?_
          split_ifs
          · trivial
          · exact wp_update (fun _ => rfl) fun _ _ => trivial

theorem handleIn_safe (request : Nat × Operation S) :
    (discipline S request.2).Safe (handleIn S request) Held.none b := by
  obtain ⟨process, operation⟩ := request
  cases operation with
  | login data => exact (Discipline.wp_bind _ _ _ _ _ _).mpr (login_safe data)
  | changePassword data =>
      exact (Discipline.wp_bind _ _ _ _ _ _).mpr (changePassword_safe process data)
  | passwordResetConfirm data => exact passwordResetConfirm_safe process data
  | notificationsWebsocket handshake => exact notificationsWebsocket_safe process handshake

end Operations

def lastRotation (rotations : List (RotationCommit S)) (id : UserId) : Option (RotationCommit S) :=
  (rotations.filter (·.user.id = id)).getLast?

/-- Where the hash of an account comes from: the row the run started with, or the last
rotation, by way of any number of logins. -/
inductive Origin (S : Settings) (initial : Option User) (hashedPassword : String) :
    Option (RotationCommit S) → Prop where
  | registered (old : User) (hInitial : initial = some old)
      (hHash : Rehashed S old.hashedPassword hashedPassword) :
      Origin S initial hashedPassword none
  | rotated (r : RotationCommit S) (salt : Nat) (password : String)
      (hAuthorised : Authorised S r.user r.operation password)
      (hHash : hashPassword S salt password = .ok hashedPassword) :
      Origin S initial hashedPassword (some r)

/-- A login stores a hash of the password there is. -/
theorem Origin.rehashed (hHashing : Lawful S.hashing) {initial : Option User} {old new : String}
    {last : Option (RotationCommit S)} (h : Origin S initial old last) (hNew : Rehashed S old new) :
    Origin S initial new last := by
  cases hNew with
  | same => exact h
  | again hVerify hHash =>
      cases h with
      | registered row hInitial hOld =>
          cases hOld with
          | same => exact .registered row hInitial (.again hVerify hHash)
          | again hVerified hHashed =>
              obtain rfl := (verifyPassword_hash hHashing hHashed _).mp hVerify
              exact .registered row hInitial (.again hVerified hHash)
      | rotated r salt password hAuthorised hHashed =>
          obtain rfl := (verifyPassword_hash hHashing hHashed _).mp hVerify
          exact .rotated r _ _ hAuthorised hHash

structure Lineage (start : Backend) (s : Rotating S) : Prop where
  origin : ∀ id row, s.1.db.users.get id = some row →
    Origin S (start.users.get id) row.hashedPassword (lastRotation s.2.rotations id)
  authorised : ∀ r ∈ s.2.rotations, ∃ password, Authorised S r.user r.operation password

theorem lastRotation_append (rotations : List (RotationCommit S)) (r : RotationCommit S)
    (id : UserId) : lastRotation (rotations ++ [r]) id =
      if r.user.id = id then some r else lastRotation rotations id := by
  unfold lastRotation
  split_ifs with hId <;> simp [hId]

/-- A step that commits no rotation. -/
theorem Lineage.kept {start : Backend} {s : Rotating S} {c' : Config accounts}
    {a : Action accounts (Nat × Operation S)} (h : Lineage start s)
    (hNone : rotates s.2.requests s.1 a = none)
    (hOrigin : ∀ id row, c'.db.users.get id = some row →
      ∃ old, s.1.db.users.get id = some old ∧ ∀ last, Origin S (start.users.get id)
        old.hashedPassword last → Origin S (start.users.get id) row.hashedPassword last) :
    Lineage start (c', s.2.record s.1 a c') := by
  have hRotations : (s.2.record s.1 a c').rotations = s.2.rotations := by
    simp [History.record, hNone]
  constructor
  · intro id row hRow
    obtain ⟨old, hOld, hSame⟩ := hOrigin id row hRow
    rw [hRotations]
    exact hSame _ (h.origin id old hOld)
  · rw [hRotations]
    exact h.authorised

/-- A step that commits no rotation and writes no user keeps the lineage. -/
theorem Lineage.unchanged {start : Backend} {s : Rotating S} {c' : Config accounts}
    {a : Action accounts (Nat × Operation S)} (h : Lineage start s)
    (hNone : rotates s.2.requests s.1 a = none) (hUsers : c'.db.users = s.1.db.users) :
    Lineage start (c', s.2.record s.1 a c') :=
  h.kept hNone fun _ row hRow => ⟨row, hUsers ▸ hRow, fun _ h => h⟩

/-- A login stores the columns of the account. -/
theorem Lineage.rehashed (hHashing : Lawful S.hashing) {start : Backend} {s : Rotating S}
    {c' : Config accounts} {a : Action accounts (Nat × Operation S)} {old new : User}
    (h : Lineage start s) (hNone : rotates s.2.requests s.1 a = none)
    (hRow : s.1.db.users.get old.id = some old) (hId : new.id = old.id)
    (hHash : Rehashed S old.hashedPassword new.hashedPassword)
    (hDb : c'.db = s.1.db.setUser new) : Lineage start (c', s.2.record s.1 a c') := by
  refine h.kept hNone fun id row hStored => ?_
  rw [hDb] at hStored
  by_cases hSame : id = new.id
  · subst hSame
    rw [Backend.get_setUser_self (hId ▸ hRow)] at hStored
    obtain rfl := Option.some.inj hStored
    exact ⟨old, hId ▸ hRow, fun _ hOrigin => hOrigin.rehashed hHashing hHash⟩
  · exact ⟨row, (Backend.get_setUser_other _ hSame).symm.trans hStored, fun _ h => h⟩

/-- A rotation is recorded, and with it where the new hash comes from. -/
theorem Lineage.rotated {start : Backend} {s : Rotating S} {c' : Config accounts}
    {a : Action accounts (Nat × Operation S)} {operation : Operation S} {old : User} {salt : Nat}
    {password hashed : String} (h : Lineage start s)
    (hRecorded : (s.2.record s.1 a c').rotations = s.2.rotations ++ [⟨operation, old⟩])
    (hRow : s.1.db.users.get old.id = some old) (hAuthorised : Authorised S old operation password)
    (hHash : hashPassword S salt password = .ok hashed)
    (hDb : c'.db = s.1.db.setUser (old.rotate hashed)) :
    Lineage start (c', s.2.record s.1 a c') := by
  constructor
  · intro id row hStored
    replace hStored : c'.db.users.get id = some row := hStored
    rw [hRecorded, lastRotation_append]
    rw [hDb] at hStored
    split_ifs with hSame
    · subst hSame
      have hOld : s.1.db.users.get (old.rotate hashed).id = some old := hRow
      obtain rfl := Option.some.inj ((Backend.get_setUser_self hOld).symm.trans hStored)
      exact .rotated _ salt password hAuthorised hHash
    · have hOther : id ≠ (old.rotate hashed).id := fun hEq => hSame hEq.symm
      exact h.origin id row ((Backend.get_setUser_other _ hOther).symm.trans hStored)
  · intro r hMem
    rw [hRecorded] at hMem
    rcases List.mem_append.mp hMem with hOld | hNew
    · exact h.authorised r hOld
    · obtain rfl := List.mem_singleton.mp hNew
      exact ⟨password, hAuthorised⟩

section Rotates

variable {requests : Nat → Option (Nat × Operation S)} {c : Config accounts}
  {a : Action accounts (Nat × Operation S)} {sid : Nat}

theorem rotates_commit {note : Note} (hWritten : written c a = some (sid, .commit note))
    (hNote : ∀ process userId registered, note ≠ .rotation process userId registered) :
    rotates requests c a = none := by
  rw [rotates, hWritten]
  cases note with
  | rotation process userId registered => exact absurd rfl (hNote process userId registered)
  | _ => rfl

/-- A commit of a rotation is one of the user it names, for the request that is
served. -/
theorem rotates_rotation {process registered : Nat} {user : User} {request : Nat × Operation S}
    (hWritten : written c a = some (sid, .commit (.rotation process user.id registered)))
    (hRequest : requests sid = some request) (hRow : c.db.users.get user.id = some user) :
    rotates requests c a = some ⟨request.2, user⟩ := by
  rw [rotates, hWritten]
  simp [hRequest, hRow]

end Rotates

/-- The step lemma: a rotation is authorised and sets the password, and any other step
stores at most another hash of it. -/
theorem Lineage.step (hHashing : Lawful S.hashing) {start : Backend} {s : Rotating S}
    {c' : Config accounts} {a : Action accounts (Nat × Operation S)} (h : Lineage start s)
    (hOutcome : (rules S).Outcome (fun request : Nat × Operation S => promise S request.2)
      s.2.requests s.1 c' a) : Lineage start (c', s.2.record s.1 a c') := by
  cases hOutcome with
  | quiet hSame hWritten => exact h.unchanged (by simp [rotates, hWritten]) (by rw [hSame])
  | @observed sid time note hEvent hDb => exact h.unchanged rfl (by rw [hDb])
  | @updated sid note request hWritten _ hDoes =>
      have hNone : rotates s.2.requests s.1 (.step sid) = none := by rw [rotates, hWritten]
      cases hDoes with
      | memory hUsers => exact h.unchanged hNone hUsers
  | @committed sid note request hWritten hRequest hDoes =>
      replace hDoes : Writes S request.2 (s.1.held sid) s.1.db (.commit note) c'.db := hDoes
      generalize hDb : c'.db = b' at hDoes
      cases hDoes with
      | memory hUsers hEvent =>
          refine h.unchanged (rotates_commit hWritten ?_) (hDb ▸ hUsers)
          intro process userId registered hNote
          exact hEvent process userId registered (congrArg _ hNote)
      | attempt _ hRow hId hHash =>
          have hNone : rotates s.2.requests s.1 (.step sid) = none := by
            apply rotates_commit hWritten
            intro process userId registered hNote
            cases hNote
          exact h.rehashed hHashing hNone hRow hId hHash hDb
      | rotate _ hRow hAuthorised hHash =>
          refine h.rotated ?_ hRow hAuthorised hHash hDb
          simp [History.record, rotates_rotation hWritten hRequest hRow]

theorem lineage_initial (rows : List User) :
    Lineage (Backend.initial rows) (Rotating.initial (S := S) rows) where
  origin id row hRow := .registered row hRow .same
  authorised r hMem := by cases hMem

theorem numbered_initial (rows : List User) : Numbered (Backend.initial rows) :=
  (WellFormed.of_initial rows).userIds

/-- In every reachable state the stored hash descends from the last rotation. -/
theorem lineage_of_reaches (hHashing : Lawful S.hashing) {rows : List User} {s : Rotating S}
    (run : Reached (.initial rows) s) : Lineage (Backend.initial rows) s :=
  (Discipline.Valid.invariant (I := Lineage (Backend.initial rows)) (V := History.requests)
    (fun _ _ _ _ => rfl) (fun request _ _ => handleIn_safe request)
    (fun _ _ _ _ _ _ => trivial) (fun _ h _ hOutcome _ => h.step hHashing hOutcome)
    (.initial (numbered_initial rows)) (lineage_initial rows) run).2

/-- In every run of any number of processes: an account that was rotated accepts the
password of its last rotation and nothing else, and one that was not accepts nothing
that it did not accept at first, whatever logins have stored another hash meanwhile; and
each rotation was asked for with the password it replaced, or with a reset link for the
version it ended. -/
theorem password_in_force (hHashing : Lawful S.hashing) {rows : List User} {s : Rotating S}
    (run : Reached (.initial rows) s) :
    (∀ id row, s.1.db.users.get id = some row →
      match lastRotation s.2.rotations id with
      | some r => ∃ password, Authorised S r.user r.operation password ∧
          ∀ text, verifyPassword S text row.hashedPassword = true ↔ text = password
      | none => ∃ old, (Backend.initial rows).users.get id = some old ∧
          ∀ text, verifyPassword S text row.hashedPassword = true →
            verifyPassword S text old.hashedPassword = true) ∧
    ∀ r ∈ s.2.rotations, ∃ password, Authorised S r.user r.operation password := by
  have hLineage := lineage_of_reaches hHashing run
  refine ⟨fun id row hRow => ?_, hLineage.authorised⟩
  have hOrigin := hLineage.origin id row hRow
  generalize lastRotation s.2.rotations id = last at hOrigin
  generalize row.hashedPassword = hashed at hOrigin
  cases hOrigin with
  | registered old hInitial hHash =>
      refine ⟨old, hInitial, fun text hText => ?_⟩
      cases hHash with
      | same => exact hText
      | again hVerify hHashed =>
          obtain rfl := (verifyPassword_hash hHashing hHashed text).mp hText
          exact hVerify
  | rotated r salt password hAuthorised hHash =>
      exact ⟨password, hAuthorised, verifyPassword_hash hHashing hHash⟩

/-- Hashes in the open, with a mark that those of another scheme do not have. -/
def markedHashing : Hashing where
  hash _ password := "$" ++ password
  identify hashed := hashed.toList.head? = some '$'
  verify password hashed := hashed = "$" ++ password
  needsUpdate _ := false
  sha256 text := text

theorem markedHashing_lawful : Lawful markedHashing where
  identify_hash salt text := by simp [markedHashing]
  verify_hash salt text text' := by simp [markedHashing, String.append_right_inj, eq_comm]

/-- No mark is on the hashes that the table holds at first. -/
def upgradingSettings : Settings := ⟨plainJwt, markedHashing, "", []⟩

/-- A change of Alice's password waits for the login that replaces her hash. -/
def changeDuringLogin : List (Action accounts (Nat × Operation upgradingSettings)) :=
  [.start 1 (0, .login ⟨"alice", alicesPassword, 0⟩)] ++ steps 1 2 ++ [.clock 1 0] ++
    [.start 2 (1, .changePassword ⟨createUserAccessToken upgradingSettings 0 alice, alicesPassword,
      newPassword, 0⟩), .clock 2 0, .step 2] ++ steps 1 1 ++ steps 2 3

/-- Alice's account accepts the password she last chose, also after its hash
was upgraded. -/
theorem password_in_force_alice : ∃ s : Rotating upgradingSettings, ∃ row,
    s.2.rotations.map (·.user.hashedPassword) = ["$old password"] ∧
      s.1.db.users.get 1 = some row ∧ (∀ text,
        verifyPassword upgradingSettings text row.hashedPassword = true ↔ text = newPassword.val) ∧
      ∀ r ∈ s.2.rotations, ∃ password, Authorised upgradingSettings r.user r.operation password := by
  obtain ⟨s, run, hRotated, hLast, hAccepted⟩ := Runs.exists_reaches (rotating upgradingSettings)
    (fun _ _ => True) (.initial [alice]) changeDuringLogin
    (fun s => s.2.rotations.map (·.user.hashedPassword) = ["$old password"] ∧
      (lastRotation s.2.rotations 1).isSome = true ∧ (s.1.db.users.get 1).any (fun row =>
        verifyPassword upgradingSettings newPassword.val row.hashedPassword) = true) (by decide +kernel)
  obtain ⟨hInForce, hAuthorised⟩ := password_in_force markedHashing_lawful run
  obtain ⟨row, hRow, hNew⟩ := (Option.any_eq_true _ _).mp hAccepted
  obtain ⟨r, hRotation⟩ := Option.isSome_iff_exists.mp hLast
  have hPassword := hInForce 1 row hRow
  rw [hRotation] at hPassword
  obtain ⟨password, _, hOnly⟩ := hPassword
  obtain rfl := (hOnly _).mp hNew
  exact ⟨s, row, hRotated, hRow, hOnly, hAuthorised⟩

end OnlineAuction.Accounts.Passwords
