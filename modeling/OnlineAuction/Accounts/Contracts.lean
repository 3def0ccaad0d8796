import OnlineAuction.Accounts.Commits
import Mathlib.Data.List.Perm.Subperm

/-! Every operation on the accounts, run against any interference, takes only
the steps of `Commit`. -/

namespace OnlineAuction.Accounts

open RowLocks

variable {S : Settings} {A : Assumptions} {operation : Operation S}

/-- An account held by the session is as it was. Versions and the history only
grow, and a bucket only shrinks unless a socket is registered. -/
structure Kept (held : Held accounts) (b b' : Backend) : Prop where
  user : ∀ id row, held id = true → b.userById id = some row → b'.userById id = some row
  version : ∀ id row, b.users.get id = some row →
    ∃ row', b'.users.get id = some row' ∧ row.tokenVersion ≤ row'.tokenVersion
  credentials : ∀ credential ∈ b.credentials, credential ∈ b'.credentials
  registrations : ∀ p id, b.registrations p id ≤ b'.registrations p id
  bucket : ∀ p id, b'.registrations p id = b.registrations p id →
    (b'.userConnections p id).Subperm (b.userConnections p id)

namespace Kept

variable {held : Held accounts} {b b' b'' : Backend}

theorem refl (held : Held accounts) (b : Backend) : Kept held b b where
  user _ _ _ h := h
  version _ row h := ⟨row, h, le_rfl⟩
  credentials _ h := h
  registrations _ _ := le_rfl
  bucket _ _ _ := List.Subperm.refl _

theorem trans (h : Kept held b b') (h' : Kept held b' b'') : Kept held b b'' where
  user id row hHeld hRow := h'.user id row hHeld (h.user id row hHeld hRow)
  version id row hRow := by
    obtain ⟨middle, hMiddle, hLe⟩ := h.version id row hRow
    obtain ⟨last, hLast, hLe'⟩ := h'.version id middle hMiddle
    exact ⟨last, hLast, hLe.trans hLe'⟩
  credentials credential hMem := h'.credentials credential (h.credentials credential hMem)
  registrations p id := (h.registrations p id).trans (h'.registrations p id)
  bucket p id hSame := by
    have hFirst := h.registrations p id
    have hSecond := h'.registrations p id
    exact (h'.bucket p id (by omega)).trans (h.bucket p id (by omega))

/-- An account that the session does not hold, at the same or the next
version. -/
theorem of_setUser {old new : User} (hRow : b.users.get old.id = some old)
    (hHeld : held old.id = false) (hId : new.id = old.id)
    (hVersion : old.tokenVersion ≤ new.tokenVersion) : Kept held b (b.setUser new) where
  user id row hUserHeld hUser := by
    cases id with
    | ofNat id =>
        have hOther : id ≠ new.id := by
          rintro rfl
          rw [hId] at hUserHeld
          exact absurd (hHeld.symm.trans hUserHeld) (by simp)
        exact (b.get_setUser_other hOther).trans hUser
    | negSucc id => exact hUser
  version id row hUser := by
    by_cases hSame : id = new.id
    · subst hSame
      rw [hId, hRow, Option.some.injEq] at hUser
      subst hUser
      exact ⟨new, Backend.get_setUser_self (hId ▸ hRow), hVersion⟩
    · exact ⟨row, (b.get_setUser_other hSame).trans hUser, le_rfl⟩
  credentials _ hMem := List.mem_append_left _ hMem
  registrations _ _ := le_rfl
  bucket _ _ _ := List.Subperm.refl _

theorem of_connect (b : Backend) (process : Nat) (userId : ℤ) (socket : Socket) :
    Kept held b (b.connectUser process userId socket) where
  user _ _ _ h := h
  version _ row h := ⟨row, h, le_rfl⟩
  credentials _ h := h
  registrations p id := by
    simp only [Backend.connectUser]
    split_ifs <;> omega
  bucket p id hSame := by
    have hOther : ¬(p = process ∧ id = userId) := by
      intro hKey
      simp [Backend.connectUser, hKey] at hSame
    show (b.setBucket process userId _ p id).Subperm _
    rw [b.setBucket_other _ hOther]

theorem of_disconnect (b : Backend) (process : Nat) (socket : Socket) (userId : ℤ) :
    Kept held b (b.disconnectUser process socket userId) where
  user _ _ _ h := h
  version _ row h := ⟨row, h, le_rfl⟩
  credentials _ h := h
  registrations _ _ := le_rfl
  bucket p id _ := by
    show (b.setBucket process userId _ p id).Subperm _
    by_cases hKey : p = process ∧ id = userId
    · obtain ⟨rfl, rfl⟩ := hKey
      rw [b.setBucket_self]
      exact (List.erase_sublist (a := socket)).subperm
    · rw [b.setBucket_other _ hKey]

/-- What a step of another session keeps for the holder of `held`. -/
theorem of_commit {other : Held accounts} {e : Event accounts}
    (hCommit : Commit S A operation other b e b')
    (hDisjoint : ∀ key, held key = true → other key = false) : Kept held b b' := by
  have hNotHeld {key : ℤ} (h : other key = true) : held key = false := by
    by_contra hHeld
    have hFree := hDisjoint key (by simpa using hHeld)
    simp [h] at hFree
  cases hCommit with
  | idle => exact refl held b
  | attempt old new hHeld hRow hId hVersion =>
      exact of_setUser hRow (hNotHeld hHeld) hId hVersion.ge
  | loggedIn => exact { refl held b with }
  | rotate process registered old hashedPassword _ hHeld hRow =>
      exact of_setUser hRow (hNotHeld hHeld) rfl (by simp [User.rotate])
  | returned => exact { refl held b with }
  | connect process userId socket => exact of_connect b process userId socket
  | disconnect process socket userId => exact of_disconnect b process socket userId

end Kept

def rules (S : Settings) (A : Assumptions) : Discipline accounts where
  ok := A.ok
  inv := WellFormed
  may held b b' := ∃ operation e, Commit S A operation held b e b'
  inv_may h hMay := by
    obtain ⟨operation, e, hCommit⟩ := hMay
    exact h.commit hCommit
  may_observe {_ _ _ t} _ _ _ := ⟨.notificationsWebsocket ⟨0, none, 0, false⟩, _, .idle t⟩

def promise (S : Settings) (A : Assumptions) (operation : Operation S) : (rules S A).Promise where
  does e held b b' := Commit S A operation held b e b'
  may_of_does hCommit := ⟨operation, _, hCommit⟩

def discipline (S : Settings) (A : Assumptions) (operation : Operation S) : Discipline accounts :=
  (rules S A).promising (promise S A operation)

theorem Kept.reachedVersion {held : Held accounts} {b b' : Backend} (h : Kept held b b')
    {userId : UserId} {tokenVersion : ℤ} (hReached : ReachedVersion b userId tokenVersion) :
    ReachedVersion b' userId tokenVersion := by
  obtain ⟨row, hRow, hVersion⟩ := hReached
  obtain ⟨row', hRow', hLe⟩ := h.version userId row hRow
  exact ⟨row', hRow', hVersion.trans hLe⟩

/-- What the others do keeps held rows and versions. -/
theorem Kept.of_rely {held : Held accounts} {b b' : Backend}
    (h : (discipline S A operation).Rely held b b') : Kept held b b' :=
  h.lift (r := Kept held) (Kept.refl held) (fun h h' => h.trans h') fun hStep => by
    obtain ⟨_, hDisjoint, _, other, e, hCommit⟩ := hStep
    exact .of_commit hCommit hDisjoint

structure UserLocked (held : Held accounts) (row : User) (b : Backend) : Prop where
  held : held row.id = true
  row : b.users.get row.id = some row

/-- What a session knows of a user it holds stays true while the others run. -/
theorem UserLocked.rely {held : Held accounts} {row : User} {b b' : Backend}
    (h : UserLocked held row b) (hRely : (discipline S A operation).Rely held b b') :
    UserLocked held row b' :=
  ⟨h.held, (Kept.of_rely hRely).user row.id row h.held h.row⟩

/-- A user found by the value of a claim or of a path. -/
theorem WellFormed.id_of_userById {b : Backend} (h : WellFormed b) {userId : ℤ} {row : User}
    (hRow : b.userById userId = some row) : userId = row.id := by
  cases userId with
  | ofNat id => exact congrArg Int.ofNat (h.userIds id row hRow).symm
  | negSucc id => cases hRow

section Effects

variable {α : Type} {held : Held accounts} {b : Backend}

theorem wp_utcnow {post : Time → Held accounts → Backend → Prop}
    (h : ∀ b' t, (discipline S A operation).Rely held b b' → WellFormed b' → post t held b') :
    (discipline S A operation).wp utcnow held post b :=
  fun b' t hRely hWell _ _ => h b' t hRely hWell

theorem wp_query {select : Backend → α} {post : α → Held accounts → Backend → Prop}
    (h : ∀ b', (discipline S A operation).Rely held b b' → WellFormed b' → post (select b') held b') :
    (discipline S A operation).wp (query select) held post b :=
  fun b' hRely hWell _ => h b' hRely hWell

/-- The rule of locking a user by number: the row is held if there is one. -/
theorem wp_selectUserForUpdate {userId : ℤ} {post : Option User → Held accounts → Backend → Prop}
    (hNone : ∀ b' held', post none held' b')
    (hSome : ∀ b' held' row, (discipline S A operation).Rely held b b' → WellFormed b' →
      userId = row.id → UserLocked held' row b' → post (some row) held' b') :
    (discipline S A operation).wp (selectUserForUpdate userId) held post b := by
  intro b' hRely hWell _
  show post (b'.userById userId) _ b'
  cases hRow : b'.userById userId with
  | none => exact hNone b' _
  | some row =>
      have hId := hWell.id_of_userById hRow
      subst hId
      exact hSome b' _ row hRely hWell rfl
        ⟨held.grant_self (by simpa using Option.isSome_of_eq_some hRow), hRow⟩

/-- The rule of locking a user by name: the row is held if there is one. -/
theorem wp_selectUsernameForUpdate {username : String}
    {post : Option User → Held accounts → Backend → Prop}
    (hNone : ∀ b' held', post none held' b')
    (hSome : ∀ b' held' row, WellFormed b' → UserLocked held' row b' → post (some row) held' b') :
    (discipline S A operation).wp (selectUsernameForUpdate username) held post b := by
  unfold selectUsernameForUpdate
  rw [Discipline.wp_bind]
  apply wp_query
  intro b₁ _ _
  cases b₁.userByUsername username with
  | none => exact hNone b₁ held
  | some found =>
      dsimp only
      rw [Discipline.wp_bind]
      refine wp_selectUserForUpdate (fun b' held' => hNone b' held')
        fun b' held' row _ hWell _ hLocked => ?_
      rw [Discipline.wp_pure]
      by_cases hName : row.username = username
      · rw [Option.filter_some_pos (by simpa using hName)]
        exact hSome b' held' row hWell hLocked
      · rw [Option.filter_some_neg (by simpa using hName)]
        exact hNone b' held'

/-- The rule of a commit: it must be allowed, and the locks are gone after it. -/
theorem wp_commit {note : Note} {write : Backend → Backend}
    {post : Unit → Held accounts → Backend → Prop}
    (hMay : ∀ b', (discipline S A operation).Rely held b b' → WellFormed b' →
      A.ok b' held (.commit note) → Commit S A operation held b' (.commit note) (write b'))
    (hPost : ∀ b', (discipline S A operation).Rely held b b' → WellFormed (write b') →
      post () Held.none (write b')) :
    (discipline S A operation).wp (commit note write) held post b := by
  intro b' hRely hWell
  refine ⟨fun hOk => ?_, trivial⟩
  have hCommit := hMay b' hRely hWell hOk
  exact ⟨hCommit, hPost b' hRely (hWell.commit hCommit)⟩

/-- The rule of an uncommitted write: it must be allowed, and the locks stay. -/
theorem wp_update {note : Note} {write : Backend → Backend}
    {post : Unit → Held accounts → Backend → Prop}
    (hMay : ∀ b', (discipline S A operation).Rely held b b' → WellFormed b' →
      A.ok b' held (.update note) → Commit S A operation held b' (.update note) (write b'))
    (hPost : ∀ b', (discipline S A operation).Rely held b b' → WellFormed (write b') →
      post () held (write b')) :
    (discipline S A operation).wp (update note write) held post b := by
  intro b' hRely hWell hOk
  have hCommit := hMay b' hRely hWell hOk
  exact ⟨hCommit, hPost b' hRely (hWell.commit hCommit)⟩

/-- The rule of a refresh: the row may have been rewritten since it was loaded. -/
theorem wp_refresh {loaded : User} {post : User → Held accounts → Backend → Prop}
    (h : ∀ b' row, (discipline S A operation).Rely held b b' → WellFormed b' →
      (A.unrotated → row.tokenVersion = loaded.tokenVersion) → row.id = loaded.id →
      post row held b') :
    (discipline S A operation).wp (refresh loaded) held post b := by
  intro b' hRely hWell hOk
  show (discipline S A operation).wp (Prog.orRaise (b'.userById loaded.id) internalServerError) held post b'
  rw [Discipline.wp_orRaise]
  intro row hRow
  exact h b' row hRely hWell (fun hA => hOk.1 hA row hRow)
    (by exact_mod_cast (hWell.id_of_userById hRow).symm)

end Effects

/-- A write of the columns that `login` changes. -/
theorem UserLocked.attempt {held : Held accounts} {old new : User} {b : Backend}
    (h : UserLocked held old b) (hId : new.id = old.id)
    (hVersion : new.tokenVersion = old.tokenVersion) :
    Commit S A operation held b (.commit .none) (b.flushUser old new) := by
  rw [Backend.flushUser_eq h.row hId]
  exact .attempt old new h.held h.row hId hVersion

/-- The row minted for carries the version of the row verified, whose credential
is on record. -/
theorem inForce_of_credential {b : Backend} {verified refreshed : User} {password : String}
    (hCredential : verified.credential ∈ b.credentials)
    (hVerify : verifyPassword S password verified.hashedPassword = true)
    (hId : refreshed.id = verified.id) (hVersion : refreshed.tokenVersion = verified.tokenVersion) :
    InForce S b ⟨password, userAccessClaims refreshed⟩ := by
  intro k hTv
  have hk : refreshed.tokenVersion = k := by
    simpa [userAccessClaims, Payload.get, List.lookup_cons] using hTv
  refine ⟨verified.credential, hCredential, ?_, ?_, hVerify⟩
  · simp [userAccessClaims, Payload.get, User.credential, hId]
  · exact hVersion.symm.trans hk

theorem login_safe (data : UserLogin) {b : Backend} :
    (discipline S A (.login data)).wp (login S data) Held.none (fun _ _ _ => True) b := by
  unfold login
  rw [Discipline.wp_bind]
  apply wp_selectUsernameForUpdate (fun _ _ => by simp)
  intro b₁ held dbUser hWell₁ hLocked₁
  rw [Discipline.wp_bind, Discipline.wp_orRaise]
  rintro _ ⟨⟩
  rw [Discipline.wp_bind]
  apply wp_utcnow
  intro b₂ now hRely₂ hWell₂
  have hLocked₂ := hLocked₁.rely hRely₂
  rw [Discipline.wp_bind, Discipline.wp_raiseIf]
  intro _
  by_cases hVerify : verifyPassword S data.password dbUser.hashedPassword = true
  case neg =>
    rw [if_pos (by simpa using hVerify), Discipline.wp_bind]
    exact wp_commit (fun b₃ hRely₃ _ _ => (hLocked₂.rely hRely₃).attempt rfl rfl) fun _ _ _ => trivial
  rw [if_neg (by simp [hVerify]), Discipline.wp_bind]
  rw [Discipline.wp_ofExcept]
  intro hashedPassword _
  have hCredential₂ := hWell₂.credentials _ _ hLocked₂.row
  rw [Discipline.wp_bind]
  refine wp_commit (fun b₃ hRely₃ _ _ => (hLocked₂.rely hRely₃).attempt rfl rfl)
    fun b₃ hRely₃ _ => ?_
  have hCredential₃ : dbUser.credential ∈
      (b₃.flushUser dbUser (dbUser.successfulLogin hashedPassword)).credentials :=
    List.mem_append_left _ ((Kept.of_rely hRely₃).credentials _ hCredential₂)
  rw [Discipline.wp_bind]
  apply wp_refresh
  intro b₄ refreshed hRely₄ _ hVersion hId
  have hCredential₄ := (Kept.of_rely hRely₄).credentials _ hCredential₃
  rw [Discipline.wp_bind]
  apply wp_utcnow
  intro b₅ issued hRely₅ _
  have hCredential₅ := (Kept.of_rely hRely₅).credentials _ hCredential₄
  rw [Discipline.wp_bind]
  refine wp_update (fun b₆ hRely₆ _ _ => .loggedIn _ fun hA => ?_) fun _ _ _ => trivial
  exact inForce_of_credential ((Kept.of_rely hRely₆).credentials _ hCredential₅) hVerify hId
    (hVersion hA)

/-- Unless a socket is registered meanwhile, closing the copied sockets one by
one leaves at most those still to be closed. -/
theorem wp_closeEach {process registered : Nat} {sockets : List Socket} {row : User}
    {held : Held accounts} {b : Backend} {post : Unit → Held accounts → Backend → Prop}
    (hLocked : UserLocked held row b) (hSince : registered ≤ b.registrations process row.id)
    (hBucket : b.registrations process row.id = registered →
      (b.userConnections process row.id).Subperm sockets)
    (hPost : ∀ b', UserLocked held row b' → registered ≤ b'.registrations process row.id →
      (b'.registrations process row.id = registered → b'.userConnections process row.id = []) →
      post () held b') :
    (discipline S A operation).wp (closeEach process row.id sockets) held post b := by
  induction sockets generalizing b with
  | nil =>
      exact hPost b hLocked hSince fun hSame => List.subperm_nil.mp (hBucket hSame)
  | cons ws rest ih =>
      rw [closeEach, Discipline.wp_bind]
      apply wp_update (fun _ _ _ _ => .disconnect _ _ _)
      intro b' hRely _
      have hKept := Kept.of_rely hRely
      have hGrown := hKept.registrations process row.id
      have hLocked' := hLocked.rely hRely
      refine ih ⟨hLocked'.held, hLocked'.row⟩ (hSince.trans hGrown) fun hSame => ?_
      have hOld : b.registrations process row.id = registered := by
        change b'.registrations process row.id = registered at hSame
        omega
      have hRest : (b'.userConnections process row.id).Subperm (ws :: rest) :=
        (hKept.bucket process row.id (hSame.trans hOld.symm)).trans (hBucket hOld)
      show (b'.setBucket process row.id _ process row.id).Subperm rest
      rw [b'.setBucket_self]
      simpa using hRest.erase ws

/-- The bucket that a rotation closes is empty afterwards, unless a socket was
registered since it was copied. -/
theorem wp_invalidateUserSessions {process : Nat} {row : User} {held : Held accounts} {b : Backend}
    (hLocked : UserLocked held row b) (hashedPassword : String)
    {post : User × Nat → Held accounts → Backend → Prop}
    (hPost : ∀ b' registered, UserLocked held row b' →
      registered ≤ b'.registrations process row.id →
      (b'.registrations process row.id = registered → b'.userConnections process row.id = []) →
      post (row.rotate hashedPassword, registered) held b') :
    (discipline S A operation).wp
      (invalidateUserSessions process { row with hashedPassword := hashedPassword }) held post b := by
  unfold invalidateUserSessions
  dsimp only
  rw [Discipline.wp_bind]
  apply wp_query
  intro b₁ hRely₁ _
  dsimp only
  rw [Discipline.wp_bind]
  exact wp_closeEach (hLocked.rely hRely₁) le_rfl (fun _ => List.Subperm.refl _)
    fun b' hLocked' hSince hEmpty => hPost b' _ hLocked' hSince hEmpty

/-- The commit of a rotation, whose guard says that no socket was registered. -/
theorem wp_commitRotation {process registered : Nat} (hServes : A.serves process) {row : User}
    {held : Held accounts} {b : Backend} (hLocked : UserLocked held row b) (hashedPassword : String)
    (hSince : registered ≤ b.registrations process row.id)
    (hEmpty : b.registrations process row.id = registered →
      b.userConnections process row.id = [])
    (hConfirmed : Confirmed S operation row.id row.tokenVersion)
    {post : Unit → Held accounts → Backend → Prop}
    (hPost : ∀ b', ReachedVersion b' row.id (row.tokenVersion + 1) → post () Held.none b') :
    (discipline S A operation).wp (commitRotation process row (row.rotate hashedPassword) registered) held
      post b := by
  refine wp_commit (fun b' hRely _ hOk => ?_) fun b' hRely _ => hPost _ ?_
  · have hLocked' := hLocked.rely hRely
    have hKept := Kept.of_rely hRely
    rw [Backend.flushUser_eq hLocked'.row (by rfl : (row.rotate hashedPassword).id = row.id)]
    refine .rotate process registered row hashedPassword hServes hLocked'.held hLocked'.row
      (fun hA => ?_) hConfirmed
    have hNone : b'.registrations process row.id = registered := hOk.2 hA
    have hGrown := hKept.registrations process row.id
    have hOld : b.registrations process row.id = registered := by omega
    have hBucket := hKept.bucket process row.id (hNone.trans hOld.symm)
    rw [hEmpty hOld] at hBucket
    exact List.subperm_nil.mp hBucket
  · have hLocked' := hLocked.rely hRely
    rw [Backend.flushUser_eq hLocked'.row (by rfl : (row.rotate hashedPassword).id = row.id)]
    exact ⟨row.rotate hashedPassword, Backend.get_setUser_self hLocked'.row, le_rfl⟩

/-- The version a rotation returns with has been committed. -/
theorem wp_rotationReturns {process : Nat} {rotated : User} {held : Held accounts} {b : Backend}
    {post : Unit → Held accounts → Backend → Prop} (hPost : ∀ b', post () held b')
    (hReached : ReachedVersion b rotated.id rotated.tokenVersion) :
    (discipline S A operation).wp (rotationReturns process rotated) held post b :=
  wp_update (fun _ hRely _ _ => .returned _ ((Kept.of_rely hRely).reachedVersion hReached))
    fun _ _ _ => hPost _

theorem changePassword_safe {process : Nat} (hServes : A.serves process)
    (data : ChangePasswordRequest S) {b : Backend} :
    (discipline S A (.changePassword data)).wp (changePassword S process data) Held.none (fun _ _ _ => True) b := by
  unfold changePassword
  rw [Discipline.wp_bind]
  apply wp_utcnow
  intro b₁ now _ _
  rw [Discipline.wp_bind]
  apply wp_query
  intro b₂ _ _
  rw [Discipline.wp_bind, Discipline.wp_ofExcept]
  intro currentUser _
  rw [Discipline.wp_bind]
  apply wp_selectUserForUpdate (fun _ _ => by simp)
  intro b₃ held locked _ _ _ hLocked₃
  rw [Discipline.wp_bind, Discipline.wp_orRaise]
  rintro _ ⟨⟩
  rw [Discipline.wp_bind, Discipline.wp_raiseIf]
  intro _
  rw [Discipline.wp_bind, Discipline.wp_ofExcept]
  intro hashedPassword _
  rw [Discipline.wp_bind]
  refine wp_invalidateUserSessions hLocked₃ hashedPassword
    fun b₄ registered hLocked₄ hSince hEmpty => ?_
  dsimp only
  rw [Discipline.wp_bind]
  apply wp_commitRotation hServes hLocked₄ hashedPassword hSince hEmpty (fun _ h => by cases h)
  intro b₅ hReached
  rw [Discipline.wp_bind]
  apply wp_utcnow
  intro b₆ issued hRely₆ _
  rw [Discipline.wp_bind]
  exact wp_rotationReturns (fun _ => trivial) ((Kept.of_rely hRely₆).reachedVersion hReached)

theorem passwordResetConfirm_safe {process : Nat} (hServes : A.serves process)
    (data : PasswordResetConfirmBody S) {b : Backend} :
    (discipline S A (.passwordResetConfirm data)).Safe (passwordResetConfirm S process data)
      Held.none b := by
  unfold Discipline.Safe passwordResetConfirm
  rw [Discipline.wp_bind]
  apply wp_utcnow
  intro b₁ now _ _
  rw [Discipline.wp_bind, Discipline.wp_ofExcept]
  rintro ⟨userId, claimedTv⟩ hDecode
  dsimp only
  rw [Discipline.wp_bind]
  apply wp_selectUserForUpdate (fun _ _ => by simp)
  intro b₂ held user _ _ hId hLocked₂
  rw [Discipline.wp_bind, Discipline.wp_orRaise]
  rintro _ ⟨⟩
  rw [Discipline.wp_bind, Discipline.wp_raiseIf, not_not]
  intro hClaimed
  rw [hId, hClaimed] at hDecode
  rw [Discipline.wp_bind, Discipline.wp_ofExcept]
  intro hashedPassword _
  rw [Discipline.wp_bind]
  refine wp_invalidateUserSessions hLocked₂ hashedPassword
    fun b₃ registered hLocked₃ hSince hEmpty => ?_
  dsimp only
  rw [Discipline.wp_bind]
  have hConfirmed : Confirmed S (.passwordResetConfirm data) user.id user.tokenVersion := by
    rintro _ ⟨⟩
    exact ⟨now, hDecode⟩
  exact wp_commitRotation hServes hLocked₃ hashedPassword hSince hEmpty hConfirmed
    fun b₄ hReached => wp_rotationReturns (fun _ => trivial) hReached

/-- A socket is admitted only for a user who is stored. -/
theorem admitSocket_row {now : Time} {token : S.jwt.Token} {userId : ℤ}
    {users : ℤ → Option User} {row : User}
    (h : admitSocket S now token userId users = some row) : users userId = some row := by
  unfold admitSocket at h
  cases hDecode : decodeToken S now token with
  | error e => simp [hDecode] at h
  | ok payload =>
      rw [hDecode] at h
      dsimp only at h
      split_ifs at h
      cases hRow : users userId with
      | none => simp [hRow] at h
      | some found =>
          rw [hRow] at h
          dsimp only at h
          split_ifs at h
          exact h

/-- A handshake keeps the contract: the socket is registered as admitted. -/
theorem notificationsWebsocket_safe {process : Nat} (hServes : A.serves process)
    (handshake : Handshake S) {b : Backend} :
    (discipline S A (.notificationsWebsocket handshake)).Safe
      (notificationsWebsocket S process handshake) Held.none b := by
  unfold Discipline.Safe notificationsWebsocket
  cases handshake.token with
  | none => trivial
  | some token =>
      dsimp only
      rw [Discipline.wp_bind]
      apply wp_utcnow
      intro b₁ now _ _
      rw [Discipline.wp_bind]
      apply wp_query
      intro b₂ _ hWell₂
      cases hAdmit : admitSocket S now token handshake.userId b₂.userById with
      | none => trivial
      | some user =>
          dsimp only
          have hRow₂ : b₂.userById handshake.userId = some user := admitSocket_row hAdmit
          rw [Discipline.wp_bind]
          refine wp_update (fun b₃ hRely₃ _ hOk => ?_) fun b₃ _ _ => ?_
          · have hId := hWell₂.id_of_userById hRow₂
            rw [hId] at hRow₂
            obtain ⟨row, hRow₃, _⟩ := (Kept.of_rely hRely₃).version user.id user hRow₂
            rw [← Backend.userById_natCast, ← hId] at hRow₃
            exact .connect process handshake.userId ⟨handshake.websocket, user.tokenVersion⟩ hServes
              row hRow₃ fun hA => hOk.2 hA row hRow₃
          · split_ifs
            · trivial
            · exact wp_update (fun _ _ _ _ => .disconnect _ _ _) fun _ _ _ => trivial

theorem handle_safe {process : Nat} (hServes : A.serves process) (operation : Operation S)
    {b : Backend} : (discipline S A operation).Safe (handle S process operation) Held.none b := by
  cases operation with
  | login data => exact (Discipline.wp_bind _ _ _ _ _ _).mpr (login_safe data)
  | changePassword data =>
      exact (Discipline.wp_bind _ _ _ _ _ _).mpr (changePassword_safe hServes data)
  | passwordResetConfirm data => exact passwordResetConfirm_safe hServes data
  | notificationsWebsocket handshake => exact notificationsWebsocket_safe hServes handshake

/-- Whatever the operation, its session keeps the rules. -/
theorem keeps_rules {process : Nat} (hServes : A.serves process) (operation : Operation S)
    {b : Backend} : (rules S A).Safe (handle S process operation) Held.none b :=
  Discipline.wp_of_promising (promise S A operation).may_of_does (handle_safe hServes operation)

end OnlineAuction.Accounts
