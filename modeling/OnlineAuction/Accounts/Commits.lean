import OnlineAuction.Accounts.Handlers
import OnlineAuction.Library.Contracts

/-! What one step of a session does to the accounts, and what the row lock of
an account protects while the other sessions step. -/

namespace OnlineAuction.Accounts

open RowLocks

namespace Backend

def setUser (b : Backend) (new : User) : Backend :=
  { b with
    users := b.users.modify new.id fun _ => new
    credentials := b.credentials ++ [new.credential] }

@[simp] theorem userById_natCast (b : Backend) (id : Nat) : b.userById id = b.users.get id := rfl

/-- Flushing all columns of a copy is writing its row. -/
theorem flushUser_eq {b : Backend} {loaded changed : User}
    (hRow : b.users.get loaded.id = some loaded) (hId : changed.id = loaded.id) :
    b.flushUser loaded changed = b.setUser changed := by
  have hUsers : b.users.modify loaded.id (User.flush loaded changed) =
      b.users.modify changed.id fun _ => changed := by
    rw [Table.modify_const hRow, User.flush_loaded loaded changed hId, hId]
  have hGet : (b.users.modify changed.id fun _ => changed).get loaded.id = some changed := by
    simp [hId, hRow]
  unfold flushUser setUser
  rw [hUsers]
  dsimp only
  rw [hGet]
  rfl

theorem get_setUser_self {b : Backend} {new row : User} (hRow : b.users.get new.id = some row) :
    (b.setUser new).users.get new.id = some new := by
  simp [setUser, hRow]

theorem get_setUser_other (b : Backend) {new : User} {id : UserId} (hId : id ≠ new.id) :
    (b.setUser new).users.get id = b.users.get id :=
  Table.get_modify_other _ _ hId

@[simp] theorem setBucket_self (b : Backend) (process : Nat) (userId : ℤ) (bucket : List Socket) :
    b.setBucket process userId bucket process userId = bucket := by
  simp [setBucket]

theorem setBucket_other (b : Backend) {process p : Nat} {userId id : ℤ} (bucket : List Socket)
    (h : ¬(p = process ∧ id = userId)) :
    b.setBucket process userId bucket p id = b.userConnections p id := if_neg h

end Backend

/-- No rotation of the account commits between the commit of a login and the
refresh of the row it mints the token for. -/
def Unrotated : Guard accounts := fun b _ e =>
  match e with
  | .read (.refresh loaded) => ∀ row ∈ b.userById loaded.id, row.tokenVersion = loaded.tokenVersion
  | _ => True

/-- A socket is registered only while the version it was admitted on is in
force, and not between the moment a rotation copies the bucket it closes and
the commit of that rotation. -/
def RegisteredInTime : Guard accounts := fun b _ e =>
  match e with
  | .update (.register userId tv) => ∀ row ∈ b.userById userId, row.tokenVersion = tv
  | .commit (.rotation process userId registered) => b.registrations process userId = registered
  | _ => True

instance (b : Backend) (held : Held accounts) (e : Event accounts) :
    Decidable (Unrotated b held e) := by
  unfold Unrotated
  split <;> infer_instance

instance (b : Backend) (held : Held accounts) (e : Event accounts) :
    Decidable (RegisteredInTime b held e) := by
  unfold RegisteredInTime
  split <;> infer_instance

structure Assumptions where
  serves : Nat → Prop
  unrotated : Prop
  registeredInTime : Prop

def Assumptions.ok (A : Assumptions) : Guard accounts := fun b held e =>
  (A.unrotated → Unrotated b held e) ∧ (A.registeredInTime → RegisteredInTime b held e)

/-- The claims of the token name a version of the account under which a hash
of the password was committed. -/
def InForce (S : Settings) (b : Backend) (result : LoginResult) : Prop :=
  ∀ k, result.claims.get "tv" = some (.int k) → ∃ credential ∈ b.credentials,
    result.claims.get "user_id" = some (.int credential.userId) ∧ credential.tokenVersion = k ∧
      verifyPassword S result.password credential.hashedPassword = true

def User.rotate (user : User) (hashedPassword : String) : User :=
  { user with hashedPassword := hashedPassword, tokenVersion := user.tokenVersion + 1 }

def ReachedVersion (b : Backend) (userId : UserId) (tokenVersion : ℤ) : Prop :=
  ∃ row, b.users.get userId = some row ∧ tokenVersion ≤ row.tokenVersion

/-- A link is confirmed for the account and the version that its claims name. -/
def Confirmed (S : Settings) (operation : Operation S) (userId : UserId) (tokenVersion : ℤ) : Prop :=
  ∀ data, operation = .passwordResetConfirm data →
    ∃ now, decodePasswordResetToken S now data.token = .ok (userId, tokenVersion)

/-- What an effect of a session that serves the operation and holds the locks
`held` does. -/
inductive Commit (S : Settings) (A : Assumptions) (operation : Operation S) (held : Held accounts)
    (b : Backend) : Event accounts → Backend → Prop where
  | idle (t : Time) : Commit S A operation held b (.clock .none t) b
  | attempt (old new : User) (hHeld : held old.id = true) (hRow : b.users.get old.id = some old)
      (hId : new.id = old.id) (hVersion : new.tokenVersion = old.tokenVersion) :
      Commit S A operation held b (.commit .none) (b.setUser new)
  | loggedIn (result : LoginResult) (hInForce : A.unrotated → InForce S b result) :
      Commit S A operation held b (.update .none) (b.recordLogin result)
  | rotate (process registered : Nat) (old : User) (hashedPassword : String)
      (hServes : A.serves process) (hHeld : held old.id = true)
      (hRow : b.users.get old.id = some old)
      (hSwept : A.registeredInTime → b.userConnections process old.id = [])
      (hConfirmed : Confirmed S operation old.id old.tokenVersion) :
      Commit S A operation held b (.commit (.rotation process old.id registered))
        (b.setUser (old.rotate hashedPassword))
  | returned (rotation : Rotation)
      (hReached : ReachedVersion b rotation.userId rotation.tokenVersion) :
      Commit S A operation held b (.update .none) (b.recordRotation rotation)
  | connect (process : Nat) (userId : ℤ) (socket : Socket) (hServes : A.serves process)
      (row : User) (hRow : b.userById userId = some row)
      (hVersion : A.registeredInTime → row.tokenVersion = socket.tv) :
      Commit S A operation held b (.update (.register userId socket.tv))
        (b.connectUser process userId socket)
  | disconnect (process : Nat) (socket : Socket) (userId : ℤ) :
      Commit S A operation held b (.update .none) (b.disconnectUser process socket userId)

variable {S : Settings} {A : Assumptions} {operation : Operation S}

/-- The rows of the accounts in order: each is stored under its number, and its
credential is on record. -/
structure WellFormed (b : Backend) : Prop where
  userIds : ∀ id row, b.users.get id = some row → row.id = id
  credentials : ∀ id row, b.users.get id = some row → row.credential ∈ b.credentials

namespace WellFormed

theorem of_initial (rows : List User) : WellFormed (Backend.initial rows) where
  userIds id row hRow := by
    cases id with
    | zero => cases hRow
    | succ n =>
        obtain ⟨_, _, rfl⟩ := Option.map_eq_some_iff.mp hRow
        rfl
  credentials id row hRow := by
    cases id with
    | zero => cases hRow
    | succ n =>
        obtain ⟨old, hOld, rfl⟩ := Option.map_eq_some_iff.mp hRow
        obtain ⟨hLt, rfl⟩ := List.getElem?_eq_some_iff.mp hOld
        exact List.mem_mapIdx.mpr ⟨n, hLt, rfl⟩

theorem setUser {b : Backend} (h : WellFormed b) (new : User) : WellFormed (b.setUser new) where
  userIds id row hRow := by
    by_cases hId : id = new.id
    · subst hId
      obtain ⟨_, _, rfl⟩ : ∃ old, b.users.get new.id = some old ∧ new = row := by
        simpa [Backend.setUser] using hRow
      rfl
    · exact h.userIds id row ((b.get_setUser_other hId).symm.trans hRow)
  credentials id row hRow := by
    by_cases hId : id = new.id
    · subst hId
      obtain ⟨_, _, rfl⟩ : ∃ old, b.users.get new.id = some old ∧ new = row := by
        simpa [Backend.setUser] using hRow
      exact List.mem_append_right _ (List.mem_singleton_self _)
    · exact List.mem_append_left _
        (h.credentials id row ((b.get_setUser_other hId).symm.trans hRow))

theorem commit {held : Held accounts} {e : Event accounts} {b b' : Backend} (h : WellFormed b)
    (hCommit : Commit S A operation held b e b') : WellFormed b' := by
  cases hCommit with
  | idle => exact h
  | attempt old new => exact h.setUser new
  | loggedIn => exact ⟨h.userIds, h.credentials⟩
  | rotate process registered old hashedPassword => exact h.setUser _
  | returned => exact ⟨h.userIds, h.credentials⟩
  | connect => exact ⟨h.userIds, h.credentials⟩
  | disconnect => exact ⟨h.userIds, h.credentials⟩

end WellFormed

end OnlineAuction.Accounts
