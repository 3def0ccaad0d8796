import OnlineAuction.Accounts.Security
import OnlineAuction.Library.RowLocks
import OnlineAuction.Library.Table
import OnlineAuction.Market.Database

/-! The users table and the registries of notification sockets: what the
sessions of the accounts read, lock and change. -/

namespace OnlineAuction.Accounts

open RowLocks

/-- A notification socket, with the version it was admitted on. The code keeps
the connection only: the version is a history variable. -/
structure Socket where
  websocket : Nat
  tv : ℤ
  deriving DecidableEq

/-- A password hash that was committed while the account was at a version. -/
structure Credential where
  userId : UserId
  tokenVersion : ℤ
  hashedPassword : String
  deriving DecidableEq

/-- A password that `login` verified and the claims of the token it returned. -/
structure LoginResult where
  password : String
  claims : Payload
  deriving DecidableEq

structure Rotation where
  process : Nat
  userId : UserId
  tokenVersion : ℤ
  deriving DecidableEq

/-- The users table and `manager.user_connections` of every process. The rest
is history: what was ever committed as a credential, what `login` returned,
how many sockets were ever registered and which rotations are over. -/
@[ext]
structure Backend where
  users : Table User
  userConnections : Nat → ℤ → List Socket
  credentials : List Credential
  logins : List LoginResult
  registrations : Nat → ℤ → Nat
  rotations : List Rotation

/-- The `UPDATE` of a user: the columns in which the changed copy differs from
the loaded one, written over the stored row. -/
def User.flush (loaded changed row : User) : User where
  id := row.id
  username := column loaded.username changed.username row.username
  email := column loaded.email changed.email row.email
  hashedPassword := column loaded.hashedPassword changed.hashedPassword row.hashedPassword
  tokenVersion := column loaded.tokenVersion changed.tokenVersion row.tokenVersion
  failedLoginCount := column loaded.failedLoginCount changed.failedLoginCount row.failedLoginCount
  lockedUntil := column loaded.lockedUntil changed.lockedUntil row.lockedUntil

@[simp] theorem User.flush_loaded (loaded changed : User) (hId : changed.id = loaded.id) :
    User.flush loaded changed loaded = changed := by
  cases changed
  simp_all [User.flush]

def User.credential (user : User) : Credential := ⟨user.id, user.tokenVersion, user.hashedPassword⟩

namespace Backend

def initial (rows : List User) : Backend where
  users :=
    { get := fun
        | 0 => none
        | n + 1 => (rows[n]?).map fun row => { row with id := n + 1 }
      serial := rows.length + 1
      unused := fun
        | 0, _ => rfl
        | n + 1, h => by simp [Nat.le_of_succ_le_succ h] }
  userConnections _ _ := []
  credentials := rows.mapIdx fun n row => { row with id := n + 1 }.credential
  logins := []
  registrations _ _ := 0
  rotations := []

/-- `select(User).where(User.id == …)`. -/
def userById (b : Backend) : ℤ → Option User
  | .ofNat id => b.users.get id
  | .negSucc _ => none

/-- `select(User).where(User.username == …)`. -/
def userByUsername (b : Backend) (username : String) : Option User :=
  ((List.range b.users.serial).filterMap b.users.get).find? fun row => row.username = username

def flushUser (b : Backend) (loaded changed : User) : Backend :=
  let users := b.users.modify loaded.id (User.flush loaded changed)
  { b with
    users := users
    credentials := b.credentials ++ (users.get loaded.id).toList.map User.credential }

def setBucket (b : Backend) (process : Nat) (userId : ℤ) (bucket : List Socket) :
    Nat → ℤ → List Socket := fun p id =>
  if p = process ∧ id = userId then bucket else b.userConnections p id

/-- `connect_user`, once the socket is accepted. -/
def connectUser (b : Backend) (process : Nat) (userId : ℤ) (socket : Socket) : Backend :=
  { b with
    userConnections := b.setBucket process userId (b.userConnections process userId ++ [socket])
    registrations := fun p id =>
      if p = process ∧ id = userId then b.registrations p id + 1 else b.registrations p id }

def disconnectUser (b : Backend) (process : Nat) (socket : Socket) (userId : ℤ) : Backend :=
  { b with
    userConnections :=
      b.setBucket process userId ((b.userConnections process userId).erase socket) }

def recordLogin (b : Backend) (result : LoginResult) : Backend :=
  { b with logins := b.logins ++ [result] }

def recordRotation (b : Backend) (rotation : Rotation) : Backend :=
  { b with rotations := b.rotations ++ [rotation] }

end Backend

/-- What an effect is performed with: the copy that `login` verified, the
version a socket was admitted on, or the number of sockets registered when a
rotation copied the bucket it closes. -/
inductive Note where
  | none
  | refresh (loaded : User)
  | register (userId : ℤ) (tv : ℤ)
  | rotation (process : Nat) (userId : UserId) (registered : Nat)

/-- The store of the accounts: one database, and the memory of every process. -/
abbrev accounts : Store where
  State := Backend
  Key := ℤ
  Time := Time
  Note := Note
  Error := HTTPException
  keyEq := inferInstance
  hasRow b id := (b.userById id).isSome
  admits _ := true
  readable _ _ := true
  observe _ _ b := b

def utcnow : Prog accounts Time := .clock .none .pure

def query {α : Type} (select : Backend → α) : Prog accounts α :=
  .read .none fun b => .pure (select b)

def selectUserForUpdate (userId : ℤ) : Prog accounts (Option User) :=
  .lock userId .none fun b => .pure (b.userById userId)

/-- `select(User).where(User.username == …).with_for_update()`: the row is found,
then locked, then checked against the condition again. -/
def selectUsernameForUpdate (username : String) : Prog accounts (Option User) := do
  match ← query (Backend.userByUsername · username) with
  | none => pure none
  | some found =>
      let row ← selectUserForUpdate found.id
      pure (row.filter fun row => row.username = username)

def commit (note : Note) (write : Backend → Backend) : Prog accounts Unit :=
  .commit note write fun done => do
    let _ ← Prog.orRaise done internalServerError

def refresh (loaded : User) : Prog accounts User :=
  .read (.refresh loaded) fun b => Prog.orRaise (b.userById loaded.id) internalServerError

/-- A change of the process's memory, or of the history. -/
def update (note : Note) (write : Backend → Backend) : Prog accounts Unit :=
  .update note write (.pure ())

end OnlineAuction.Accounts
