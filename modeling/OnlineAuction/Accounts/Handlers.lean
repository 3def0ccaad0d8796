import OnlineAuction.Accounts.Backend

/-! `login`, `change_password` and `password_reset_confirm` of
`app/routers/auth.py` and `notifications_websocket` of
`app/routers/websocket.py`, as programs over the store of the accounts. -/

namespace OnlineAuction.Accounts

open RowLocks

variable (S : Settings)

/-- `Field(max_length=128)`. -/
abbrev LoginPassword := {password : String // password.length ≤ 128}

/-- `Field(min_length=8, max_length=128)`. -/
abbrev NewPassword := {password : String // 8 ≤ password.length ∧ password.length ≤ 128}

/-- The salt is what the handler draws, should it hash the password. -/
structure UserLogin where
  username : String
  password : LoginPassword
  salt : Nat

def loginLockoutTiers : List (ℤ × Time) :=
  [(20, hours 1), (15, minutes 15), (10, minutes 5), (5, minutes 1)]

def lockoutForFailures (count : ℤ) : Option Time :=
  (loginLockoutTiers.find? fun tier => tier.1 ≤ count).map Prod.snd

def User.failedLogin (user : User) (now : Time) : User :=
  let count := user.failedLoginCount + 1
  { user with
    failedLoginCount := count
    lockedUntil := match lockoutForFailures count with
      | some window => some (now + window)
      | none => user.lockedUntil }

def User.successfulLogin (user : User) (hashedPassword : String) : User :=
  { user with failedLoginCount := 0, lockedUntil := none, hashedPassword := hashedPassword }

def rehash (salt : Nat) (password hashedPassword : String) : Except HTTPException String :=
  if needsRehash S hashedPassword then hashPassword S salt password else .ok hashedPassword

def wrongCredentials : HTTPException := ⟨401, "Неверный логин или пароль"⟩

/-- `POST /login`. -/
def login (data : UserLogin) : Prog accounts S.jwt.Token := do
  let dbUser ← Prog.orRaise (← selectUsernameForUpdate data.username) wrongCredentials
  let now ← utcnow
  Prog.raiseIf (dbUser.lockedUntil.any (now < ·)) wrongCredentials
  if !verifyPassword S data.password dbUser.hashedPassword then
    commit .none (Backend.flushUser · dbUser (dbUser.failedLogin now))
    .fail wrongCredentials
  else
    let hashedPassword ← Prog.ofExcept (rehash S data.salt data.password dbUser.hashedPassword)
    commit .none (Backend.flushUser · dbUser (dbUser.successfulLogin hashedPassword))
    let dbUser ← refresh dbUser
    let token := createUserAccessToken S (← utcnow) dbUser
    update .none (Backend.recordLogin · ⟨data.password, userAccessClaims dbUser⟩)
    pure token

/-- The loop over the copied bucket. Closing a socket yields to the others
before the registry entry goes. -/
def closeEach (process : Nat) (userId : UserId) : List Socket → Prog accounts Unit
  | [] => pure ()
  | ws :: rest => do
      update .none (Backend.disconnectUser · process ws userId)
      closeEach process userId rest

/-- `_invalidate_user_sessions`: the row to commit, and the number of sockets
registered when the bucket was copied. -/
def invalidateUserSessions (process : Nat) (user : User) : Prog accounts (User × Nat) := do
  let rotated := { user with tokenVersion := user.tokenVersion + 1 }
  let (bucket, registered) ← query fun b =>
    (b.userConnections process user.id, b.registrations process user.id)
  closeEach process user.id bucket
  pure (rotated, registered)

def commitRotation (process : Nat) (locked rotated : User) (registered : Nat) :
    Prog accounts Unit :=
  commit (.rotation process locked.id registered) (Backend.flushUser · locked rotated)

def rotationReturns (process : Nat) (rotated : User) : Prog accounts Unit :=
  update .none (Backend.recordRotation · ⟨process, rotated.id, rotated.tokenVersion⟩)

structure ChangePasswordRequest where
  token : S.jwt.Token
  currentPassword : LoginPassword
  newPassword : NewPassword
  salt : Nat

/-- `PUT /change-password`. -/
def changePassword (process : Nat) (data : ChangePasswordRequest S) :
    Prog accounts S.jwt.Token := do
  let now ← utcnow
  let currentUser ← Prog.ofExcept
    (← query fun b => getCurrentUser S now data.token b.userById)
  let locked ← Prog.orRaise (← selectUserForUpdate currentUser.id) internalServerError
  Prog.raiseIf (!verifyPassword S data.currentPassword locked.hashedPassword)
    ⟨400, "Неверный текущий пароль"⟩
  let hashedPassword ← Prog.ofExcept (hashPassword S data.salt data.newPassword)
  let (rotated, registered) ←
    invalidateUserSessions process { locked with hashedPassword := hashedPassword }
  commitRotation process locked rotated registered
  let newToken := createUserAccessToken S (← utcnow) rotated
  rotationReturns process rotated
  pure newToken

structure PasswordResetConfirmBody where
  token : S.jwt.Token
  newPassword : NewPassword
  salt : Nat

/-- `POST /password-reset/confirm`. -/
def passwordResetConfirm (process : Nat) (data : PasswordResetConfirmBody S) :
    Prog accounts Unit := do
  let (userId, claimedTv) ← Prog.ofExcept (decodePasswordResetToken S (← utcnow) data.token)
  let user ← Prog.orRaise (← selectUserForUpdate userId) passwordResetInvalid
  Prog.raiseIf (claimedTv ≠ user.tokenVersion) passwordResetInvalid
  let hashedPassword ← Prog.ofExcept (hashPassword S data.salt data.newPassword)
  let (rotated, registered) ←
    invalidateUserSessions process { user with hashedPassword := hashedPassword }
  commitRotation process user rotated registered
  rotationReturns process rotated

/-- A handshake: the user of the path, the bearer token if the header carries
one, the connection, and whether it ends by a failed ping, which leaves the
registry as it is. -/
structure Handshake where
  userId : ℤ
  token : Option S.jwt.Token
  websocket : Nat
  pingFails : Bool

/-- `/ws/notifications/{user_id}`. Accepting the socket yields between the
version check and `connect_user`. -/
def notificationsWebsocket (process : Nat) (handshake : Handshake S) : Prog accounts Unit := do
  match handshake.token with
  | none => pure ()
  | some token =>
      let now ← utcnow
      match ← query fun b => admitSocket S now token handshake.userId b.userById with
      | none => pure ()
      | some user =>
          let socket : Socket := ⟨handshake.websocket, user.tokenVersion⟩
          update (.register handshake.userId socket.tv)
            (Backend.connectUser · process handshake.userId socket)
          if handshake.pingFails then pure ()
          else update .none (Backend.disconnectUser · process socket handshake.userId)

inductive Operation where
  | login (data : UserLogin)
  | changePassword (data : ChangePasswordRequest S)
  | passwordResetConfirm (data : PasswordResetConfirmBody S)
  | notificationsWebsocket (handshake : Handshake S)

def handle (process : Nat) : Operation S → Prog accounts Unit
  | .login data => do let _ ← login S data
  | .changePassword data => do let _ ← changePassword S process data
  | .passwordResetConfirm data => passwordResetConfirm S process data
  | .notificationsWebsocket handshake => notificationsWebsocket S process handshake

/-- The operations of any number of processes. -/
def handleIn (request : Nat × Operation S) : Prog accounts Unit := handle S request.1 request.2

end OnlineAuction.Accounts
