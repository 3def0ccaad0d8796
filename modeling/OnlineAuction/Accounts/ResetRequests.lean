import OnlineAuction.Accounts.Backend

/-! `password_reset_request` of `app/routers/auth.py` with
`send_password_reset_email`, over the accounts and the outbox rows that it
writes. The handler takes no row lock. -/

namespace OnlineAuction.Accounts.Resets

open RowLocks

variable (S : Settings)

structure Account where
  user : User
  passwordResetSentAt : Option Time
  deriving DecidableEq

/-- An outbox row with a reset link, as far as it depends on the request: its
HTML is built from the username and the token. The last two fields are history:
the account it was sent for and the reading of the clock that was held against
the throttle. -/
structure ResetEmail where
  toEmail : String
  subject : String
  username : String
  token : S.jwt.Token
  nextAttemptAt : Time
  createdAt : Time
  requestedBy : UserId
  requestedAt : Time

structure State where
  users : Table Account
  emailOutbox : Table (ResetEmail S)

def Account.flush (loaded changed row : Account) : Account where
  user := User.flush loaded.user changed.user row.user
  passwordResetSentAt :=
    column loaded.passwordResetSentAt changed.passwordResetSentAt row.passwordResetSentAt

namespace State

variable {S}

def initial (rows : List Account) : State S where
  users :=
    { get := fun
        | 0 => none
        | n + 1 => (rows[n]?).map fun row => { row with user.id := n + 1 }
      serial := rows.length + 1
      unused := fun
        | 0, _ => rfl
        | n + 1, h => by simp [Nat.le_of_succ_le_succ h] }
  emailOutbox := .empty

def userByEmail (d : State S) (email : String) : Option Account :=
  ((List.range d.users.serial).filterMap d.users.get).find? fun row => row.user.email = email

def flushAccount (d : State S) (loaded changed : Account) : State S :=
  { d with users := d.users.modify loaded.user.id (Account.flush loaded changed) }

def enqueueEmail (d : State S) (mail : ResetEmail S) : State S :=
  { d with emailOutbox := d.emailOutbox.add fun _ => mail }

end State

/-- A commit carries the account as the request has loaded it. -/
abbrev resets : Store where
  State := State S
  Key := UserId
  Time := Time
  Note := Option Account
  Error := HTTPException
  keyEq := inferInstance
  hasRow d id := (d.users.get id).isSome
  admits _ := true
  readable _ _ := true
  observe _ _ d := d

def utcnow : Prog (resets S) Time := .clock none .pure

def passwordResetThrottleSeconds : Nat := 60

/-- `last is None or (now - last) >= throttle`. -/
def throttleOver (last : Option Time) (now : Time) : Bool :=
  match last with
  | none => true
  | some last => seconds passwordResetThrottleSeconds ≤ now - last

/-- `send_password_reset_email`: the outbox row for the caller to commit. -/
def sendPasswordResetEmail (user : User) (requestedAt : Time) :
    Prog (resets S) (ResetEmail S) := do
  let token := createPasswordResetToken S (← utcnow S) user
  let nextAttemptAt ← utcnow S
  let createdAt ← utcnow S
  pure { toEmail := user.email, subject := "Сброс пароля - Лотус", username := user.username
         token := token, nextAttemptAt := nextAttemptAt, createdAt := createdAt
         requestedBy := user.id, requestedAt := requestedAt }

/-- `POST /password-reset/request`, for the normalised address; `db.refresh` comes last. -/
def passwordResetRequest (email : String) : Prog (resets S) Unit :=
  .read none fun d => do
    match d.userByEmail email with
    | none => pure ()
    | some loaded =>
        let now ← utcnow S
        if throttleOver loaded.passwordResetSentAt now then
          let mail ← sendPasswordResetEmail S loaded.user now
          .commit (some loaded) (fun d => (d.flushAccount loaded
              { loaded with passwordResetSentAt := some now }).enqueueEmail mail) fun done => do
            let _ ← Prog.orRaise done internalServerError
            .read none fun d => do
              let _ ← Prog.orRaise (d.users.get loaded.user.id) internalServerError
        else pure ()

end OnlineAuction.Accounts.Resets
