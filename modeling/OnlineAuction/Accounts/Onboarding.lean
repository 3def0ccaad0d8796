import OnlineAuction.Accounts.Registration
import OnlineAuction.Accounts.TokenPurposes

/-! `register`, `verify_email` and `resend_verification_email` of
`app/routers/auth.py` with `send_verification_email`, over the accounts and the
outbox rows that they write. None of them takes a row lock: names and addresses
are kept apart by the unique indexes, checked at commit. -/

namespace OnlineAuction.Accounts.Onboarding

open RowLocks

variable (S : Settings)

structure Account where
  user : User
  emailVerified : Bool
  deriving DecidableEq

/-- An outbox row with a verification link: its HTML is built from the username and
the token. The last three fields are history: the account it was made for, the
reading of the clock that the token was made at, and whether it was registration
that sent it. -/
structure VerificationEmail where
  toEmail : String
  subject : String
  username : String
  token : S.jwt.Token
  nextAttemptAt : Time
  createdAt : Time
  requestedBy : UserId
  issuedAt : Time
  registration : Bool

/-- A link that was accepted for an account that was not verified yet. -/
structure Verification where
  userId : UserId
  token : S.jwt.Token
  presentedAt : Time

/-- The list of verifications is history: no handler reads it. -/
structure State where
  users : Table Account
  emailOutbox : Table (VerificationEmail S)
  verifications : List (Verification S)

def Account.flush (loaded changed row : Account) : Account where
  user := User.flush loaded.user changed.user row.user
  emailVerified := column loaded.emailVerified changed.emailVerified row.emailVerified

namespace State

variable {S}

def initial (rows : List Account) : State S where
  users :=
    { get := fun
        | 0 => none
        | n + 1 => (rows[n]?).map fun row => { row with user.id := n + 1 }
      serial := rows.length + 1
      unused := fun
        | 0, _ => rfl
        | n + 1, h => by simp [Nat.le_of_succ_le_succ h] }
  emailOutbox := .empty
  verifications := []

def stored (d : State S) : List Account :=
  (List.range d.users.serial).filterMap d.users.get

/-- `select(User.id).where(…)`. -/
def selectId (d : State S) (condition : User → Bool) : Option UserId :=
  (d.stored.find? fun row => condition row.user).map fun row => row.user.id

def userById (d : State S) : ℤ → Option Account
  | .ofNat id => d.users.get id
  | .negSucc _ => none

def admits (d : State S) : Bool :=
  (List.range d.users.serial).all fun id => (List.range d.users.serial).all fun other =>
    match d.users.get id, d.users.get other with
    | some row, some row' => id = other ||
        (row.user.username ≠ row'.user.username && row.user.email ≠ row'.user.email)
    | _, _ => true

def enqueueEmail (d : State S) (mail : VerificationEmail S) : State S :=
  { d with emailOutbox := d.emailOutbox.add fun _ => mail }

def flushAccount (d : State S) (loaded changed : Account) : State S :=
  { d with users := d.users.modify loaded.user.id (Account.flush loaded changed) }

def recordVerification (d : State S) (verification : Verification S) : State S :=
  { d with verifications := d.verifications ++ [verification] }

end State

/-- An effect that checks a token carries it. -/
abbrev onboarding : Store where
  State := State S
  Key := UserId
  Time := Time
  Note := Option S.jwt.Token
  Error := HTTPException
  keyEq := inferInstance
  hasRow d id := (d.users.get id).isSome
  admits := State.admits
  readable _ _ := true
  observe _ _ d := d

def utcnow : Prog (onboarding S) Time := .clock none .pure

def query {α : Type} (select : State S → α) : Prog (onboarding S) α :=
  .read none fun d => .pure (select d)

/-- `send_verification_email` once the user has a number: the outbox row for the
caller to commit. -/
def verificationEmail (user : User) (issuedAt nextAttemptAt createdAt : Time)
    (registration : Bool) : VerificationEmail S where
  toEmail := user.email
  subject := "Подтвердите email - Лотус"
  username := user.username
  token := createEmailVerifyToken S issuedAt user
  nextAttemptAt := nextAttemptAt
  createdAt := createdAt
  requestedBy := user.id
  issuedAt := issuedAt
  registration := registration

/-- `User(username=…, email=…, hashed_password=…)`, at the column defaults. -/
def newAccount (username email hashedPassword : String) (id : UserId) : Account :=
  ⟨⟨id, username, email, hashedPassword, 0, 0, none⟩, false⟩

variable (L : Lowering)

/-- `POST /register`. The flush that gives the row its number and the commit are one
effect here: nobody else sees the row in between, and a violation of a unique index
is caught around both. `db.refresh` and the access token of the response follow. -/
def register (user : UserCreate) : Prog (onboarding S) Unit := do
  let username := normalizeUsername L user.username
  let email := normalizeEmail L user.email
  let usernameTaken ← query S fun d => d.selectId fun row => row.username = username
  let emailTaken ← query S fun d => d.selectId fun row => row.email = email
  Prog.raiseIf (usernameTaken.any (· ≠ 0) || emailTaken.any (· ≠ 0)) ⟨400, userExistsDetail⟩
  let hashedPassword ← Prog.ofExcept (hashPassword S user.salt user.password)
  let issuedAt ← utcnow S
  let nextAttemptAt ← utcnow S
  let createdAt ← utcnow S
  let account := newAccount username email hashedPassword
  .commit none (fun d =>
      { d with users := d.users.add account }.enqueueEmail
        (verificationEmail S (account d.users.serial).user issuedAt nextAttemptAt createdAt true))
    fun done => do
      let _ ← Prog.orRaise done ⟨400, userExistsDetail⟩
      let _ ← query S fun _ => ()
      let _ ← utcnow S

def verifyEmail (token : S.jwt.Token) : Prog (onboarding S) Unit :=
  .clock (some token) fun now => do
    let (userId, claimedEmail) ← Prog.ofExcept (decodeEmailVerifyToken S now token)
    let user ← Prog.orRaise (← query S fun d => d.userById userId) emailVerifyInvalid
    Prog.raiseIf (user.user.email ≠ claimedEmail) emailVerifyInvalid
    if user.emailVerified then pure ()
    else
      .commit none (fun d =>
          (d.flushAccount user { user with emailVerified := true }).recordVerification
            ⟨user.user.id, token, now⟩)
        fun done => do
          let _ ← Prog.orRaise done internalServerError

def resendVerificationEmail (userId : UserId) : Prog (onboarding S) Unit := do
  let currentUser ← Prog.orRaise (← query S fun d => d.users.get userId) ⟨401, "User not found"⟩
  Prog.raiseIf (currentUser.emailVerified = true) ⟨400, "Email уже подтверждён"⟩
  let issuedAt ← utcnow S
  let nextAttemptAt ← utcnow S
  let createdAt ← utcnow S
  .commit none (fun d =>
      d.enqueueEmail (verificationEmail S currentUser.user issuedAt nextAttemptAt createdAt false))
    fun done => do
      let _ ← Prog.orRaise done internalServerError

inductive Request where
  | register (user : UserCreate)
  | verifyEmail (token : S.jwt.Token)
  | resend (userId : UserId)

def handle : Request S → Prog (onboarding S) Unit
  | .register user => register S L user
  | .verifyEmail token => verifyEmail S token
  | .resend userId => resendVerificationEmail S userId

end OnlineAuction.Accounts.Onboarding
