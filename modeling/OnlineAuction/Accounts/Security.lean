import OnlineAuction.Market.Records

/-! `app/utils/security.py`: password hashes, the three kinds of signed tokens
and the functions that accept them. `passlib`, `hashlib` and `PyJWT` are
parameters. -/

namespace OnlineAuction.Accounts

/-- A row of `users`, as far as credentials and tokens depend on it. -/
structure User where
  id : UserId
  username : String
  email : String
  hashedPassword : String
  tokenVersion : ℤ
  failedLoginCount : ℤ
  lockedUntil : Option Time
  deriving DecidableEq

/-- The values that the code writes into claims. -/
inductive Claim where
  | int (value : ℤ)
  | str (value : String)
  deriving DecidableEq

/-- A Python value in boolean position. -/
def Claim.truthy : Claim → Bool
  | .int value => decide (value ≠ 0)
  | .str value => decide (value ≠ "")

abbrev Payload := List (String × Claim)

def Payload.get (payload : Payload) (name : String) : Option Claim := payload.lookup name

inductive JwtError where
  | expiredSignature
  | other
  deriving DecidableEq

/-- `jwt.encode` and `jwt.decode` with the one algorithm the code allows.
Nothing else looks into a token. -/
structure Jwt where
  Token : Type
  encode : Payload → String → Token
  decode : Time → Token → String → String → String → Except JwtError Payload

/-- A token that the library encoded is accepted, with the claims it was given,
by the holder of the key who expects its issuer and audience, until it expires. -/
structure Jwt.Lawful (jwt : Jwt) : Prop where
  decode_encode : ∀ (payload : Payload) (key audience issuer : String) (exp : ℤ) (now : Time),
    (payload.map Prod.fst).Nodup → payload.get "exp" = some (.int exp) →
      payload.get "aud" = some (.str audience) → payload.get "iss" = some (.str issuer) →
        jwt.decode now (jwt.encode payload key) key audience issuer =
          if exp * seconds 1 ≤ now then .error .expiredSignature else .ok payload

/-- `CryptContext` and `sha256`. A hash is salted with randomness of its own. -/
structure Hashing where
  hash : Nat → String → String
  identify : String → Bool
  verify : String → String → Bool
  needsUpdate : String → Bool
  sha256 : String → String

structure Settings where
  jwt : Jwt
  hashing : Hashing
  secretKey : String
  legacyPasswordKeys : List String

def accessTokenExpireHours : Nat := 2

def jwtIssuer : String := "lotus"

def jwtAudience : String := "lotus-api"

variable (S : Settings)

def passwordInputLimit : Nat := 1024

def hashPassword (salt : Nat) (password : String) : Except HTTPException String :=
  if passwordInputLimit < password.utf8ByteSize then .error internalServerError
  else .ok (S.hashing.hash salt password)

def isModernPasswordHash (hashedPassword : String) : Bool := S.hashing.identify hashedPassword

def needsRehash (hashedPassword : String) : Bool :=
  if !isModernPasswordHash S hashedPassword then true else S.hashing.needsUpdate hashedPassword

def verifyPassword (plainPassword hashedPassword : String) : Bool :=
  if passwordInputLimit < plainPassword.utf8ByteSize then false
  else if isModernPasswordHash S hashedPassword then
    S.hashing.verify plainPassword hashedPassword
  else (S.secretKey :: S.legacyPasswordKeys).any fun key =>
    S.hashing.sha256 (plainPassword ++ key) = hashedPassword

/-- A `datetime` claim is encoded in whole seconds. -/
def timestamp (t : Time) : ℤ := t / seconds 1

/-- The claims, and those every token carries. -/
def withPolicy (claims : Payload) (exp : Time) : Payload :=
  claims ++ [("exp", .int (timestamp exp)), ("iss", .str jwtIssuer), ("aud", .str jwtAudience)]

def createAccessToken (now : Time) (claims : Payload) : S.jwt.Token :=
  S.jwt.encode (withPolicy claims (now + hours accessTokenExpireHours)) S.secretKey

def userAccessClaims (user : User) : Payload :=
  [("user_id", .int user.id), ("tv", .int user.tokenVersion)]

def createUserAccessToken (now : Time) (user : User) : S.jwt.Token :=
  createAccessToken S now (userAccessClaims user)

def emailVerifyPurpose : String := "email_verify"

def emailVerifyTokenTtlHours : Nat := 24

def passwordResetPurpose : String := "password_reset"

def passwordResetTokenTtlHours : Nat := 1

def emailVerifyClaims (user : User) : Payload :=
  [("user_id", .int user.id), ("email", .str user.email), ("purpose", .str emailVerifyPurpose)]

def createEmailVerifyToken (now : Time) (user : User) : S.jwt.Token :=
  S.jwt.encode (withPolicy (emailVerifyClaims user) (now + hours emailVerifyTokenTtlHours))
    S.secretKey

def passwordResetClaims (user : User) : Payload :=
  [("user_id", .int user.id), ("tv", .int user.tokenVersion),
    ("purpose", .str passwordResetPurpose)]

def createPasswordResetToken (now : Time) (user : User) : S.jwt.Token :=
  S.jwt.encode (withPolicy (passwordResetClaims user) (now + hours passwordResetTokenTtlHours))
    S.secretKey

/-- `jwt.decode` as every function below calls it. -/
def jwtDecode (now : Time) (token : S.jwt.Token) : Except JwtError Payload :=
  S.jwt.decode now token S.secretKey jwtAudience jwtIssuer

def decodePurposeToken (now : Time) (token : S.jwt.Token) (expectedPurpose expiredDetail
    invalidDetail : String) : Except HTTPException Payload :=
  match jwtDecode S now token with
  | .error .expiredSignature => .error ⟨400, expiredDetail⟩
  | .error .other => .error ⟨400, invalidDetail⟩
  | .ok payload =>
      if payload.get "purpose" ≠ some (.str expectedPurpose) then .error ⟨400, invalidDetail⟩
      else .ok payload

def passwordResetInvalid : HTTPException := ⟨400, "Неверная ссылка для сброса пароля"⟩

def decodePasswordResetToken (now : Time) (token : S.jwt.Token) : Except HTTPException (ℤ × ℤ) := do
  let payload ← decodePurposeToken S now token passwordResetPurpose
    "Ссылка для сброса пароля истекла" passwordResetInvalid.detail
  match payload.get "user_id", payload.get "tv" with
  | some (.int userId), some (.int tv) => .ok (userId, tv)
  | _, _ => .error passwordResetInvalid

def emailVerifyInvalid : HTTPException := ⟨400, "Неверная ссылка для подтверждения email"⟩

def decodeEmailVerifyToken (now : Time) (token : S.jwt.Token) :
    Except HTTPException (ℤ × String) := do
  let payload ← decodePurposeToken S now token emailVerifyPurpose
    "Ссылка для подтверждения email истекла" emailVerifyInvalid.detail
  match payload.get "user_id", payload.get "email" with
  | some (.int userId), some (.str email) => .ok (userId, email)
  | _, _ => .error emailVerifyInvalid

def decodeToken (now : Time) (token : S.jwt.Token) : Except HTTPException Payload :=
  match jwtDecode S now token with
  | .ok payload => .ok payload
  | .error .expiredSignature => .error ⟨401, "Token expired"⟩
  | .error .other => .error ⟨401, "Invalid token"⟩

/-- `select(User).where(User.id == …)` against the value of a claim; a text is
not comparable with the column. -/
def selectUser (users : ℤ → Option User) : Claim → Except HTTPException (Option User)
  | .int id => .ok (users id)
  | .str _ => .error internalServerError

/-- `get_current_user`. A token without `tv` does not have the version of its user. -/
def getCurrentUser (now : Time) (token : S.jwt.Token) (users : ℤ → Option User) :
    Except HTTPException User := do
  let payload ← decodeToken S now token
  match payload.get "user_id" with
  | none => .error ⟨401, "Invalid token"⟩
  | some userId =>
      if !userId.truthy then .error ⟨401, "Invalid token"⟩
      else match ← selectUser users userId with
        | none => .error ⟨401, "User not found"⟩
        | some user =>
            if payload.get "tv" ≠ some (.int user.tokenVersion) then
              .error ⟨401, "Token invalidated"⟩
            else .ok user

/-- The handshake of `/ws/notifications/{user_id}` up to `connect_user`: the
claims it admits the socket on, `none` where it closes the socket with 1008. -/
def admitSocket (now : Time) (token : S.jwt.Token) (userId : ℤ) (users : ℤ → Option User) :
    Option User :=
  match decodeToken S now token with
  | .error _ => none
  | .ok payload =>
      if payload.get "user_id" ≠ some (.int userId) then none
      else match users userId with
        | none => none
        | some user =>
            if payload.get "tv" ≠ some (.int user.tokenVersion) then none else some user

/-- Tokens that carry their claims and the key they were signed with in the
open. -/
def plainJwt : Jwt where
  Token := Payload × String
  encode payload key := (payload, key)
  decode now token key audience issuer :=
    if token.2 = key ∧ token.1.get "aud" = some (.str audience) ∧
        token.1.get "iss" = some (.str issuer) then
      match token.1.get "exp" with
      | some (.int exp) =>
          if exp * seconds 1 ≤ now then .error .expiredSignature else .ok token.1
      | _ => .error .other
    else .error .other

theorem plainJwt_lawful : plainJwt.Lawful where
  decode_encode payload key audience issuer exp now _ hExp hAud hIss := by
    simp [plainJwt, hExp, hAud, hIss]

/-- Hashes that carry the password in the open. -/
def plainHashing : Hashing where
  hash _ password := password
  identify _ := true
  verify password hashedPassword := decide (password = hashedPassword)
  needsUpdate _ := false
  sha256 text := text

def plainSettings : Settings := ⟨plainJwt, plainHashing, "secret", []⟩

end OnlineAuction.Accounts
