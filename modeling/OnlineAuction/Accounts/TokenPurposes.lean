import OnlineAuction.Accounts.Security

/-! Which of the three kinds of tokens each verifier accepts. The purpose claim
keeps access tokens away from the two one-purpose verifiers. The session
verifiers never read it, so a password-reset token, which carries the claims of
an access token, opens a session. -/

namespace OnlineAuction.Accounts

variable (S : Settings)

inductive Kind where
  | access
  | passwordReset
  | emailVerify
  deriving DecidableEq

def mint (now : Time) (user : User) : Kind → S.jwt.Token
  | .access => createUserAccessToken S now user
  | .passwordReset => createPasswordResetToken S now user
  | .emailVerify => createEmailVerifyToken S now user

def Kind.ttlHours : Kind → Nat
  | .access => accessTokenExpireHours
  | .passwordReset => passwordResetTokenTtlHours
  | .emailVerify => emailVerifyTokenTtlHours

/-- The time from which a token minted at `minted` counts as expired. -/
def Kind.expiry (minted : Time) (kind : Kind) : Time :=
  timestamp (minted + hours kind.ttlHours) * seconds 1

def Kind.payload (minted : Time) (user : User) (kind : Kind) : Payload :=
  let claims := match kind with
    | .access => userAccessClaims user
    | .passwordReset => passwordResetClaims user
    | .emailVerify => emailVerifyClaims user
  withPolicy claims (minted + hours kind.ttlHours)

def Rejected {α : Type} (answer : Except HTTPException α) : Prop := ∃ e, answer = .error e

/-- No session is opened: neither a request nor a notification socket of any
user is authenticated by the token. -/
def OpensNoSession (now : Time) (token : S.jwt.Token) (users : ℤ → Option User) : Prop :=
  Rejected (getCurrentUser S now token users) ∧
    ∀ userId, admitSocket S now token userId users = none

/-- A token of the kind is rejected by the verifiers of the other kinds. -/
def Separated (now : Time) (token : S.jwt.Token) (users : ℤ → Option User) : Kind → Prop
  | .access => Rejected (decodePasswordResetToken S now token) ∧
      Rejected (decodeEmailVerifyToken S now token)
  | .passwordReset => OpensNoSession S now token users ∧
      Rejected (decodeEmailVerifyToken S now token)
  | .emailVerify => OpensNoSession S now token users ∧
      Rejected (decodePasswordResetToken S now token)

section

variable {S}

@[simp] theorem rejected_error {α : Type} (e : HTTPException) :
    Rejected (.error e : Except HTTPException α) := ⟨e, rfl⟩

@[simp] theorem not_rejected_ok {α : Type} (a : α) :
    ¬Rejected (.ok a : Except HTTPException α) := by
  rintro ⟨e, he⟩
  cases he

/-- What is rejected at once is rejected in the end. -/
theorem Rejected.bind {α β : Type} {answer : Except HTTPException α} (h : Rejected answer)
    (f : α → Except HTTPException β) : Rejected (answer >>= f) := by
  obtain ⟨e, rfl⟩ := h
  exact ⟨e, rfl⟩

theorem mint_eq (minted : Time) (user : User) (kind : Kind) :
    mint S minted user kind = S.jwt.encode (kind.payload minted user) S.secretKey := by
  cases kind <;> rfl

theorem Kind.payload_nodup (minted : Time) (user : User) (kind : Kind) :
    ((kind.payload minted user).map Prod.fst).Nodup := by
  cases kind <;> simp [Kind.payload, withPolicy, userAccessClaims, passwordResetClaims,
    emailVerifyClaims]

/-- What `jwt.decode` makes of a minted token. -/
theorem jwtDecode_mint (hJwt : S.jwt.Lawful) (minted now : Time) (user : User) (kind : Kind) :
    jwtDecode S now (mint S minted user kind) =
      if kind.expiry minted ≤ now then .error .expiredSignature
      else .ok (kind.payload minted user) := by
  rw [mint_eq]
  exact hJwt.decode_encode _ _ _ _ (timestamp (minted + hours kind.ttlHours)) _
    (kind.payload_nodup minted user) (by cases kind <;> rfl) (by cases kind <;> rfl)
    (by cases kind <;> rfl)

/-- A token that decodes has the payload it was minted with. -/
theorem payload_of_decode (hJwt : S.jwt.Lawful) {minted now : Time} {user : User} {kind : Kind}
    {payload : Payload} (h : jwtDecode S now (mint S minted user kind) = .ok payload) :
    payload = kind.payload minted user := by
  rw [jwtDecode_mint hJwt] at h
  split_ifs at h
  exact (Except.ok.inj h).symm

/-- A token without the purpose a verifier expects. -/
theorem decodePurposeToken_rejects {now : Time} {token : S.jwt.Token} {expectedPurpose : String}
    (hPurpose : ∀ payload, jwtDecode S now token = .ok payload →
      payload.get "purpose" ≠ some (.str expectedPurpose)) (expiredDetail invalidDetail : String) :
    Rejected (decodePurposeToken S now token expectedPurpose expiredDetail invalidDetail) := by
  unfold decodePurposeToken
  cases hDecode : jwtDecode S now token with
  | error e => cases e <;> simp
  | ok payload => simp [hPurpose payload hDecode]

/-- Access tokens have no purpose, the other two have one each. -/
theorem Kind.get_purpose (minted : Time) (user : User) (kind : Kind) :
    (kind.payload minted user).get "purpose" = match kind with
      | .access => none
      | .passwordReset => some (.str passwordResetPurpose)
      | .emailVerify => some (.str emailVerifyPurpose) := by
  cases kind <;> rfl

theorem decodePasswordResetToken_rejects (hJwt : S.jwt.Lawful) {kind : Kind}
    (hKind : kind ≠ .passwordReset) (minted now : Time) (user : User) :
    Rejected (decodePasswordResetToken S now (mint S minted user kind)) := by
  refine (decodePurposeToken_rejects (fun payload hDecode => ?_) _ _).bind _
  rw [payload_of_decode hJwt hDecode, Kind.get_purpose]
  cases kind with
  | access => simp
  | passwordReset => exact absurd rfl hKind
  | emailVerify => simp [emailVerifyPurpose, passwordResetPurpose]

/-- Only verification links pass as verification links. -/
theorem decodeEmailVerifyToken_rejects (hJwt : S.jwt.Lawful) {kind : Kind}
    (hKind : kind ≠ .emailVerify) (minted now : Time) (user : User) :
    Rejected (decodeEmailVerifyToken S now (mint S minted user kind)) := by
  refine (decodePurposeToken_rejects (fun payload hDecode => ?_) _ _).bind _
  rw [payload_of_decode hJwt hDecode, Kind.get_purpose]
  cases kind with
  | access => simp
  | passwordReset => simp [emailVerifyPurpose, passwordResetPurpose]
  | emailVerify => exact absurd rfl hKind

theorem Kind.get_userId (minted : Time) (user : User) (kind : Kind) :
    (kind.payload minted user).get "user_id" = some (.int user.id) := by
  cases kind <;> rfl

/-- Access tokens and reset links carry the version, verification links do not. -/
theorem Kind.get_tv (minted : Time) (user : User) (kind : Kind) :
    (kind.payload minted user).get "tv" =
      if kind = .emailVerify then none else some (.int user.tokenVersion) := by
  cases kind <;> rfl

/-- The row that a session verifier looks up carries the version of the claims. -/
def VersionInForce (user : User) (users : ℤ → Option User) : Prop :=
  ∃ row, users user.id = some row ∧ row.tokenVersion = user.tokenVersion

theorem decodeToken_of_expired (hJwt : S.jwt.Lawful) {kind : Kind} {minted now : Time}
    (user : User) (hExpired : kind.expiry minted ≤ now) :
    decodeToken S now (mint S minted user kind) = .error ⟨401, "Token expired"⟩ := by
  unfold decodeToken
  rw [jwtDecode_mint hJwt, if_pos hExpired]

/-- A token that is not yet expired decodes to its payload. -/
theorem decodeToken_of_fresh (hJwt : S.jwt.Lawful) {kind : Kind} {minted now : Time}
    (user : User) (hFresh : now < kind.expiry minted) :
    decodeToken S now (mint S minted user kind) = .ok (kind.payload minted user) := by
  unfold decodeToken
  rw [jwtDecode_mint hJwt, if_neg (not_le.mpr hFresh)]

/-- The version claim of a minted token matches a row. -/
theorem Kind.tv_eq_iff (minted : Time) (user row : User) (kind : Kind) :
    (kind.payload minted user).get "tv" = some (.int row.tokenVersion) ↔
      kind ≠ .emailVerify ∧ row.tokenVersion = user.tokenVersion := by
  rw [Kind.get_tv]
  split_ifs with hKind
  · simp [hKind]
  · simp [hKind, eq_comm]

/-- A notification socket is admitted on a fresh token with the version in
force, whatever the token was minted for, unless it carries no version. -/
theorem admitSocket_of_fresh (hJwt : S.jwt.Lawful) {kind : Kind} {minted now : Time} {user : User}
    {users : ℤ → Option User} (hKind : kind ≠ .emailVerify) (hFresh : now < kind.expiry minted)
    {row : User} (hRow : users user.id = some row)
    (hVersion : row.tokenVersion = user.tokenVersion) :
    admitSocket S now (mint S minted user kind) user.id users = some row := by
  have hTv := (Kind.tv_eq_iff minted user row kind).mpr ⟨hKind, hVersion⟩
  unfold admitSocket
  rw [decodeToken_of_fresh hJwt user hFresh]
  simp [Kind.get_userId, hRow, hTv]

/-- The handshake refuses every token that is expired, out of date or without a
version. -/
theorem admitSocket_rejects (hJwt : S.jwt.Lawful) {kind : Kind} {minted now : Time} {user : User}
    {users : ℤ → Option User}
    (h : ¬(kind ≠ .emailVerify ∧ now < kind.expiry minted ∧ VersionInForce user users))
    (userId : ℤ) : admitSocket S now (mint S minted user kind) userId users = none := by
  unfold admitSocket
  by_cases hFresh : now < kind.expiry minted
  · rw [decodeToken_of_fresh hJwt user hFresh]
    by_cases hId : userId = user.id
    · subst hId
      cases hRow : users user.id with
      | none => simp [Kind.get_userId]
      | some row =>
          have hTv : ¬(kind.payload minted user).get "tv" = some (.int row.tokenVersion) := by
            rw [Kind.tv_eq_iff]
            rintro ⟨hKind, hVersion⟩
            exact h ⟨hKind, hFresh, row, hRow, hVersion⟩
          simp [Kind.get_userId, hTv]
    · simp [Kind.get_userId, Ne.symm hId]
  · rw [decodeToken_of_expired hJwt user (not_lt.mp hFresh)]

theorem getCurrentUser_rejects (hJwt : S.jwt.Lawful) {kind : Kind} {minted now : Time}
    {user : User} {users : ℤ → Option User}
    (h : ¬(kind ≠ .emailVerify ∧ now < kind.expiry minted ∧ VersionInForce user users)) :
    Rejected (getCurrentUser S now (mint S minted user kind) users) := by
  unfold getCurrentUser
  by_cases hFresh : now < kind.expiry minted
  · rw [decodeToken_of_fresh hJwt user hFresh]
    simp only [bind, Except.bind, Kind.get_userId, selectUser]
    cases hRow : users user.id with
    | none => split_ifs <;> simp
    | some row =>
        have hTv : ¬(kind.payload minted user).get "tv" = some (.int row.tokenVersion) := by
          rw [Kind.tv_eq_iff]
          rintro ⟨hKind, hVersion⟩
          exact h ⟨hKind, hFresh, row, hRow, hVersion⟩
        split_ifs <;> simp [hTv]
  · rw [decodeToken_of_expired hJwt user (not_lt.mp hFresh)]
    exact (rejected_error _).bind _

/-- A minted token opens a session exactly as long as it is fresh, carries a
version and the version is in force. -/
theorem opensNoSession_iff (hJwt : S.jwt.Lawful) {kind : Kind} {minted now : Time} {user : User}
    {users : ℤ → Option User} :
    OpensNoSession S now (mint S minted user kind) users ↔
      ¬(kind ≠ .emailVerify ∧ now < kind.expiry minted ∧ VersionInForce user users) := by
  constructor
  · rintro ⟨_, hSockets⟩ ⟨hKind, hFresh, row, hRow, hVersion⟩
    have hAdmitted := admitSocket_of_fresh hJwt hKind hFresh hRow hVersion
    rw [hSockets] at hAdmitted
    cases hAdmitted
  · intro h
    exact ⟨getCurrentUser_rejects hJwt h, admitSocket_rejects hJwt h⟩

end

/-- The kinds are separated except for one case: a password-reset token that
is still fresh, while the version it was minted with is in force. -/
theorem tokens_separated_iff {S : Settings} (hJwt : S.jwt.Lawful) (kind : Kind) (user : User)
    (minted now : Time) (users : ℤ → Option User) :
    Separated S now (mint S minted user kind) users kind ↔
      ¬(kind = .passwordReset ∧ now < kind.expiry minted ∧
        ∃ row, users user.id = some row ∧ row.tokenVersion = user.tokenVersion) := by
  cases kind with
  | access =>
      have hReset := decodePasswordResetToken_rejects hJwt
        (by decide : Kind.access ≠ .passwordReset) minted now user
      have hVerify := decodeEmailVerifyToken_rejects hJwt
        (by decide : Kind.access ≠ .emailVerify) minted now user
      exact iff_of_true ⟨hReset, hVerify⟩ (by simp)
  | passwordReset =>
      have hVerify := decodeEmailVerifyToken_rejects hJwt
        (by decide : Kind.passwordReset ≠ .emailVerify) minted now user
      rw [Separated, opensNoSession_iff hJwt, and_iff_left hVerify]
      simp [VersionInForce]
  | emailVerify =>
      have hReset := decodePasswordResetToken_rejects hJwt
        (by decide : Kind.emailVerify ≠ .passwordReset) minted now user
      rw [Separated, opensNoSession_iff hJwt, and_iff_left hReset]
      simp

def sampleUser : User := ⟨7, "chair", "chair@example.org", "argon2", 3, 0, none⟩

/-- An hour and a half after it was minted, an access token is as separated as
the theorem says. -/
theorem tokens_separated_sample :
    Separated plainSettings (minutes 90) (mint plainSettings 0 sampleUser .access)
      (fun _ => some sampleUser) .access :=
  (tokens_separated_iff plainJwt_lawful .access sampleUser 0 (minutes 90) _).mpr (by decide)

/-- A reset link that nobody has followed yet opens a session for its user. -/
theorem resetToken_opens_session : ¬∀ S : Settings, S.jwt.Lawful →
    ∀ (kind : Kind) (user : User) (minted now : Time) (users : ℤ → Option User),
      Separated S now (mint S minted user kind) users kind := by
  intro hAll
  have hSession := (hAll plainSettings plainJwt_lawful .passwordReset sampleUser 0 (minutes 30)
    fun _ => some sampleUser).1.1
  have hAccepted : getCurrentUser plainSettings (minutes 30)
      (mint plainSettings 0 sampleUser .passwordReset) (fun _ => some sampleUser) =
        .ok sampleUser := by rfl
  rw [hAccepted] at hSession
  exact not_rejected_ok sampleUser hSession

end OnlineAuction.Accounts
