import OnlineAuction.Accounts.Onboarding
import OnlineAuction.Library.Contracts
import OnlineAuction.Library.Typestate

/-! Registration and verification in any interleaving: an account and the mail with
its link come into being together, and an account becomes verified only through a
link that was mailed to its own address. -/

namespace OnlineAuction.Accounts.Onboarding

open RowLocks

variable {S : Settings} {L : Lowering} {rows : List Account} {U : Prop} {d d' : State S}

/-- The mail carries the link of the user, to the user's address. -/
structure VerificationEmail.MadeFor (mail : VerificationEmail S) (user : User) : Prop where
  toEmail : mail.toEmail = user.email
  token : mail.token = createEmailVerifyToken S mail.issuedAt user
  requestedBy : mail.requestedBy = user.id

/-- A token that the code signed and did not mail for verification. -/
def OtherToken (token : S.jwt.Token) : Prop :=
  ∃ minted user kind, kind ≠ Kind.emailVerify ∧ token = mint S minted user kind

def State.Mailed (d : State S) (token : S.jwt.Token) : Prop :=
  ∃ i mail, d.emailOutbox.get i = some mail ∧ mail.token = token

/-- Nobody forges signatures, and a link that was never committed to the outbox is
seen by nobody. -/
def Unforged (S : Settings) : Guard (onboarding S) := fun d _ e =>
  match e with
  | .clock (some token) t => (∃ payload, jwtDecode S t token = .ok payload) →
      d.Mailed token ∨ OtherToken token
  | _ => True

structure OwnLink (d : State S) (user : User) (token : S.jwt.Token) (presentedAt : Time)
    (mail : VerificationEmail S) : Prop where
  mailed : ∃ i, d.emailOutbox.get i = some mail
  token : mail.token = token
  madeFor : mail.MadeFor user
  inForce : presentedAt < Kind.emailVerify.expiry mail.issuedAt

/-- What an accepted link says of itself. -/
theorem decodeEmailVerifyToken_mint (hJwt : S.jwt.Lawful) {minted now : Time} {user : User}
    {userId : ℤ} {email : String}
    (h : decodeEmailVerifyToken S now (createEmailVerifyToken S minted user) = .ok (userId, email)) :
    userId = user.id ∧ email = user.email ∧ now < Kind.emailVerify.expiry minted := by
  have hDecode := jwtDecode_mint hJwt minted now user .emailVerify
  rw [mint] at hDecode
  unfold decodeEmailVerifyToken decodePurposeToken at h
  rw [hDecode] at h
  by_cases hExpired : Kind.emailVerify.expiry minted ≤ now
  · rw [if_pos hExpired] at h
    cases h
  · rw [if_neg hExpired] at h
    have hPurpose : (Kind.emailVerify.payload minted user).get "purpose" =
        some (.str emailVerifyPurpose) := Kind.get_purpose minted user .emailVerify
    simp only [hPurpose, ne_eq, not_true_eq_false, if_false] at h
    cases h
    exact ⟨rfl, rfl, not_le.mp hExpired⟩

inductive Transaction (L : Lowering) (U : Prop) (d : State S) : State S → Prop where
  | idle : Transaction L U d d
  | register (username email hashedPassword : String) (issuedAt nextAttemptAt createdAt : Time)
      (hFolded : L.lower username = username ∧ L.lower email = email) :
      Transaction L U d
        ({ d with users := d.users.add (newAccount username email hashedPassword) }.enqueueEmail
          (verificationEmail S (newAccount username email hashedPassword d.users.serial).user
            issuedAt nextAttemptAt createdAt true))
  | resend (user : User) (row : Account) (issuedAt nextAttemptAt createdAt : Time)
      (hRow : d.users.get user.id = some row) (hUser : row.user = user) :
      Transaction L U d
        (d.enqueueEmail (verificationEmail S user issuedAt nextAttemptAt createdAt false))
  | verify (loaded row : Account) (token : S.jwt.Token) (presentedAt : Time)
      (hRow : d.users.get loaded.user.id = some row) (hUser : row.user = loaded.user)
      (hUnverified : loaded.emailVerified = false)
      (hLink : U → ∃ mail, OwnLink d loaded.user token presentedAt mail) :
      Transaction L U d
        ((d.flushAccount loaded { loaded with emailVerified := true }).recordVerification
          ⟨loaded.user.id, token, presentedAt⟩)

/-- A verified account, with the link that verified it. -/
def ByOwnLink (d : State S) (id : UserId) (user : User) : Prop :=
  ∃ verification ∈ d.verifications, ∃ mail, verification.userId = id ∧
    OwnLink d user verification.token verification.presentedAt mail

structure Sound (L : Lowering) (rows : List Account) (U : Prop) (d : State S) : Prop where
  started : rows.length < d.users.serial
  ids : ∀ id row, d.users.get id = some row → row.user.id = id
  mails : ∀ i mail, d.emailOutbox.get i = some mail →
    ∃ row, d.users.get mail.requestedBy = some row ∧ mail.MadeFor row.user
  registered : ∀ id row, d.users.get id = some row → rows.length < id →
    ∃ i mail, d.emailOutbox.get i = some mail ∧ mail.registration = true ∧ mail.requestedBy = id
  once : ∀ i j mail mail', d.emailOutbox.get i = some mail → d.emailOutbox.get j = some mail' →
    mail.registration = true → mail'.registration = true →
      mail.requestedBy = mail'.requestedBy → i = j
  opened : ∀ i mail, d.emailOutbox.get i = some mail → mail.registration = true →
    rows.length < mail.requestedBy
  folded : ∀ id row, d.users.get id = some row → rows.length < id →
    L.lower row.user.username = row.user.username ∧ L.lower row.user.email = row.user.email
  verified : U → ∀ id row, d.users.get id = some row → row.emailVerified = true →
    (∃ old, (State.initial (S := S) rows).users.get id = some old ∧ old.emailVerified = true) ∨
      ByOwnLink d id row.user

structure Grows (d d' : State S) : Prop where
  users : ∀ id row, d.users.get id = some row → ∃ row', d'.users.get id = some row' ∧
    row'.user = row.user ∧ (row.emailVerified = true → row'.emailVerified = true)
  mails : ∀ i mail, d.emailOutbox.get i = some mail → d'.emailOutbox.get i = some mail

theorem Grows.refl (d : State S) : Grows d d :=
  ⟨fun _ row hRow => ⟨row, hRow, rfl, fun h => h⟩, fun _ _ hMail => hMail⟩

theorem Grows.trans {d'' : State S} (h : Grows d d') (h' : Grows d' d'') : Grows d d'' where
  users id row hRow := by
    obtain ⟨row', hRow', hUser, hVerified⟩ := h.users id row hRow
    obtain ⟨row'', hRow'', hUser', hVerified'⟩ := h'.users id row' hRow'
    exact ⟨row'', hRow'', hUser'.trans hUser, hVerified' ∘ hVerified⟩
  mails i mail hMail := h'.mails i mail (h.mails i mail hMail)

theorem OwnLink.later {user : User} {token : S.jwt.Token} {presentedAt : Time}
    {mail : VerificationEmail S} (h : OwnLink d user token presentedAt mail) (hGrows : Grows d d') :
    OwnLink d' user token presentedAt mail := by
  obtain ⟨i, hMail⟩ := h.mailed
  exact ⟨⟨i, hGrows.mails i mail hMail⟩, h.token, h.madeFor, h.inForce⟩

/-- The write of `verify_email` changes one column. -/
theorem flush_verified {loaded row : Account} (hUser : row.user = loaded.user)
    (hUnverified : loaded.emailVerified = false) :
    Account.flush loaded { loaded with emailVerified := true } row =
      { row with emailVerified := true } := by
  obtain ⟨user, verified⟩ := row
  obtain rfl : user = loaded.user := hUser
  simp [Account.flush, column, hUnverified]

theorem Grows.enqueueEmail (d : State S) (mail : VerificationEmail S) :
    Grows d (d.enqueueEmail mail) :=
  ⟨fun _ row hRow => ⟨row, hRow, rfl, fun h => h⟩, fun _ _ hMail => Table.get_add_old hMail _⟩

theorem Transaction.grows (h : Transaction L U d d') : Grows d d' := by
  cases h with
  | idle => exact .refl d
  | register username email hashedPassword =>
      constructor
      · exact fun id row hRow => ⟨row, Table.get_add_old hRow _, rfl, fun h => h⟩
      · exact fun i mail hMail => Table.get_add_old hMail _
  | resend => exact .enqueueEmail d _
  | verify loaded row token presentedAt hRow hUser hUnverified =>
      refine ⟨fun id old hOld => ?_, fun _ _ hMail => hMail⟩
      show ∃ row', (d.users.modify loaded.user.id _).get id = some row' ∧ _
      by_cases hId : id = loaded.user.id
      · subst hId
        rw [hRow, Option.some.injEq] at hOld
        subst hOld
        refine ⟨{ row with emailVerified := true }, ?_, rfl, fun _ => rfl⟩
        rw [Table.get_modify_self, hRow, Option.map_some, flush_verified hUser hUnverified]
      · exact ⟨old, by rwa [Table.get_modify_other _ _ hId], rfl, fun h => h⟩

/-- An account verified through its own link stays so. -/
theorem ByOwnLink.later {id : UserId} {user : User} (h : ByOwnLink d id user) (hGrows : Grows d d')
    (hVerifications : ∀ v ∈ d.verifications, v ∈ d'.verifications) : ByOwnLink d' id user := by
  obtain ⟨v, hMem, mail, hId, hLink⟩ := h
  exact ⟨v, hVerifications v hMem, mail, hId, hLink.later hGrows⟩

/-- A mail for an account that is there, when the accounts stay. -/
theorem Sound.mails_later (h : Sound L rows U d) (hGrows : Grows d d') {i : Nat}
    {mail : VerificationEmail S} (hMail : d.emailOutbox.get i = some mail) :
    ∃ row, d'.users.get mail.requestedBy = some row ∧ mail.MadeFor row.user := by
  obtain ⟨row, hRow, hMade⟩ := h.mails i mail hMail
  obtain ⟨row', hRow', hUser, _⟩ := hGrows.users _ row hRow
  exact ⟨row', hRow', hUser ▸ hMade⟩

namespace Sound

/-- A link sent again. -/
theorem resend (h : Sound L rows U d) {user : User} {row : Account}
    (hRow : d.users.get user.id = some row) (hUser : row.user = user)
    (issuedAt nextAttemptAt createdAt : Time) :
    Sound L rows U
      (d.enqueueEmail (verificationEmail S user issuedAt nextAttemptAt createdAt false)) := by
  set new := verificationEmail S user issuedAt nextAttemptAt createdAt false
  have hGrows := Grows.enqueueEmail d new
  have hOld {i : Nat} {mail : VerificationEmail S}
      (hMail : (d.enqueueEmail new).emailOutbox.get i = some mail) :
      d.emailOutbox.get i = some mail ∨ mail = new :=
    (Table.of_get_add hMail).symm.imp_right And.right
  have hFirst {i : Nat} {mail : VerificationEmail S}
      (hMail : (d.enqueueEmail new).emailOutbox.get i = some mail)
      (hRegistration : mail.registration = true) : d.emailOutbox.get i = some mail := by
    rcases hOld hMail with hBefore | rfl
    · exact hBefore
    · cases hRegistration
  constructor
  case started => exact h.started
  case ids => exact h.ids
  case mails =>
    intro i mail hMail
    rcases hOld hMail with hBefore | rfl
    · exact h.mails i mail hBefore
    · exact ⟨row, hRow, hUser ▸ ⟨rfl, rfl, rfl⟩⟩
  case registered =>
    intro id row hStored hNew
    obtain ⟨i, mail, hMail, hKind⟩ := h.registered id row hStored hNew
    exact ⟨i, mail, hGrows.mails i mail hMail, hKind⟩
  case once =>
    intro i j mail mail' hMail hMail' hFirst₁ hFirst₂
    exact h.once i j mail mail' (hFirst hMail hFirst₁) (hFirst hMail' hFirst₂) hFirst₁ hFirst₂
  case opened => exact fun i mail hMail hKind => h.opened i mail (hFirst hMail hKind) hKind
  case folded => exact h.folded
  case verified =>
    intro hU id stored hStored hVerified
    exact (h.verified hU id stored hStored hVerified).imp_right fun hLink =>
      hLink.later hGrows fun _ hMem => hMem

/-- No mail was asked for by an account that is yet to come. -/
theorem requestedBy_ne (h : Sound L rows U d) {i : Nat} {mail : VerificationEmail S}
    (hMail : d.emailOutbox.get i = some mail) : mail.requestedBy ≠ d.users.serial := by
  obtain ⟨row, hRow, _⟩ := h.mails i mail hMail
  exact (Table.lt_serial hRow).ne

/-- A new account with its link. -/
theorem register (h : Sound L rows U d) {username email : String}
    (hFolded : L.lower username = username ∧ L.lower email = email) (hashedPassword : String)
    (issuedAt nextAttemptAt createdAt : Time) :
    Sound L rows U
      ({ d with users := d.users.add (newAccount username email hashedPassword) }.enqueueEmail
        (verificationEmail S (newAccount username email hashedPassword d.users.serial).user
          issuedAt nextAttemptAt createdAt true)) := by
  set account := newAccount username email hashedPassword
  set new := verificationEmail S (account d.users.serial).user issuedAt nextAttemptAt createdAt true
  set next := { d with users := d.users.add account }.enqueueEmail new
  have hGrows : Grows d next := by
    constructor
    · exact fun id row hRow => ⟨row, Table.get_add_old hRow _, rfl, fun h => h⟩
    · exact fun i mail hMail => Table.get_add_old hMail _
  have hUsers {id : UserId} {row : Account} (hRow : next.users.get id = some row) :
      id = d.users.serial ∧ row = account id ∨ d.users.get id = some row :=
    Table.of_get_add hRow
  have hMails {i : Nat} {mail : VerificationEmail S}
      (hMail : next.emailOutbox.get i = some mail) :
      i = d.emailOutbox.serial ∧ mail = new ∨ d.emailOutbox.get i = some mail :=
    Table.of_get_add hMail
  have hNewRow : next.users.get d.users.serial = some (account d.users.serial) := by
    show (d.users.add account).get _ = _
    simp
  have hNewMail : next.emailOutbox.get d.emailOutbox.serial = some new := by
    show (d.emailOutbox.add fun _ => new).get _ = _
    simp
  constructor
  case started => exact h.started.trans (Nat.lt_succ_self _)
  case ids =>
    intro id row hRow
    rcases hUsers hRow with ⟨_, rfl⟩ | hRow
    · rfl
    · exact h.ids id row hRow
  case mails =>
    intro i mail hMail
    rcases hMails hMail with ⟨_, rfl⟩ | hMail
    · exact ⟨_, hNewRow, rfl, rfl, rfl⟩
    · exact h.mails_later hGrows hMail
  case registered =>
    intro id row hRow hLt
    rcases hUsers hRow with ⟨rfl, rfl⟩ | hRow
    · exact ⟨_, new, hNewMail, rfl, rfl⟩
    · obtain ⟨i, mail, hMail, hKind⟩ := h.registered id row hRow hLt
      exact ⟨i, mail, hGrows.mails i mail hMail, hKind⟩
  case once =>
    intro i j mail mail' hMail hMail' hFirst hFirst' hSame
    rcases hMails hMail with ⟨rfl, rfl⟩ | hMail
    · rcases hMails hMail' with ⟨rfl, rfl⟩ | hMail'
      · rfl
      · exact absurd hSame.symm (h.requestedBy_ne hMail')
    · rcases hMails hMail' with ⟨rfl, rfl⟩ | hMail'
      · exact absurd hSame (h.requestedBy_ne hMail)
      · exact h.once i j mail mail' hMail hMail' hFirst hFirst' hSame
  case opened =>
    intro i mail hMail hKind
    rcases hMails hMail with ⟨_, rfl⟩ | hMail
    · exact h.started
    · exact h.opened i mail hMail hKind
  case folded =>
    intro id row hRow hLt
    rcases hUsers hRow with ⟨_, rfl⟩ | hRow
    · exact hFolded
    · exact h.folded id row hRow hLt
  case verified =>
    intro hU id row hRow hVerified
    rcases hUsers hRow with ⟨_, rfl⟩ | hRow
    · cases hVerified
    · exact (h.verified hU id row hRow hVerified).imp_right fun hLink =>
        hLink.later hGrows fun _ hMem => hMem

/-- An account verified by its own link. -/
theorem verify (h : Sound L rows U d) {loaded row : Account} {token : S.jwt.Token}
    {presentedAt : Time} (hRow : d.users.get loaded.user.id = some row)
    (hUser : row.user = loaded.user) (hUnverified : loaded.emailVerified = false)
    (hLink : U → ∃ mail, OwnLink d loaded.user token presentedAt mail) :
    Sound L rows U
      ((d.flushAccount loaded { loaded with emailVerified := true }).recordVerification
        ⟨loaded.user.id, token, presentedAt⟩) := by
  have hGrows : Grows d
      ((d.flushAccount loaded { loaded with emailVerified := true }).recordVerification
        ⟨loaded.user.id, token, presentedAt⟩) :=
    (Transaction.verify (L := L) (U := U) loaded row token presentedAt hRow hUser hUnverified
      hLink).grows
  set next := (d.flushAccount loaded { loaded with emailVerified := true }).recordVerification
    ⟨loaded.user.id, token, presentedAt⟩
  have hUsers {id : UserId} {new : Account} (hNew : next.users.get id = some new) :
      ∃ old, d.users.get id = some old ∧ new.user = old.user ∧
        (new.emailVerified = true → id = loaded.user.id ∨ old.emailVerified = true) := by
    have hNew : (d.users.modify loaded.user.id _).get id = some new := hNew
    by_cases hId : id = loaded.user.id
    · subst hId
      rw [Table.get_modify_self, hRow, Option.map_some, Option.some.injEq,
        flush_verified hUser hUnverified] at hNew
      subst hNew
      exact ⟨row, hRow, rfl, fun _ => .inl rfl⟩
    · rw [Table.get_modify_other _ _ hId] at hNew
      exact ⟨new, hNew, rfl, .inr⟩
  constructor
  case started => exact h.started
  case ids =>
    intro id new hNew
    obtain ⟨old, hOld, hSame, _⟩ := hUsers hNew
    rw [hSame]
    exact h.ids id old hOld
  case mails => exact fun i mail hMail => h.mails_later hGrows hMail
  case registered =>
    intro id new hNew hLt
    obtain ⟨old, hOld, _⟩ := hUsers hNew
    exact h.registered id old hOld hLt
  case once => exact h.once
  case opened => exact h.opened
  case folded =>
    intro id new hNew hLt
    obtain ⟨old, hOld, hSame, _⟩ := hUsers hNew
    rw [hSame]
    exact h.folded id old hOld hLt
  case verified =>
    intro hU id new hNew hVerified
    obtain ⟨old, hOld, hSame, hWhich⟩ := hUsers hNew
    rw [hSame]
    by_cases hId : id = loaded.user.id
    · right
      subst hId
      rw [hRow, Option.some.injEq] at hOld
      obtain ⟨mail, hOwn⟩ := hLink hU
      refine ⟨⟨loaded.user.id, token, presentedAt⟩, by simp [next, State.recordVerification],
        mail, rfl, ?_⟩
      rw [← hOld, hUser]
      exact hOwn.later hGrows
    · have hBefore := (hWhich hVerified).resolve_left hId
      refine (h.verified hU id old hOld hBefore).imp_right fun hOwn => hOwn.later hGrows ?_
      intro v hMem
      exact List.mem_append_left _ hMem

theorem transaction (h : Sound L rows U d) (hMay : Transaction L U d d') : Sound L rows U d' := by
  cases hMay with
  | idle => exact h
  | register username email hashedPassword issuedAt nextAttemptAt createdAt hFolded =>
      exact h.register hFolded hashedPassword issuedAt nextAttemptAt createdAt
  | resend user row issuedAt nextAttemptAt createdAt hRow hUser =>
      exact h.resend hRow hUser issuedAt nextAttemptAt createdAt
  | verify loaded row token presentedAt hRow hUser hUnverified hLink =>
      exact h.verify hRow hUser hUnverified hLink

end Sound

def rules (S : Settings) (L : Lowering) (rows : List Account) (U : Prop) :
    Discipline (onboarding S) where
  ok d held e := U → Unforged S d held e
  inv := Sound L rows U
  may _ := Transaction L U
  inv_may := fun h hMay => h.transaction hMay
  may_observe _ _ _ := .idle

theorem Grows.of_rely {held : Held (onboarding S)} (h : (rules S L rows U).Rely held d d') :
    Grows d d' := by
  refine h.lift (r := Grows) Grows.refl Grows.trans ?_
  intro d d' hStep
  obtain ⟨_, _, _, hMay⟩ := hStep
  exact hMay.grows

section Contracts

variable {held : Held (onboarding S)}

theorem wp_utcnow {post : Time → Held (onboarding S) → State S → Prop}
    (hPost : ∀ d' t, (rules S L rows U).Rely held d d' → post t held d') :
    (rules S L rows U).wp (utcnow S) held post d := by
  intro d' t hRely _ _ _
  exact hPost d' t hRely

theorem wp_query {α : Type} {select : State S → α}
    {post : α → Held (onboarding S) → State S → Prop}
    (hPost : ∀ d', (rules S L rows U).Rely held d d' → Sound L rows U d' →
      post (select d') held d') :
    (rules S L rows U).wp (query S select) held post d := by
  intro d' hRely hSound _
  exact hPost d' hRely hSound

/-- Registration keeps the contract: account and mail are committed together. -/
theorem register_safe (user : UserCreate) :
    (rules S L rows U).Safe (register S L user) Held.none d := by
  unfold Discipline.Safe register
  simp only [Discipline.wp_bind, Discipline.wp_raiseIf, Discipline.wp_ofExcept]
  apply wp_query
  intro d₁ _ _
  apply wp_query
  intro d₂ _ _ _ hashedPassword _
  apply wp_utcnow
  intro d₃ issuedAt _
  apply wp_utcnow
  intro d₄ nextAttemptAt _
  apply wp_utcnow
  intro d₅ createdAt _ d₆ _ _
  constructor
  · intro _
    refine ⟨.register _ _ hashedPassword issuedAt nextAttemptAt createdAt
      ⟨L.lower_lower _, L.lower_lower _⟩, ?_⟩
    rw [Discipline.wp_bind, Discipline.wp_orRaise]
    intro _ _
    rw [Discipline.wp_bind]
    apply wp_query
    intro d₇ _ _
    rw [Discipline.wp_bind]
    apply wp_utcnow
    intro d₈ _ _
    trivial
  · rw [Discipline.wp_bind, Discipline.wp_orRaise]
    intro _ hNone
    cases hNone

theorem resend_safe (userId : UserId) :
    (rules S L rows U).Safe (resendVerificationEmail S userId) Held.none d := by
  unfold Discipline.Safe resendVerificationEmail
  rw [Discipline.wp_bind]
  apply wp_query
  intro d₁ _ hSound
  rw [Discipline.wp_bind, Discipline.wp_orRaise]
  intro currentUser hUser
  simp only [Discipline.wp_bind, Discipline.wp_raiseIf]
  intro _
  apply wp_utcnow
  intro d₂ issuedAt h₂
  apply wp_utcnow
  intro d₃ nextAttemptAt h₃
  apply wp_utcnow
  intro d₄ createdAt h₄ d₅ h₅ _
  have hId := hSound.ids userId currentUser hUser
  obtain ⟨row, hRow, hSame, _⟩ :=
    (Grows.of_rely (h₂.trans (h₃.trans (h₄.trans h₅)))).users userId currentUser hUser
  constructor
  · intro _
    refine ⟨.resend currentUser.user row issuedAt nextAttemptAt createdAt (hId ▸ hRow) hSame, ?_⟩
    rw [Discipline.wp_bind, Discipline.wp_orRaise]
    intro _ _
    trivial
  · rw [Discipline.wp_bind, Discipline.wp_orRaise]
    intro _ hNone
    cases hNone

/-- A link that is accepted was mailed to the account that it is for. -/
theorem Sound.ownLink (hSound : Sound L rows U d) (hJwt : S.jwt.Lawful) {token : S.jwt.Token}
    {now : Time} {userId : ℤ} {email : String}
    (hUnforged : (∃ payload, jwtDecode S now token = .ok payload) →
      d.Mailed token ∨ OtherToken token)
    (hDecoded : decodeEmailVerifyToken S now token = .ok (userId, email)) :
    ∃ row mail, d.users.get mail.requestedBy = some row ∧ userId = mail.requestedBy ∧
      OwnLink d row.user token now mail := by
  have hOpened : ∃ payload, jwtDecode S now token = .ok payload := by
    unfold decodeEmailVerifyToken decodePurposeToken at hDecoded
    cases hJwtDecode : jwtDecode S now token with
    | ok payload => exact ⟨payload, rfl⟩
    | error e =>
        rw [hJwtDecode] at hDecoded
        cases e <;> cases hDecoded
  rcases hUnforged hOpened with ⟨i, mail, hMail, hToken⟩ | ⟨minted, user, kind, hKind, rfl⟩
  · obtain ⟨row, hRow, hMade⟩ := hSound.mails i mail hMail
    rw [← hToken, hMade.token] at hDecoded
    obtain ⟨hId, _, hInForce⟩ := decodeEmailVerifyToken_mint hJwt hDecoded
    refine ⟨row, mail, hRow, ?_, ⟨⟨i, hMail⟩, hToken, hMade, hInForce⟩⟩
    rw [hId, hMade.requestedBy]
  · obtain ⟨e, hRejected⟩ := decodeEmailVerifyToken_rejects hJwt hKind minted now user
    rw [hRejected] at hDecoded
    cases hDecoded

/-- A verification keeps the contract: the account is the one that the link
names. -/
theorem verifyEmail_safe (hJwt : U → S.jwt.Lawful) (token : S.jwt.Token) :
    (rules S L rows U).Safe (verifyEmail S token) Held.none d := by
  intro d₁ now _ hSound _ hOk
  rw [Discipline.wp_bind, Discipline.wp_ofExcept]
  rintro ⟨userId, claimedEmail⟩ hDecoded
  rw [Discipline.wp_bind]
  apply wp_query
  intro d₂ h₂ hSound₂
  rw [Discipline.wp_bind, Discipline.wp_orRaise]
  intro loaded hLoaded
  rw [Discipline.wp_bind, Discipline.wp_raiseIf]
  intro _
  obtain ⟨id, rfl, hRow⟩ : ∃ id : Nat, userId = id ∧ d₂.users.get id = some loaded := by
    cases userId with
    | ofNat id => exact ⟨id, rfl, hLoaded⟩
    | negSucc n => cases hLoaded
  have hId := hSound₂.ids id loaded hRow
  split_ifs with hVerified
  · trivial
  · intro d₃ h₃ _
    have hGrows := Grows.of_rely h₃
    obtain ⟨row, hRow₃, hSame, _⟩ := hGrows.users id loaded hRow
    refine ⟨fun _ => ⟨.verify loaded row token now (hId ▸ hRow₃) hSame (by simpa using hVerified) ?_,
      ?_⟩, ?_⟩
    · intro hU
      obtain ⟨old, mail, hOld, hOwner, hLink⟩ :=
        hSound.ownLink (hJwt hU) (hOk hU) hDecoded
      refine ⟨mail, ?_⟩
      obtain ⟨row', hRow', hUser, _⟩ := (Grows.of_rely h₂).users _ old hOld
      have hSameId : mail.requestedBy = id := by exact_mod_cast hOwner.symm
      rw [hSameId, hRow, Option.some.injEq] at hRow'
      rw [hRow', hUser]
      exact (hLink.later (Grows.of_rely h₂)).later hGrows
    · rw [Discipline.wp_bind, Discipline.wp_orRaise]
      intro _ _
      trivial
    · rw [Discipline.wp_bind, Discipline.wp_orRaise]
      intro _ hNone
      cases hNone

theorem handle_safe (hJwt : U → S.jwt.Lawful) (request : Request S) :
    (rules S L rows U).Safe (handle S L request) Held.none d := by
  cases request with
  | register user => exact register_safe user
  | verifyEmail token => exact verifyEmail_safe hJwt token
  | resend userId => exact resend_safe userId

end Contracts

theorem sound_initial (L : Lowering) (rows : List Account) (U : Prop) :
    Sound L rows U (State.initial (S := S) rows) := by
  constructor
  case started => exact Nat.lt_succ_self _
  case ids =>
    intro id row hRow
    cases id with
    | zero => cases hRow
    | succ n =>
        obtain ⟨old, _, rfl⟩ := Option.map_eq_some_iff.mp hRow
        rfl
  case mails => intro i mail hMail; cases hMail
  case registered =>
    intro id row hRow hLt
    exact absurd (Table.lt_serial hRow) (by show ¬id < rows.length + 1; omega)
  case once => intro i j mail mail' hMail; cases hMail
  case opened => intro i mail hMail; cases hMail
  case folded =>
    intro id row hRow hLt
    exact absurd (Table.lt_serial hRow) (by show ¬id < rows.length + 1; omega)
  case verified => exact fun _ id row hRow hVerified => .inl ⟨row, hRow, hVerified⟩

section Committing

open Typestate

/-- Reads and readings of the clock are told to a session that goes on as before. -/
theorem committing_query {α β : Type} (select : State S → α) (f : α → Prog (onboarding S) β)
    (post : β → Unit → Prop) :
    (committing (onboarding S)).Follows (query S select >>= f) post () ↔
      ∀ d : State S, (committing (onboarding S)).Follows (f (select d)) post () :=
  follows_bind ..

theorem committing_utcnow {β : Type} (f : Time → Prog (onboarding S) β) (post : β → Unit → Prop) :
    (committing (onboarding S)).Follows (utcnow S >>= f) post () ↔
      ∀ t, (committing (onboarding S)).Follows (f t) post () :=
  follows_bind ..

theorem handle_committing (request : Request S) :
    (committing (onboarding S)).Follows (handle S L request) (fun _ _ => True) () := by
  cases request with
  | register user =>
      show (committing (onboarding S)).Follows (register S L user) _ ()
      unfold register
      rw [committing_query]
      intro d
      rw [committing_query]
      intro d'
      rw [follows_bind, follows_raiseIf]
      intro _
      rw [follows_bind, follows_ofExcept]
      intro hashedPassword _
      rw [committing_utcnow]
      intro issuedAt
      rw [committing_utcnow]
      intro nextAttemptAt
      rw [committing_utcnow]
      intro createdAt
      refine ⟨trivial, fun d'' => ?_, ?_⟩
      · exact fun _ _ => trivial
      · trivial
  | verifyEmail token =>
      intro now
      rw [follows_bind, follows_ofExcept]
      intro claim _
      rw [committing_query]
      intro d
      rw [follows_bind, follows_orRaise]
      intro user _
      rw [follows_bind, follows_raiseIf]
      intro _
      split_ifs
      · trivial
      · exact ⟨trivial, fun _ => trivial, trivial⟩
  | resend userId =>
      show (committing (onboarding S)).Follows (resendVerificationEmail S userId) _ ()
      unfold resendVerificationEmail
      rw [committing_query]
      intro d
      rw [follows_bind, follows_orRaise]
      intro currentUser _
      rw [follows_bind, follows_raiseIf]
      intro _
      rw [committing_utcnow]
      intro issuedAt
      rw [committing_utcnow]
      intro nextAttemptAt
      rw [committing_utcnow]
      intro createdAt
      exact ⟨trivial, fun _ => trivial, trivial⟩

end Committing

theorem sound_of_reaches (hJwt : U → S.jwt.Lawful) {c : Config (onboarding S)}
    (run : Reaches (handle S L) (fun d held e => U → Unforged S d held e) (State.initial rows) c) :
    Sound L rows U c.db :=
  Discipline.invariant_of_reaches (P := rules S L rows U) (sound_initial L rows U)
    (fun request _ _ => handle_safe hJwt request) (sound_initial L rows U)
    (fun _ hSound hMay => hSound.transaction hMay) run

/-- What the unique indexes keep apart. -/
theorem State.apart (h : d.admits = true) {id id' : UserId} {row row' : Account}
    (hRow : d.users.get id = some row) (hRow' : d.users.get id' = some row')
    (hSame : row.user.username = row'.user.username ∨ row.user.email = row'.user.email) :
    id = id' := by
  unfold State.admits at h
  have hOuter := List.all_eq_true.mp h id (List.mem_range.mpr (Table.lt_serial hRow))
  have hInner := List.all_eq_true.mp hOuter id' (List.mem_range.mpr (Table.lt_serial hRow'))
  simp only [hRow, hRow', Bool.or_eq_true, Bool.and_eq_true, ne_eq, decide_eq_true_eq] at hInner
  rcases hInner with hId | ⟨hName, hAddress⟩
  · exact hId
  · rcases hSame with hSame | hSame
    · exact absurd hSame hName
    · exact absurd hSame hAddress

/-- In any interleaving of registrations and of requests about links: names and
addresses are unique, an account that was opened is stored in lower case and has one
mail with its link from its registration, and every mail is for an account, carries
its link and goes to its address. -/
theorem accounts_with_links (S : Settings) (L : Lowering) (rows : List Account)
    (hUnique : (State.initial (S := S) rows).admits = true) {c : Config (onboarding S)}
    (run : Reaches (handle S L) (fun _ _ _ => True) (State.initial rows) c) :
    (∀ id id' row row', c.db.users.get id = some row → c.db.users.get id' = some row' →
      row.user.username = row'.user.username ∨ row.user.email = row'.user.email → id = id') ∧
    (∀ id row, c.db.users.get id = some row → rows.length < id →
      (L.lower row.user.username = row.user.username ∧ L.lower row.user.email = row.user.email) ∧
      ∃! i, ∃ mail, c.db.emailOutbox.get i = some mail ∧ mail.registration = true ∧
        mail.requestedBy = id) ∧
    ∀ i mail, c.db.emailOutbox.get i = some mail →
      ∃ row, c.db.users.get mail.requestedBy = some row ∧ mail.MadeFor row.user := by
  have hSound : Sound L rows False c.db :=
    sound_of_reaches nofun (run.weaken fun _ _ _ _ => nofun)
  have hAdmits : c.db.admits = true :=
    admits_of_reaches handle_committing (fun _ _ _ h => h) hUnique run
  refine ⟨fun id id' row row' hRow hRow' => State.apart hAdmits hRow hRow', ?_, hSound.mails⟩
  intro id row hRow hNew
  refine ⟨hSound.folded id row hRow hNew, ?_⟩
  obtain ⟨i, mail, hMail, hKind, hOwner⟩ := hSound.registered id row hRow hNew
  refine ⟨i, ⟨mail, hMail, hKind, hOwner⟩, ?_⟩
  rintro j ⟨mail', hMail', hKind', hOwner'⟩
  exact hSound.once j i mail' mail hMail' hMail hKind' hKind (hOwner'.trans hOwner.symm)

/-- A registration, all of whose readings of the clock show zero. -/
def registers (user : UserCreate) : List (Action (onboarding plainSettings) (Request plainSettings)) :=
  [.start 1 (.register user), .step 1, .step 1] ++ List.replicate 3 (.clock 1 0) ++
    [.step 1, .step 1, .clock 1 0]

def dave : UserCreate :=
  ⟨⟨"Dave_1", by decide, by decide⟩, "Dave@example.org", ⟨"password", by decide⟩, 0⟩

/-- Dave's registration opens account 1 and mails it one link. -/
theorem accounts_with_links_dave : ∃ c : Config (onboarding plainSettings),
    (∃ row, c.db.users.get 1 = some row ∧ row.user.email = "dave@example.org") ∧
    ∃! i, ∃ mail, c.db.emailOutbox.get i = some mail ∧ mail.registration = true ∧
      mail.requestedBy = 1 := by
  obtain ⟨c, run, hRow⟩ := exists_reaches (handle plainSettings latinCyrillic) (fun _ _ _ => True)
    (State.initial []) (registers dave)
    (fun c => (c.db.users.get 1).any (·.user.email = "dave@example.org")) (by decide +kernel)
  obtain ⟨row, hRow, hEmail⟩ := (Option.any_eq_true _ _).mp hRow
  have hAll := accounts_with_links plainSettings latinCyrillic [] (by decide) run
  exact ⟨c, ⟨row, hRow, of_decide_eq_true hEmail⟩,
    (hAll.2.1 1 row hRow Nat.one_pos).2⟩

/-- As long as nobody forges signatures: an account is verified only if it was at the
start or if a link made for it was accepted, which was mailed to its own address and
was in force. What is verified stays verified. -/
theorem verified_through_own_link (S : Settings) (L : Lowering) (rows : List Account)
    (hJwt : S.jwt.Lawful) {c : Config (onboarding S)}
    (run : Reaches (handle S L) (Unforged S) (State.initial rows) c) :
    (∀ id row, c.db.users.get id = some row → row.emailVerified = true →
      (∃ old, (State.initial (S := S) rows).users.get id = some old ∧ old.emailVerified = true) ∨
        ByOwnLink c.db id row.user) ∧
    ∀ a c', advance (handle S L) c a = some c' → Meets (Unforged S) c a →
      ∀ id row, c.db.users.get id = some row → ∃ row', c'.db.users.get id = some row' ∧
        row'.user = row.user ∧ (row.emailVerified = true → row'.emailVerified = true) := by
  have run' : Reaches (handle S L) (fun d held e => True → Unforged S d held e)
      (State.initial rows) c := run.weaken fun _ _ _ h _ => h
  have hSound := sound_of_reaches (fun _ => hJwt) run'
  refine ⟨hSound.verified trivial, fun a c' hMoves hMeets => ?_⟩
  obtain ⟨_, hWrite⟩ := Discipline.may_of_reaches (P := rules S L rows True)
    (sound_initial L rows True) (fun request _ _ => handle_safe (fun _ => hJwt) request) run'
    hMoves fun sid e he _ => hMeets sid e he
  have hGrows : Grows c.db c'.db := by
    rcases hWrite with hSame | ⟨held, hMay⟩
    · rw [hSame]
      exact .refl _
    · exact hMay.grows
  exact hGrows.users

instance : DecidableEq plainSettings.jwt.Token := inferInstanceAs (DecidableEq (Payload × String))

def FirstLink : Guard (onboarding plainSettings) := fun d _ e =>
  match e with
  | .clock (some token) _ => (d.emailOutbox.get 0).any (fun mail => decide (mail.token = token)) = true
  | _ => True

instance (d : State plainSettings) (held : Held (onboarding plainSettings))
    (e : Event (onboarding plainSettings)) : Decidable (FirstLink d held e) :=
  match e with
  | .clock (some _) _ => inferInstanceAs (Decidable (_ = true))
  | .clock none _ | .read _ | .lock _ _ | .tryLock _ _ _ | .update _ | .commit _ =>
      inferInstanceAs (Decidable True)

/-- Dave opens the link of the mail that his registration has sent. -/
def opensLink : List (Action (onboarding plainSettings) (Request plainSettings)) :=
  [.start 2 (.verifyEmail (createEmailVerifyToken plainSettings 0
      ⟨1, "dave_1", "dave@example.org", "password", 0, 0, none⟩)), .clock 2 0, .step 2, .step 2]

/-- Dave's account is verified through the link that was mailed to it. -/
theorem verified_through_own_link_dave : ∃ c : Config (onboarding plainSettings),
    ∃ row, c.db.users.get 1 = some row ∧ row.emailVerified = true ∧ ByOwnLink c.db 1 row.user := by
  obtain ⟨c, run, hRow⟩ := exists_reaches (handle plainSettings latinCyrillic) FirstLink
    (State.initial []) (registers dave ++ opensLink)
    (fun c => (c.db.users.get 1).any (·.emailVerified)) (by decide +kernel)
  obtain ⟨row, hRow, hVerified⟩ := (Option.any_eq_true _ _).mp hRow
  refine ⟨c, row, hRow, hVerified, ?_⟩
  have hUnforged := run.weaken fun d held e (h : FirstLink d held e) =>
    show Unforged plainSettings d held e from by
      cases e with
      | clock note t =>
          cases note with
          | none => trivial
          | some token =>
              intro _
              obtain ⟨mail, hMail, hToken⟩ := (Option.any_eq_true _ _).mp h
              exact .inl ⟨0, mail, hMail, of_decide_eq_true hToken⟩
      | _ => trivial
  have hAll := verified_through_own_link plainSettings latinCyrillic [] plainJwt_lawful hUnforged
  rcases hAll.1 1 row hRow hVerified with ⟨old, hOld, _⟩ | hLink
  · cases hOld
  · exact hLink

end OnlineAuction.Accounts.Onboarding
