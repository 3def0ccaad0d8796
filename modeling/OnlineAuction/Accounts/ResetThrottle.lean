import OnlineAuction.Accounts.ResetRequests
import OnlineAuction.Library.Contracts

/-! The throttle on password-reset mail. A request holds the clock against the
`password_reset_sent_at` that it has read without a lock: the mails of an
account are a throttle apart in every run in which no other request for it
commits between the read and the commit of one, and in general only there. -/

namespace OnlineAuction.Accounts.Resets

open RowLocks

variable {S : Settings} {id : UserId} {d d' : State S}

/-- Any two mails for the account belong to requests a throttle apart. -/
def Throttled (id : UserId) (d : State S) : Prop :=
  ∀ i j mail mail', i ≠ j → d.emailOutbox.get i = some mail → d.emailOutbox.get j = some mail' →
    mail.requestedBy = id → mail'.requestedBy = id →
      seconds passwordResetThrottleSeconds ≤ |mail.requestedAt - mail'.requestedAt|

/-- A request that commits for the account finds its `password_reset_sent_at`
as it has read it. -/
def undisturbed (id : UserId) (d : State S) : Event (resets S) → Bool
  | .commit (some loaded) => loaded.user.id ≠ id ||
      (d.users.get id).map Account.passwordResetSentAt = some loaded.passwordResetSentAt
  | _ => true

def Undisturbed (S : Settings) (id : UserId) : Guard (resets S) := fun d _ e =>
  undisturbed id d e = true

instance (d : State S) (held : Held (resets S)) (e : Event (resets S)) :
    Decidable (Undisturbed S id d held e) :=
  inferInstanceAs (Decidable (undisturbed id d e = true))

/-- A mail whose column was not overwritten was throttled by the time that is
stored. -/
theorem undisturbed_commit {loaded row : Account}
    (h : undisturbed id d (.commit (some loaded)) = true) (hId : loaded.user.id = id)
    (hRow : d.users.get id = some row) :
    row.passwordResetSentAt = loaded.passwordResetSentAt := by
  simpa [undisturbed, hId, hRow] using h

def WellFormed (d : State S) : Prop :=
  ∀ key row, d.users.get key = some row → row.user.id = key

structure Noted (id : UserId) (d : State S) : Prop where
  throttled : Throttled id d
  sentAt : ∀ i mail, d.emailOutbox.get i = some mail → mail.requestedBy = id →
    ∃ row t, d.users.get id = some row ∧ row.passwordResetSentAt = some t ∧ mail.requestedAt ≤ t

def State.setSentAt (d : State S) (key : UserId) (t : Time) : State S :=
  { d with users := d.users.modify key fun row => { row with passwordResetSentAt := some t } }

structure Mailed (id : UserId) (d d' : State S) (loaded : Account) (mail : ResetEmail S) :
    Prop where
  stored : (d.users.get loaded.user.id).isSome = true
  current : undisturbed id d (.commit (some loaded)) = true
  elapsed : throttleOver loaded.passwordResetSentAt mail.requestedAt = true
  owner : mail.requestedBy = loaded.user.id
  after : d' = (d.setSentAt loaded.user.id mail.requestedAt).enqueueEmail mail

/-- The throttle is over when a minute has passed since the last mail. -/
theorem throttleOver_iff {last : Option Time} {now : Time} :
    throttleOver last now = true ↔
      ∀ t, last = some t → t + seconds passwordResetThrottleSeconds ≤ now := by
  cases last with
  | none => simp [throttleOver]
  | some t =>
      simp only [throttleOver, decide_eq_true_eq, Option.some.injEq, forall_eq']
      exact le_sub_iff_add_le'.trans Iff.rfl

/-- A request past the throttle changes one column. -/
theorem Account.flush_sentAt {loaded : Account} {now : Time}
    (hOver : throttleOver loaded.passwordResetSentAt now = true) :
    Account.flush loaded { loaded with passwordResetSentAt := some now } =
      fun row => { row with passwordResetSentAt := some now } := by
  funext row
  have hNew : some now ≠ loaded.passwordResetSentAt := by
    intro hSame
    have hLe := throttleOver_iff.mp hOver now hSame.symm
    have hPositive : 0 < seconds passwordResetThrottleSeconds := by decide
    linarith
  simp [Account.flush, User.flush, column, hNew]

theorem Mailed.wellFormed {loaded : Account} {mail : ResetEmail S}
    (h : Mailed id d d' loaded mail) (hWell : WellFormed d) : WellFormed d' := by
  intro key row hRow
  rw [h.after] at hRow
  by_cases hKey : key = loaded.user.id
  · subst hKey
    simp only [State.enqueueEmail, State.setSentAt, Table.get_modify_self,
      Option.map_eq_some_iff] at hRow
    obtain ⟨old, hOld, rfl⟩ := hRow
    exact hWell _ old hOld
  · apply hWell key row
    rwa [State.enqueueEmail, State.setSentAt, Table.get_modify_other _ _ hKey] at hRow

/-- The mail that a request adds comes a throttle after every other one for its
account. -/
theorem Mailed.later {loaded : Account} {mail : ResetEmail S} (h : Mailed id d d' loaded mail)
    (hNoted : Noted id d) (hOwner : mail.requestedBy = id) {i : Nat} {old : ResetEmail S}
    (hOld : d.emailOutbox.get i = some old) (hOldOwner : old.requestedBy = id) :
    old.requestedAt + seconds passwordResetThrottleSeconds ≤ mail.requestedAt := by
  obtain ⟨row, t, hRow, hSentAt, hLe⟩ := hNoted.sentAt i old hOld hOldOwner
  have hLoaded := undisturbed_commit h.current (h.owner.symm.trans hOwner) hRow
  have hOver := throttleOver_iff.mp h.elapsed t (hLoaded.symm.trans hSentAt)
  linarith

theorem Mailed.noted {loaded : Account} {mail : ResetEmail S} (h : Mailed id d d' loaded mail)
    (hNoted : Noted id d) : Noted id d' := by
  have hPositive : 0 < seconds passwordResetThrottleSeconds := by decide
  have hMails (i : Nat) : d'.emailOutbox.get i =
      if i = d.emailOutbox.serial then some mail else d.emailOutbox.get i := by
    rw [h.after]
    rfl
  have hUsers : d'.users = d.users.modify loaded.user.id
      fun row => { row with passwordResetSentAt := some mail.requestedAt } := by
    rw [h.after]
    rfl
  refine ⟨?_, ?_⟩
  · intro i j first second hNe hFirst hSecond hFirstOwner hSecondOwner
    rw [hMails] at hFirst hSecond
    split_ifs at hFirst hSecond with hI hJ hJ
    · exact absurd (hI.trans hJ.symm) hNe
    · obtain rfl := Option.some.inj hFirst
      have hLater := h.later hNoted hFirstOwner hSecond hSecondOwner
      exact (le_sub_iff_add_le'.mpr hLater).trans (le_abs_self _)
    · obtain rfl := Option.some.inj hSecond
      have hLater := h.later hNoted hSecondOwner hFirst hFirstOwner
      rw [abs_sub_comm]
      exact (le_sub_iff_add_le'.mpr hLater).trans (le_abs_self _)
    · exact hNoted.throttled i j first second hNe hFirst hSecond hFirstOwner hSecondOwner
  · intro i added hMail hOwner
    rw [hMails] at hMail
    rw [hUsers]
    split_ifs at hMail with hNew
    · obtain rfl := Option.some.inj hMail
      obtain rfl : loaded.user.id = id := h.owner.symm.trans hOwner
      obtain ⟨row, hRow⟩ := Option.isSome_iff_exists.mp h.stored
      exact ⟨_, mail.requestedAt, by rw [Table.get_modify_self, hRow]; rfl, rfl, le_rfl⟩
    · obtain ⟨row, t, hRow, hSentAt, hLe⟩ := hNoted.sentAt i added hMail hOwner
      by_cases hId : id = loaded.user.id
      · subst hId
        refine ⟨_, mail.requestedAt, by rw [Table.get_modify_self, hRow]; rfl, rfl, ?_⟩
        have hLoaded := undisturbed_commit h.current rfl hRow
        have hOver := throttleOver_iff.mp h.elapsed t (hLoaded.symm.trans hSentAt)
        linarith
      · exact ⟨row, t, by rw [Table.get_modify_other _ _ hId]; exact hRow, hSentAt, hLe⟩

def rules (S : Settings) (id : UserId) : Discipline (resets S) where
  ok := Undisturbed S id
  inv := WellFormed
  may _ d d' := d' = d ∨ ∃ loaded mail, Mailed id d d' loaded mail
  inv_may hInv hMay := by
    rcases hMay with rfl | ⟨loaded, mail, hMailed⟩
    · exact hInv
    · exact hMailed.wellFormed hInv
  may_observe _ _ _ := .inl rfl

/-- No request removes an account. -/
theorem isSome_of_rely {held : Held (resets S)} (h : (rules S id).Rely held d d') {key : UserId}
    (hStored : (d.users.get key).isSome = true) : (d'.users.get key).isSome = true := by
  refine h.lift (r := fun d d' : State S =>
    (d.users.get key).isSome = true → (d'.users.get key).isSome = true) (fun _ => fun h => h)
    (fun h h' hStored => h' (h hStored)) ?_ hStored
  intro d d' hStep hStored
  obtain ⟨_, _, _, rfl | ⟨loaded, mail, hMailed⟩⟩ := hStep
  · exact hStored
  · rw [hMailed.after]
    show ((d.users.modify _ _).get key).isSome = true
    by_cases hKey : key = loaded.user.id
    · subst hKey
      rw [Table.get_modify_self, Option.isSome_map]
      exact hStored
    · rw [Table.get_modify_other _ _ hKey]
      exact hStored

theorem userByEmail_stored (hWell : WellFormed d) {email : String} {loaded : Account}
    (h : d.userByEmail email = some loaded) : (d.users.get loaded.user.id).isSome = true := by
  obtain ⟨key, _, hRow⟩ := List.mem_filterMap.mp (List.mem_of_find?_eq_some h)
  rw [hWell key loaded hRow, hRow]
  rfl

section Contracts

variable {held : Held (resets S)}

theorem wp_utcnow {post : Time → Held (resets S) → State S → Prop} :
    (rules S id).wp (utcnow S) held post d ↔
      ∀ d' t, (rules S id).Rely held d d' → WellFormed d' → post t held d' := by
  constructor
  · exact fun h d' t hRely hWell => h d' t hRely hWell rfl rfl
  · exact fun h d' t hRely hWell _ _ => h d' t hRely hWell

/-- The mail is for the account, and the accounts are still there. -/
theorem wp_sendPasswordResetEmail {user : User} {requestedAt : Time}
    {post : ResetEmail S → Held (resets S) → State S → Prop}
    (hPost : ∀ mail d', (rules S id).Rely held d d' → mail.requestedBy = user.id →
      mail.requestedAt = requestedAt → post mail held d') :
    (rules S id).wp (sendPasswordResetEmail S user requestedAt) held post d := by
  simp only [sendPasswordResetEmail, Discipline.wp_bind, wp_utcnow]
  intro first _ hFirst _ second _ hSecond _ third _ hThird _
  exact hPost _ third (hFirst.trans (hSecond.trans hThird)) rfl rfl

theorem passwordResetRequest_safe (email : String) :
    (rules S id).Safe (passwordResetRequest S email) Held.none d := by
  intro first hFirst hWell hOk
  cases hFound : first.userByEmail email with
  | none => simp only [hFound, Discipline.wp_pure]
  | some loaded =>
      have hStored := userByEmail_stored hWell hFound
      simp only [hFound, Discipline.wp_bind, wp_utcnow]
      intro second now hSecond hWell
      split_ifs with hOver
      · rw [Discipline.wp_bind]
        apply wp_sendPasswordResetEmail
        intro mail third hThird hOwner hRequestedAt last hLast hWell
        refine ⟨fun hOk => ⟨.inr ⟨loaded, mail, ?_, hOk, hRequestedAt ▸ hOver, hOwner, ?_⟩, ?_⟩, ?_⟩
        · exact isSome_of_rely (hSecond.trans (hThird.trans hLast)) hStored
        · simp only [State.flushAccount, Account.flush_sentAt hOver, State.setSentAt, hRequestedAt]
        · simp only [Discipline.wp_bind, Discipline.wp_orRaise]
          intro _ _ _ _ _ _
          simp only [Discipline.wp_bind, Discipline.wp_orRaise]
          intro _ _
          trivial
        · simp only [Discipline.wp_bind, Discipline.wp_orRaise]
          intro _ hNone
          cases hNone
      · trivial

end Contracts

theorem wellFormed_initial (rows : List Account) : WellFormed (State.initial (S := S) rows) := by
  intro key row hRow
  cases key with
  | zero => cases hRow
  | succ n =>
      obtain ⟨old, _, rfl⟩ := Option.map_eq_some_iff.mp hRow
      rfl

/-- Over any number of sessions: as long as no other request for the account
commits between the read and the commit of one, any two of its mails are a
throttle apart. -/
theorem resets_throttled (S : Settings) (rows : List Account) (id : UserId)
    {c : Config (resets S)}
    (run : Reaches (passwordResetRequest S) (Undisturbed S id) (State.initial rows) c) :
    Throttled id c.db := by
  have hNoted : Noted id c.db := by
    apply Discipline.invariant_of_reaches (P := rules S id) (wellFormed_initial rows)
      (fun email d _ => passwordResetRequest_safe email) _ _ run
    · constructor
      · intro i j mail mail' _ hMail
        cases hMail
      · intro i mail hMail
        cases hMail
    · intro held d d' _ hNoted hMay
      rcases hMay with rfl | ⟨loaded, mail, hMailed⟩
      · exact hNoted
      · exact hMailed.noted hNoted
  exact hNoted.throttled

def carol : Account := ⟨⟨1, "carol", "carol@example.org", "password", 0, 0, none⟩, none⟩

/-- A request of the session up to its commit, with all its readings at one time. -/
def requests (sid : Nat) (now : Time) : List (Action (resets plainSettings) String) :=
  [.start sid "carol@example.org", .step sid] ++ List.replicate 4 (.clock sid now)

def mails (rows : List (ResetEmail plainSettings)) : List (UserId × Time) :=
  rows.map fun mail => (mail.requestedBy, mail.requestedAt)

/-- Carol asks at 0 and at 60 seconds and is mailed both times. -/
theorem resets_throttled_carol : ∃ c : Config (resets plainSettings),
    mails ((List.range 3).filterMap c.db.emailOutbox.get) = [(1, 0), (1, seconds 60)] ∧
      Throttled 1 c.db := by
  obtain ⟨c, run, hMails⟩ := exists_reaches (passwordResetRequest plainSettings)
    (Undisturbed plainSettings 1) (State.initial [carol])
    (requests 1 0 ++ [.step 1] ++ requests 2 (seconds 60) ++ [.step 2])
    (fun c => mails ((List.range 3).filterMap c.db.emailOutbox.get) = [(1, 0), (1, seconds 60)])
    (by decide +kernel)
  exact ⟨c, hMails, resets_throttled plainSettings [carol] 1 run⟩

/-- The readings of the requests do not fall in the order of their commits. -/
def ReadingsInOrder (d : State S) : Prop :=
  ∀ i j mail mail', i ≤ j → d.emailOutbox.get i = some mail → d.emailOutbox.get j = some mail' →
    mail.requestedAt ≤ mail'.requestedAt

/-- Two requests that read the account before either commits both send a mail,
at one instant. -/
theorem resets_not_throttled : ¬∀ c : Config (resets plainSettings),
    Reaches (passwordResetRequest plainSettings) (fun _ _ _ => True) (State.initial [carol]) c →
      ReadingsInOrder c.db → Throttled 1 c.db := by
  intro hAll
  obtain ⟨c, run, hSerial, hFirst, hSecond⟩ := exists_reaches (passwordResetRequest plainSettings)
    (fun _ _ _ => True) (State.initial [carol]) (requests 1 0 ++ requests 2 0 ++ [.step 1, .step 2])
    (fun c => c.db.emailOutbox.serial = 2 ∧ mails (c.db.emailOutbox.get 0).toList = [(1, 0)] ∧
      mails (c.db.emailOutbox.get 1).toList = [(1, 0)]) (by decide +kernel)
  have hReading : ∀ i mail, c.db.emailOutbox.get i = some mail → mail.requestedAt = 0 := by
    intro i mail hMail
    have hBound : i < 2 := hSerial ▸ Table.lt_serial hMail
    match i, hBound with
    | 0, _ => simpa [hMail, mails] using congrArg (List.map Prod.snd) hFirst
    | 1, _ => simpa [hMail, mails] using congrArg (List.map Prod.snd) hSecond
  have hOrder : ReadingsInOrder c.db := by
    intro i j mail mail' _ hMail hMail'
    rw [hReading i mail hMail, hReading j mail' hMail']
  cases hMail : c.db.emailOutbox.get 0 with
  | none => simp [hMail, mails] at hFirst
  | some mail =>
      cases hOther : c.db.emailOutbox.get 1 with
      | none => simp [hOther, mails] at hSecond
      | some other =>
          simp only [hMail, hOther, mails, Option.toList_some, List.map_cons, List.map_nil,
            List.cons.injEq, Prod.mk.injEq, and_true] at hFirst hSecond
          have hApart := hAll c run hOrder 0 1 mail other (by decide) hMail hOther hFirst.1 hSecond.1
          rw [hFirst.2, hSecond.2] at hApart
          exact absurd hApart (by decide)

end OnlineAuction.Accounts.Resets
