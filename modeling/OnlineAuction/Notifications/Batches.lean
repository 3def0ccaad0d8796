import OnlineAuction.Notifications.Dispatch
import OnlineAuction.Realtime.LiveSockets

/-! A batch of notifications against the same notifications one by one. -/

namespace OnlineAuction.Notifications

open Outbox

structure Mail where
  toEmail : String
  subject : String
  htmlBody : String
  status : Status
  attempts : Nat
  maxAttempts : Nat
  lastError : Option String
  sentAt : Option Time
  deriving DecidableEq

def mailOf (row : EmailOutbox) : Mail :=
  ⟨row.toEmail, row.subject, row.htmlBody, row.status, row.attempts, row.maxAttempts, row.lastError,
    row.sentAt⟩

def NewEmail.mail (email : NewEmail) : Mail :=
  ⟨email.toEmail, email.subject, email.htmlBody, .pending, 0, email.maxAttempts, none, none⟩

/-- What a row of `notifications` says. -/
def Notification.content (row : Notification) : NewNotification × Bool :=
  (row.toNewNotification, row.isRead)

/-- What a push says, and to whom. -/
def Push.content (push : Push) : NewNotification :=
  ⟨push.userId, push.type, push.title, push.message, push.auctionId, push.auctionTitle⟩

/-- Two sessions have left the same rows and made the same pushes. -/
structure Agree (s t : Session) : Prop where
  notifications : s.notifications.map Notification.content = t.notifications.map Notification.content
  emails : s.emails.map mailOf = t.emails.map mailOf
  pushes : s.pushes.map Push.content = t.pushes.map Push.content

section Dispatch

variable (html : String → String → String → Option LotId → Option String → String)
  (auctionId : Option LotId) (auctionTitle : Option String)

def Payload.mail (payload : Payload) : Mail :=
  ⟨payload.user.email, payload.title,
    html payload.type.value payload.title payload.message auctionId auctionTitle, .pending, 0,
    defaultMaxAttempts, none, none⟩

def mailsOf (payloads : List Payload) : List Mail :=
  (payloads.filter fun payload => emailEnabled payload.user payload.type).map
    (Payload.mail html auctionId auctionTitle)

/-- The pushes of the payloads, each with the id of the row of its payload, when a
manager is supplied. -/
def pushesOf (supplied : Bool) (payloads : List Payload) (rows : List Notification) : List Push :=
  if supplied then List.zipWith (Payload.push auctionId auctionTitle) payloads rows else []

/-- What a dispatch leaves: everything that was there and in the session before it,
and its own rows, in the order of the payloads. -/
structure Dispatched (supplied : Bool) (payloads : List Payload) (s s' : Session)
    (own : List Notification) : Prop where
  notifications : ∃ earlier, s'.notifications = s.notifications ++ earlier ++ own ∧
    earlier.map Notification.content = s.added.map fun row => (row, false)
  contents : own.map Notification.content =
    payloads.map fun payload => (payload.row auctionId auctionTitle, false)
  emails : s'.emails.map mailOf = s.emails.map mailOf ++ s.enrolled.map NewEmail.mail ++
    mailsOf html auctionId auctionTitle payloads
  pushes : s'.pushes = s.pushes ++ pushesOf auctionId auctionTitle supplied payloads own
  added : s'.added = []
  enrolled : s'.enrolled = []

variable {html auctionId auctionTitle} {supplied : Bool} {s s' s'' : Session}
  {own own' : List Notification}

theorem Dispatched.nil (hAdded : s.added = []) (hEnrolled : s.enrolled = []) :
    Dispatched html auctionId auctionTitle supplied [] s s [] where
  notifications := ⟨[], by simp, by simp [hAdded]⟩
  contents := rfl
  emails := by simp [hEnrolled, mailsOf]
  pushes := by simp [pushesOf]
  added := hAdded
  enrolled := hEnrolled

/-- Every payload has one row of its own. -/
theorem Dispatched.length {payloads : List Payload}
    (h : Dispatched html auctionId auctionTitle supplied payloads s s' own) :
    payloads.length = own.length := by
  have hLength := congrArg List.length h.contents
  simpa using hLength.symm

/-- Batches in a row are one batch. -/
theorem Dispatched.trans {first rest : List Payload}
    (h : Dispatched html auctionId auctionTitle supplied first s s' own)
    (h' : Dispatched html auctionId auctionTitle supplied rest s' s'' own') :
    Dispatched html auctionId auctionTitle supplied (first ++ rest) s s'' (own ++ own') where
  notifications := by
    obtain ⟨earlier, hRows, hEarlier⟩ := h.notifications
    obtain ⟨later, hRows', hLater⟩ := h'.notifications
    have hNone : later = [] := by simpa [h.added] using hLater
    exact ⟨earlier, by rw [hRows', hRows, hNone]; simp, hEarlier⟩
  contents := by rw [List.map_append, List.map_append, h.contents, h'.contents]
  emails := by
    rw [h'.emails, h.emails, h.enrolled]
    simp [mailsOf]
  pushes := by
    rw [h'.pushes, h.pushes, List.append_assoc]
    unfold pushesOf
    split_ifs
    · rw [List.zipWith_append h.length]
    · rfl
  added := h'.added
  enrolled := h'.enrolled

/-- What is pushed is what the payloads say. -/
theorem pushesOf_contents {payloads : List Payload} (h : payloads.length = own.length) :
    (pushesOf auctionId auctionTitle supplied payloads own).map Push.content =
      if supplied then payloads.map (Payload.row auctionId auctionTitle) else [] := by
  unfold pushesOf
  split_ifs
  · rw [← List.map_uncurry_zip_eq_zipWith, List.map_map]
    show (payloads.zip own).map (Payload.row auctionId auctionTitle ∘ Prod.fst) = _
    rw [← List.map_map, List.map_fst_zip h.le]
  · rfl

/-- Two dispatches of the same payloads agree when they have begun alike. -/
theorem Dispatched.agree {payloads : List Payload} {t t' : Session} {own' : List Notification}
    (h : Dispatched html auctionId auctionTitle supplied payloads s s' own)
    (h' : Dispatched html auctionId auctionTitle supplied payloads t t' own')
    (hBefore : Agree s t) (hAdded : s.added = t.added)
    (hEnrolled : s.enrolled.map NewEmail.mail = t.enrolled.map NewEmail.mail) : Agree s' t' where
  notifications := by
    obtain ⟨earlier, hRows, hEarlier⟩ := h.notifications
    obtain ⟨earlier', hRows', hEarlier'⟩ := h'.notifications
    rw [hRows, hRows']
    simp only [List.map_append]
    rw [hBefore.notifications, hEarlier, hEarlier', hAdded, h.contents, h'.contents]
  emails := by rw [h.emails, h'.emails, hBefore.emails, hEnrolled]
  pushes := by
    rw [h.pushes, h'.pushes, List.map_append, List.map_append, hBefore.pushes,
      pushesOf_contents h.length, pushesOf_contents h'.length]

/-- What is read of a list that was mapped with the positions, when the positions
do not show in it. -/
theorem map_mapIdx {α β γ : Type} {f : Nat → α → β} {g : β → γ} {k : α → γ}
    (h : ∀ i x, g (f i x) = k x) (l : List α) : (l.mapIdx f).map g = l.map k := by
  apply List.ext_getElem?
  intro i
  simp [Function.comp_def, h]

/-- A commit sends the letters that were enrolled, in their order. -/
theorem commit_emails (s : Session) :
    s.commit.emails.map mailOf = s.emails.map mailOf ++ s.enrolled.map NewEmail.mail := by
  have hNew (i : Nat) (email : NewEmail) : mailOf (s.enqueued i email) = email.mail := rfl
  rw [Session.commit, List.map_append, map_mapIdx hNew]

/-- The rows are stored as they were added, unread. -/
theorem inserted_contents (s : Session) (place : Nat → Nat) (rows : List NewNotification) :
    (rows.mapIdx fun i row => s.inserted (place i) row).map Notification.content =
      rows.map fun row => (row, false) := by
  have hNew (i : Nat) (row : NewNotification) :
      (s.inserted (place i) row).content = (row, false) := rfl
  rw [map_mapIdx hNew]

variable (html auctionId auctionTitle)

/-- A payload enrolls at most its own letter. -/
theorem enqueuePayload_eq (payload : Payload) (s : Session) : ∃ email,
    s.enqueuePayload html auctionId auctionTitle payload =
        { s with enrolled := s.enrolled ++ [email], drawn := s.drawn + 2 } ∧
      email.mail = payload.mail html auctionId auctionTitle :=
  ⟨_, rfl, rfl⟩

/-- Enrolling mails writes nothing but them into the session. -/
theorem foldl_enqueuePayload (jobs : List Payload) (s : Session) : ∃ enrolled drawn,
    jobs.foldl (Session.enqueuePayload html auctionId auctionTitle) s =
        { s with enrolled := s.enrolled ++ enrolled, drawn := drawn } ∧
      enrolled.map NewEmail.mail = jobs.map (Payload.mail html auctionId auctionTitle) := by
  induction jobs generalizing s with
  | nil => exact ⟨[], s.drawn, by simp, rfl⟩
  | cons payload rest ih =>
      obtain ⟨email, hFirst, hMail⟩ := enqueuePayload_eq html auctionId auctionTitle payload s
      obtain ⟨enrolled, drawn, hRest, hMails⟩ :=
        ih (s.enqueuePayload html auctionId auctionTitle payload)
      refine ⟨email :: enrolled, drawn, ?_, ?_⟩
      · rw [List.foldl_cons, hRest, hFirst]
        simp only [List.append_assoc, List.singleton_append]
      · rw [List.map_cons, List.map_cons, hMail, hMails]

/-- The pushes of a batch follow the order of its payloads. -/
theorem foldl_pushWs (manager : Manager) (pairs : List (Payload × Notification)) (s : Session) :
    pairs.foldl (fun s (payload, row) => pushWs auctionId auctionTitle manager s payload row) s =
      { s with
        pushes := s.pushes ++
          pairs.map fun (payload, row) => payload.push auctionId auctionTitle row } := by
  induction pairs generalizing s with
  | nil => simp
  | cons pair rest ih =>
      rw [List.foldl_cons, ih]
      simp [pushWs, Session.sendNotification]

/-- One commit writes the rows and the mails of the whole batch. -/
theorem notifyMany_dispatched (manager : Option Manager) {payloads : List Payload}
    (hSome : payloads ≠ []) (s : Session) : ∃ own,
    Dispatched html auctionId auctionTitle manager.isSome payloads s
      (notifyMany html auctionId auctionTitle manager s payloads) own := by
  let rows := payloads.map (Payload.row auctionId auctionTitle)
  let jobs := payloads.filter fun payload => emailEnabled payload.user payload.type
  obtain ⟨enrolled, drawn, hEnrolled, hMails⟩ :=
    foldl_enqueuePayload html auctionId auctionTitle jobs { s with added := s.added ++ rows }
  let ready : Session :=
    { s with added := s.added ++ rows, enrolled := s.enrolled ++ enrolled, drawn := drawn }
  let own := rows.mapIdx fun i row => ready.inserted (s.added.length + i) row
  have hMany : notifyMany html auctionId auctionTitle manager s payloads =
      { ready.commit with
        pushes := s.pushes ++ pushesOf auctionId auctionTitle manager.isSome payloads own } := by
    unfold notifyMany
    rw [if_neg hSome]
    dsimp only
    rw [hEnrolled]
    cases manager with
    | none => simp [pushesOf, ready, Session.commit]
    | some manager =>
        dsimp only
        rw [foldl_pushWs, List.map_zip_eq_zipWith]
        rfl
  refine ⟨own, ?_⟩
  rw [hMany]
  constructor
  case notifications =>
    refine ⟨s.added.mapIdx ready.inserted, ?_, inserted_contents ready id s.added⟩
    show s.notifications ++ (s.added ++ rows).mapIdx ready.inserted = _
    rw [List.mapIdx_append, List.append_assoc]
    simp only [own, Nat.add_comm]
  case contents =>
    rw [inserted_contents, List.map_map]
    rfl
  case emails =>
    show ready.commit.emails.map mailOf = _
    rw [commit_emails, List.map_append, hMails, List.append_assoc]
    rfl
  case pushes => rfl
  case added => rfl
  case enrolled => rfl

/-- The row and the mail of a single dispatch are both committed when it returns. -/
theorem notifyUser_dispatched (supplied : Bool) (payload : Payload) (s : Session) : ∃ s' own,
    notifyUser html auctionId auctionTitle (if supplied then some connectionManager else none)
        s payload = (s', false) ∧
      Dispatched html auctionId auctionTitle supplied [payload] s s' own := by
  let row := payload.row auctionId auctionTitle
  let created : Session := { s with added := s.added ++ [row] }
  let notification := s.inserted s.added.length row
  let pushed : Session :=
    { created.commit with
      pushes := s.pushes ++ pushesOf auctionId auctionTitle supplied [payload] [notification] }
  have hUser : notifyUser html auctionId auctionTitle
      (if supplied then some connectionManager else none) s payload =
      (if emailEnabled payload.user payload.type then
        (pushed.enqueuePayload html auctionId auctionTitle payload).commit
      else pushed, false) := by
    unfold notifyUser maybeSendEmail
    cases supplied with
    | false =>
        have hPushed : pushed = created.commit := by simp [pushed, pushesOf, created, Session.commit]
        rw [hPushed, if_neg Bool.false_ne_true]
        split_ifs <;> rfl
    | true =>
        rw [if_pos rfl]
        split_ifs <;> rfl
  have hRows : pushed.notifications =
      s.notifications ++ s.added.mapIdx s.inserted ++ [notification] := by
    show s.notifications ++ (s.added ++ [row]).mapIdx s.inserted = _
    rw [List.mapIdx_concat, List.append_assoc]
  have hMails : pushed.emails.map mailOf = s.emails.map mailOf ++ s.enrolled.map NewEmail.mail :=
    commit_emails created
  have hEarlier : (s.added.mapIdx s.inserted).map Notification.content =
      s.added.map fun row => (row, false) := inserted_contents s id s.added
  by_cases hEmail : emailEnabled payload.user payload.type = true
  · obtain ⟨email, hEnqueued, hMail⟩ :=
      enqueuePayload_eq html auctionId auctionTitle payload pushed
    have hSecond := commit_emails (pushed.enqueuePayload html auctionId auctionTitle payload)
    rw [hEnqueued] at hSecond
    refine ⟨_, [notification], by rw [hUser, if_pos hEmail, hEnqueued], ?_⟩
    constructor
    case notifications =>
      exact ⟨_, (List.append_nil pushed.notifications).trans hRows, hEarlier⟩
    case contents => rfl
    case emails =>
      rw [hSecond]
      show pushed.emails.map mailOf ++ [email.mail] = _
      rw [hMails, hMail]
      simp [mailsOf, hEmail]
    case pushes => rfl
    case added => rfl
    case enrolled => rfl
  · refine ⟨_, [notification], by rw [hUser, if_neg hEmail], ?_⟩
    constructor
    case notifications => exact ⟨_, hRows, hEarlier⟩
    case contents => rfl
    case emails =>
      rw [hMails]
      simp [mailsOf, hEmail]
    case pushes => rfl
    case added => rfl
    case enrolled => rfl

/-- From a clean session every payload is dispatched. -/
theorem notifyEach_clean (supplied : Bool) (payloads : List Payload) (s : Session)
    (hAdded : s.added = []) (hEnrolled : s.enrolled = []) : ∃ s' own,
    notifyEach html auctionId auctionTitle (if supplied then some connectionManager else none)
        s payloads = (s', false) ∧
      Dispatched html auctionId auctionTitle supplied payloads s s' own := by
  induction payloads generalizing s with
  | nil => exact ⟨s, [], rfl, Dispatched.nil hAdded hEnrolled⟩
  | cons payload rest ih =>
      obtain ⟨s₁, own, hFirst, hOwn⟩ :=
        notifyUser_dispatched html auctionId auctionTitle supplied payload s
      obtain ⟨s₂, own', hRest, hOwn'⟩ := ih s₁ hOwn.added hOwn.enrolled
      exact ⟨s₂, own ++ own', by simp [notifyEach, hFirst, hRest], hOwn.trans hOwn'⟩

/-- From any session every payload is dispatched: what was pending is committed
first. -/
theorem notifyEach_dispatched (supplied : Bool) {payloads : List Payload} (hSome : payloads ≠ [])
    (s : Session) : ∃ s' own,
    notifyEach html auctionId auctionTitle (if supplied then some connectionManager else none)
        s payloads = (s', false) ∧
      Dispatched html auctionId auctionTitle supplied payloads s s' own := by
  cases payloads with
  | nil => exact absurd rfl hSome
  | cons payload rest =>
      obtain ⟨s₁, own, hFirst, hOwn⟩ :=
        notifyUser_dispatched html auctionId auctionTitle supplied payload s
      obtain ⟨s₂, own', hRest, hOwn'⟩ :=
        notifyEach_clean html auctionId auctionTitle supplied rest s₁ hOwn.added hOwn.enrolled
      exact ⟨s₂, own ++ own', by simp [notifyEach, hFirst, hRest], hOwn.trans hOwn'⟩

/-- Each payload has a row of its own and, with a manager, a push that carries the
id of that row. -/
def PushesOwnRows (supplied : Bool) (payloads : List Payload) (s s' : Session) : Prop :=
  ∃ earlier own, s'.notifications = earlier ++ own ∧
    own.map Notification.content =
      payloads.map (fun payload => (payload.row auctionId auctionTitle, false)) ∧
    s'.pushes = s.pushes ++ pushesOf auctionId auctionTitle supplied payloads own

/-- Whichever pushes raise, the batch goes on. -/
theorem notifyMany_any (supplied : Bool) (manager : Manager) (payloads : List Payload)
    (s : Session) :
    notifyMany html auctionId auctionTitle (if supplied then some manager else none) s payloads =
      notifyMany html auctionId auctionTitle
        (if supplied then some connectionManager else none) s payloads := by
  cases supplied <;> rfl

variable {html auctionId auctionTitle}

theorem Dispatched.close {payloads : List Payload}
    (h : Dispatched html auctionId auctionTitle supplied payloads s s' own) :
    Dispatched html auctionId auctionTitle supplied payloads s s'.close own where
  notifications := h.notifications
  contents := h.contents
  emails := h.emails
  pushes := h.pushes
  added := rfl
  enrolled := rfl

/-- Every push carries the number of its own row. -/
theorem Dispatched.pushesOwnRows {payloads : List Payload}
    (h : Dispatched html auctionId auctionTitle supplied payloads s s' own) :
    PushesOwnRows auctionId auctionTitle supplied payloads s s' := by
  obtain ⟨earlier, hRows, -⟩ := h.notifications
  exact ⟨_, own, hRows, h.contents, h.pushes⟩

end Dispatch

/-- A batch and the same notifications one by one leave the same rows and make the same
pushes, up to ids and timestamps. A push of the batch that raises keeps back no other,
and a send that fails leaves the sockets and the fan-outs of everyone else alone. -/
theorem notifyMany_agrees
    (html : String → String → String → Option LotId → Option String → String)
    (auctionId : Option LotId) (auctionTitle : Option String) (supplied : Bool)
    (manager : Manager) (payloads : List Payload) (s : Session) (stamps : Nat → Nat × Time)
    (Socket Message : Type) [DecidableEq Socket] :
    let given := if supplied then some connectionManager else none
    let many := notifyMany html auctionId auctionTitle (if supplied then some manager else none)
      s payloads
    let each := notifyEach html auctionId auctionTitle given { s with stamps := stamps } payloads
    many = notifyMany html auctionId auctionTitle given s payloads ∧ each.2 = false ∧
      Agree many.close each.1.close ∧
      PushesOwnRows auctionId auctionTitle supplied payloads s many.close ∧
      PushesOwnRows auctionId auctionTitle supplied payloads s each.1.close ∧
      ∀ (server server' : Realtime.Server Socket Message) (call : Nat)
        (f : Realtime.FanOut Socket Message) (sent : Bool),
        Runs.Reaches Realtime.step (fun _ _ => True) Realtime.Server.initial server →
        server.fanOuts call = some f →
        Realtime.step server (.answer call sent) = some server' →
        Realtime.Apart call f server server' := by
  intro given many each
  refine ⟨notifyMany_any html auctionId auctionTitle supplied manager payloads s, ?_⟩
  rw [← and_assoc, ← and_assoc, ← and_assoc]
  refine ⟨?_, fun _ _ _ _ _ run hCall hStep =>
    (Realtime.placed_of_reaches run).answer_apart hCall hStep⟩
  by_cases hSome : payloads = []
  · subst hSome
    have hOwn (t : Session) : PushesOwnRows auctionId auctionTitle supplied [] t t.close :=
      ⟨t.notifications, [], (List.append_nil _).symm, rfl, by simp [pushesOf, Session.close]⟩
    exact ⟨⟨⟨rfl, rfl, rfl, rfl⟩, hOwn s⟩, hOwn _⟩
  · obtain ⟨own, hMany⟩ := notifyMany_dispatched html auctionId auctionTitle
      (if supplied then some manager else none) hSome s
    obtain ⟨s', own', hEach, hOwn'⟩ :=
      notifyEach_dispatched html auctionId auctionTitle supplied hSome { s with stamps := stamps }
    have hSupplied : (if supplied then some manager else none).isSome = supplied := by
      cases supplied <;> rfl
    have hEachIs : each = (s', false) := hEach
    rw [hSupplied] at hMany
    rw [hEachIs]
    refine ⟨⟨⟨rfl, ?_⟩, hMany.close.pushesOwnRows⟩, hOwn'.close.pushesOwnRows⟩
    exact hMany.close.agree hOwn'.close ⟨rfl, rfl, rfl⟩ rfl rfl

end OnlineAuction.Notifications
