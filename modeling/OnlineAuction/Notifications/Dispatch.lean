import OnlineAuction.Notifications.Records
import OnlineAuction.Outbox.Worker

/-! `app/services/notifications.py`: the dispatch of notifications over a database
session, one by one and in a batch. `html` is `build_notification_email_html`, its
arguments in the order of the source. -/

namespace OnlineAuction.Notifications

open Outbox

/-- A `Notification` added to a session. The rest of the row comes with its insert. -/
structure NewNotification where
  userId : UserId
  type : String
  title : String
  message : String
  auctionId : Option LotId
  auctionTitle : Option String
  deriving DecidableEq

/-- A row of `notifications`. -/
structure Notification extends NewNotification where
  id : Nat
  isRead : Bool
  createdAt : Time
  deriving DecidableEq

/-- An `EmailOutbox` added to a session by `enqueue_email`. -/
structure NewEmail where
  toEmail : String
  subject : String
  htmlBody : String
  maxAttempts : Nat
  nextAttemptAt : Time
  createdAt : Time

def NewEmail.row (email : NewEmail) (id : Nat) : EmailOutbox where
  id := id
  toEmail := email.toEmail
  subject := email.subject
  htmlBody := email.htmlBody
  status := .pending
  attempts := 0
  maxAttempts := email.maxAttempts
  lastError := none
  nextAttemptAt := email.nextAttemptAt
  createdAt := email.createdAt
  sentAt := none

/-- A call of `manager.send_notification`: the user and the message. -/
structure Push where
  userId : UserId
  id : Nat
  type : String
  title : String
  message : String
  auctionId : Option LotId
  auctionTitle : Option String
  createdAt : Time
  deriving DecidableEq

/-- Whether a call of `send_notification` raises. -/
abbrev Manager := Push → Bool

/-- The `ConnectionManager`, whose `_fan_out` catches what a socket raises. -/
def connectionManager : Manager := fun _ => false

/-- The committed rows of the two tables as a session leaves them, the rows it has
added since its last commit, and the pushes made. The clock and the sequences hand
out `stamps`. -/
structure Session where
  notifications : List Notification
  emails : List EmailOutbox
  added : List NewNotification
  enrolled : List NewEmail
  pushes : List Push
  stamps : Nat → Nat × Time
  drawn : Nat

namespace Session

def utcnow (s : Session) : Time × Session :=
  ((s.stamps s.drawn).2, { s with drawn := s.drawn + 1 })

/-- The insert of the `i`th added row, with its id and the defaults of its columns. -/
def inserted (s : Session) (i : Nat) (row : NewNotification) : Notification where
  toNewNotification := row
  id := (s.stamps (s.drawn + i)).1
  isRead := false
  createdAt := (s.stamps (s.drawn + i)).2

/-- The insert of the `i`th enrolled row, after the notifications. -/
def enqueued (s : Session) (i : Nat) (email : NewEmail) : EmailOutbox :=
  email.row (s.stamps (s.drawn + s.added.length + i)).1

def commit (s : Session) : Session :=
  { s with
    notifications := s.notifications ++ s.added.mapIdx s.inserted
    emails := s.emails ++ s.enrolled.mapIdx s.enqueued
    added := []
    enrolled := []
    drawn := s.drawn + s.added.length + s.enrolled.length }

/-- The end of `get_db`: what has not been committed is rolled back. -/
def close (s : Session) : Session := { s with added := [], enrolled := [] }

/-- `enqueue_email(…, db=db)`, which leaves the commit to the caller. -/
def enqueueEmail (s : Session) (toEmail subject htmlBody : String) : Session :=
  let (nextAttemptAt, s) := s.utcnow
  let (createdAt, s) := s.utcnow
  let email := ⟨toEmail, subject, htmlBody, defaultMaxAttempts, nextAttemptAt, createdAt⟩
  { s with enrolled := s.enrolled ++ [email] }

/-- `manager.send_notification`, and whether it has raised. -/
def sendNotification (s : Session) (manager : Manager) (push : Push) : Session × Bool :=
  ({ s with pushes := s.pushes ++ [push] }, manager push)

end Session

/-- `_EMAIL_OPT_OUT_FLAG`, read of the user. -/
def emailOptOutFlag : NotificationType → Recipient → Bool
  | .bidOutbid => Recipient.notifyOutbid
  | .auctionWon => Recipient.notifyWinning
  | .auctionEnding => Recipient.notifyEnding
  | .auctionSold => Recipient.notifySold
  | .bidPlaced => Recipient.notifyBidReceived
  | .auctionLost => Recipient.notifyLost
  | .newLot => Recipient.emailNotifications

/-- `_email_enabled`. -/
def emailEnabled (user : Recipient) (notificationType : NotificationType) : Bool :=
  if ¬user.emailNotifications then false else emailOptOutFlag notificationType user

section Dispatch

variable (html : String → String → String → Option LotId → Option String → String)
  (auctionId : Option LotId) (auctionTitle : Option String) (manager : Option Manager)

def Payload.row (payload : Payload) : NewNotification where
  userId := payload.user.id
  type := payload.type.value
  title := payload.title
  message := payload.message
  auctionId := auctionId
  auctionTitle := auctionTitle

/-- The message of a notification, with the id and the time of a row. -/
def Payload.push (payload : Payload) (row : Notification) : Push where
  userId := payload.user.id
  id := row.id
  type := payload.type.value
  title := payload.title
  message := payload.message
  auctionId := auctionId
  auctionTitle := auctionTitle
  createdAt := row.createdAt

/-- `_fire_and_forget_email` with the mail of a notification. -/
def Session.enqueuePayload (s : Session) (payload : Payload) : Session :=
  s.enqueueEmail payload.user.email payload.title
    (html payload.type.value payload.title payload.message auctionId auctionTitle)

/-- `create_notification`: the session, and the row read back. -/
def createNotification (s : Session) (payload : Payload) : Session × Notification :=
  let row := payload.row auctionId auctionTitle
  ({ s with added := s.added ++ [row] }.commit, s.inserted s.added.length row)

/-- `_maybe_send_email`: whether a row was enrolled. -/
def maybeSendEmail (s : Session) (payload : Payload) : Session × Bool :=
  if emailEnabled payload.user payload.type then
    (s.enqueuePayload html auctionId auctionTitle payload, true)
  else (s, false)

/-- `notify_user`, and whether it has raised. -/
def notifyUser (s : Session) (payload : Payload) : Session × Bool :=
  let (s, notification) := createNotification auctionId auctionTitle s payload
  let (s, raised) := match manager with
    | some manager => s.sendNotification manager (payload.push auctionId auctionTitle notification)
    | none => (s, false)
  if raised then (s, true)
  else
    let (s, enrolled) := maybeSendEmail html auctionId auctionTitle s payload
    (if enrolled then s.commit else s, false)

/-- A call of `notify_user` for each payload, in order, as long as none raises. -/
def notifyEach (s : Session) : List Payload → Session × Bool
  | [] => (s, false)
  | payload :: rest =>
      let (s, raised) := notifyUser html auctionId auctionTitle manager s payload
      if raised then (s, true) else notifyEach s rest

/-- `_push_ws`, which logs what `send_notification` raises. -/
def pushWs (manager : Manager) (s : Session) (payload : Payload) (row : Notification) : Session :=
  let (s, _) := s.sendNotification manager (payload.push auctionId auctionTitle row)
  s

/-- `notify_many`. The gathered pushes start in order. -/
def notifyMany (s : Session) (payloads : List Payload) : Session :=
  if payloads = [] then s
  else
    let notifRows := payloads.map (Payload.row auctionId auctionTitle)
    let outboxJobs := payloads.filter fun payload => emailEnabled payload.user payload.type
    let earlier := s.added.length
    let s := { s with added := s.added ++ notifRows }
    let s := outboxJobs.foldl (Session.enqueuePayload html auctionId auctionTitle) s
    let rows := notifRows.mapIdx fun i row => s.inserted (earlier + i) row
    let s := s.commit
    match manager with
    | none => s
    | some manager =>
        (payloads.zip rows).foldl
          (fun s (payload, row) => pushWs auctionId auctionTitle manager s payload row) s

end Dispatch

end OnlineAuction.Notifications
