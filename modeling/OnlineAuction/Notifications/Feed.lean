import OnlineAuction.Library.Latest
import OnlineAuction.Library.RowLocks
import OnlineAuction.Library.Table
import OnlineAuction.Notifications.Dispatch

/-! `app/routers/notifications.py` over the rows of `app/models/notification.py`, while
notifications come in and the lots that they are about are deleted. No handler takes a
lock. -/

namespace OnlineAuction.Notifications.Feed

open RowLocks

/-- What passes `Query(20, ge=1, le=100)`. -/
abbrev Limit := {limit : Nat // 1 ≤ limit ∧ limit ≤ 100}

inductive Answer where
  | page (items : List Notification) (total limit offset : Nat)
  | count (count : Nat)
  | message (text : String)
  deriving DecidableEq

/-- Users are numbered from one up to `users`. The last field is history: what each
user was answered. -/
structure State where
  users : Nat
  notifications : Table Notification
  answers : List (UserId × Answer)

/-- `order_by(Notification.created_at.desc(), Notification.id.desc())`. -/
abbrev Newest : Notification → Notification → Prop :=
  Latest.Newer Notification.createdAt Notification.id

namespace State

def initial (users : Nat) : State := ⟨users, .empty, []⟩

def hasUser (d : State) (id : UserId) : Bool := decide (0 < id ∧ id ≤ d.users)

/-- `select(Notification).where(…)` of one row of one user. -/
def find (d : State) (id : Nat) (userId : UserId) : Option Notification :=
  (d.notifications.get id).filter fun row => row.userId = userId

/-- `base` of `get_notifications`. -/
def selected (d : State) (userId : UserId) (unreadOnly : Bool) : List Notification :=
  ((List.range d.notifications.serial).filterMap fun id => d.find id userId).filter fun row =>
    !unreadOnly || !row.isRead

def insert (d : State) (row : NewNotification) (createdAt : Time) : State :=
  { d with notifications := d.notifications.add fun id => ⟨row, id, false, createdAt⟩ }

def insertAll (d : State) (rows : List (NewNotification × Time)) : State :=
  rows.foldl (fun d row => d.insert row.1 row.2) d

def updateRows (d : State) (f : Nat → Notification → Notification) : State :=
  { d with notifications := d.notifications.mapRows f }

/-- The `UPDATE` of a row whose `is_read` was set. -/
def setRead (d : State) (key : Nat) : State :=
  d.updateRows fun id row => if id = key then { row with isRead := true } else row

/-- The `UPDATE` of `mark_all_read`. -/
def setAllRead (d : State) (userId : UserId) : State :=
  d.updateRows fun _ row =>
    if row.userId = userId ∧ row.isRead = false then { row with isRead := true } else row

/-- A `DELETE` by primary key: one that finds no row is no error. -/
def delete (d : State) (id : Nat) : State :=
  { d with notifications := d.notifications.erase id }

/-- `ondelete="SET NULL"` of `auction_id`. -/
def unlink (d : State) (auctionId : LotId) : State :=
  d.updateRows fun _ row =>
    if row.auctionId = some auctionId then { row with auctionId := none } else row

def answer (d : State) (userId : UserId) (answer : Answer) : State :=
  { d with answers := d.answers ++ [(userId, answer)] }

end State

abbrev feeds : Store where
  State := State
  Key := Empty
  Time := Time
  Note := Unit
  Error := HTTPException
  keyEq := inferInstance
  hasRow _ key := nomatch key
  admits _ := true
  readable _ _ := true
  observe _ _ d := d

def query {α : Type} (select : State → α) : Prog feeds α :=
  .read () fun d => .pure (select d)

def commit (write : State → State) : Prog feeds State :=
  .commit () write fun done => Prog.orRaise done internalServerError

def respond (userId : UserId) (answer : Answer) : Prog feeds Unit :=
  .update () (fun d => d.answer userId answer) (.pure ())

/-- `get_current_user` of a request by this user. -/
def getCurrentUser (userId : UserId) : Prog feeds Unit := do
  let found ← query fun d => d.hasUser userId
  Prog.raiseIf (found = false) ⟨401, "User not found"⟩

/-- `GET /`. The rows are counted before they are read. -/
def getNotifications (userId : UserId) (limit : Limit) (offset : Nat) (unreadOnly : Bool) :
    Prog feeds Unit := do
  getCurrentUser userId
  let total ← query fun d => (d.selected userId unreadOnly).length
  let items ← query fun d =>
    (((d.selected userId unreadOnly).insertionSort Newest).drop offset).take limit.val
  respond userId (.page items total limit.val offset)

/-- `GET /unread-count`. -/
def getUnreadCount (userId : UserId) : Prog feeds Unit := do
  getCurrentUser userId
  let count ← query fun d => (d.selected userId true).length
  respond userId (.count count)

/-- The row that `mark_notification_read` and `delete_notification` are about. -/
def getNotification (userId : UserId) (notificationId : Nat) : Prog feeds Notification := do
  let notification ← query fun d => d.find notificationId userId
  Prog.orRaise notification ⟨404, "Уведомление не найдено"⟩

/-- `POST /{notification_id}/read`. The session sends no `UPDATE` when nothing has
changed, and one that finds no row is a `StaleDataError`. -/
def markNotificationRead (userId : UserId) (notificationId : Nat) : Prog feeds Unit := do
  getCurrentUser userId
  let notification ← getNotification userId notificationId
  if notification.isRead then
    let _ ← commit id
  else
    let d ← commit fun d => d.setRead notificationId
    Prog.raiseIf (d.find notificationId userId = none) internalServerError
  respond userId (.message "Уведомление помечено как прочитанное")

/-- `POST /mark-all-read`. -/
def markAllRead (userId : UserId) : Prog feeds Unit := do
  getCurrentUser userId
  let _ ← commit fun d => d.setAllRead userId
  respond userId (.message "Все уведомления отмечены как прочитанные")

/-- `DELETE /{notification_id}`. -/
def deleteNotification (userId : UserId) (notificationId : Nat) : Prog feeds Unit := do
  getCurrentUser userId
  let _ ← getNotification userId notificationId
  let _ ← commit fun d => d.delete notificationId
  respond userId (.message "Уведомление удалено")

/-- The insert of a `create_notification`, or of a whole `notify_many`. The clock is
read for every row. -/
def deliver (stamped : List (NewNotification × Time)) : List NewNotification → Prog feeds Unit
  | [] => do
      let _ ← commit fun d => d.insertAll stamped
  | row :: rest => .clock () fun now => deliver (stamped ++ [(row, now)]) rest

/-- `delete_auction`, as far as notifications depend on it. -/
def deleteAuction (auctionId : LotId) : Prog feeds Unit := do
  let _ ← commit fun d => d.unlink auctionId

/-- `register`, as far as notifications depend on it. -/
def register : Prog feeds Unit := do
  let _ ← commit fun d => { d with users := d.users + 1 }

inductive Request where
  | register
  | notify (rows : List NewNotification)
  | deleteAuction (auctionId : LotId)
  | getNotifications (userId : UserId) (limit : Limit) (offset : Nat) (unreadOnly : Bool)
  | getUnreadCount (userId : UserId)
  | markNotificationRead (userId : UserId) (notificationId : Nat)
  | markAllRead (userId : UserId)
  | deleteNotification (userId : UserId) (notificationId : Nat)

def handle : Request → Prog feeds Unit
  | .register => register
  | .notify rows => deliver [] rows
  | .deleteAuction auctionId => deleteAuction auctionId
  | .getNotifications userId limit offset unreadOnly =>
      getNotifications userId limit offset unreadOnly
  | .getUnreadCount userId => getUnreadCount userId
  | .markNotificationRead userId notificationId => markNotificationRead userId notificationId
  | .markAllRead userId => markAllRead userId
  | .deleteNotification userId notificationId => deleteNotification userId notificationId

/-- The user whose feed a request reads or changes, if it is one of this router. -/
def Request.reader : Request → Option UserId
  | .register => none
  | .notify _ => none
  | .deleteAuction _ => none
  | .getNotifications userId .. => some userId
  | .getUnreadCount userId => some userId
  | .markNotificationRead userId _ => some userId
  | .markAllRead userId => some userId
  | .deleteNotification userId _ => some userId

end OnlineAuction.Notifications.Feed
