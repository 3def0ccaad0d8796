import OnlineAuction.Library.ChangeLogs
import OnlineAuction.Library.RowLocks
import OnlineAuction.Library.Table
import OnlineAuction.Market.Records

/-! `app/routers/subscriptions.py` over the rows of `app/models/subscription.py`, and the
query for subscribers that a new lot is announced to. No handler takes a lock. -/

namespace OnlineAuction.Subscriptions

open RowLocks ChangeLogs

structure Subscription where
  subscriberId : UserId
  sellerId : UserId
  deriving DecidableEq

/-- What an answer said: it was worked out from the moment the request was
authenticated to the moment the subscribers were counted. -/
structure Response where
  pair : Subscription
  subscribed : Bool
  subscribersCount : Nat
  authenticatedAt : Nat
  countedAt : Nat

/-- Whom a new lot of a seller was announced to. -/
structure Announcement where
  sellerId : UserId
  subscribers : List UserId
  selectedAt : Nat

/-- Users are numbered from one up to `users`. The last three fields are history: the
changes that were committed, and what was answered and announced. -/
structure State where
  users : Nat
  subscriptions : Table Subscription
  journal : List (Change Subscription)
  responses : List Response
  announcements : List Announcement

namespace State

def initial (users : Nat) : State := ⟨users, .empty, [], [], []⟩

def hasUser (d : State) (id : UserId) : Bool := decide (0 < id ∧ id ≤ d.users)

def rows (d : State) : List (Nat × Subscription) :=
  (List.range d.subscriptions.serial).filterMap fun id =>
    (d.subscriptions.get id).map fun row => (id, row)

/-- `select(Subscription).where(…)` of one pair. -/
def find (d : State) (pair : Subscription) : Option (Nat × Subscription) :=
  d.rows.find? fun row => row.2 = pair

/-- `_subscriber_count`. -/
def subscriberCount (d : State) (sellerId : UserId) : Nat :=
  d.rows.countP fun row => row.2.sellerId = sellerId

/-- `select(User).join(Subscription, …)`. -/
def subscribers (d : State) (sellerId : UserId) : List UserId :=
  (d.rows.filter fun row => row.2.sellerId = sellerId).map (·.2.subscriberId)

/-- An insert of a pair that is there already violates `uq_subscription_pair`, and is
rolled back. -/
def insert (d : State) (pair : Subscription) : State :=
  if (d.find pair).isSome then d
  else { d with
    subscriptions := d.subscriptions.add fun _ => pair
    journal := d.journal ++ [.add pair] }

/-- A `DELETE` by primary key: one that finds no row is no error. -/
def delete (d : State) (id : Nat) : State :=
  match d.subscriptions.get id with
  | some row => { d with
      subscriptions := d.subscriptions.erase id
      journal := d.journal ++ [.remove row] }
  | none => d

def moment (d : State) : Nat := d.journal.length

def respond (d : State) (response : Response) : State :=
  { d with responses := d.responses ++ [response] }

def announce (d : State) (announcement : Announcement) : State :=
  { d with announcements := d.announcements ++ [announcement] }

end State

abbrev storefronts : Store where
  State := State
  Key := Empty
  Time := Unit
  Note := Unit
  Error := HTTPException
  keyEq := inferInstance
  hasRow _ key := nomatch key
  admits _ := true
  readable _ _ := true
  observe _ _ d := d

def query {α : Type} (select : State → α) : Prog storefronts α :=
  .read () fun d => .pure (select d)

/-- `get_current_user` of a request by this user. -/
def getCurrentUser (userId : UserId) : Prog storefronts Nat := do
  let (found, authenticatedAt) ← query fun d => (d.hasUser userId, d.moment)
  Prog.raiseIf (found = false) ⟨401, "User not found"⟩
  pure authenticatedAt

/-- `ensure_seller_exists`. -/
def ensureSellerExists (sellerId : UserId) : Prog storefronts Unit := do
  let found ← query fun d => d.hasUser sellerId
  Prog.raiseIf (found = false) ⟨404, "Продавец не найден"⟩

def respond (pair : Subscription) (subscribed : Bool) (authenticatedAt : Nat) :
    Prog storefronts Unit := do
  let (count, countedAt) ← query fun d => (d.subscriberCount pair.sellerId, d.moment)
  .update () (fun d => d.respond ⟨pair, subscribed, count, authenticatedAt, countedAt⟩) (.pure ())

def commit (write : State → State) (rest : Prog storefronts Unit) : Prog storefronts Unit :=
  .commit () write fun done => do
    let _ ← Prog.orRaise done internalServerError
    rest

/-- `GET /sellers/{seller_id}/subscription`. -/
def getSubscription (userId sellerId : UserId) : Prog storefronts Unit := do
  let authenticatedAt ← getCurrentUser userId
  ensureSellerExists sellerId
  let sub ← query fun d => d.find ⟨userId, sellerId⟩
  respond ⟨userId, sellerId⟩ sub.isSome authenticatedAt

/-- `POST /sellers/{seller_id}/subscribe`. The loser of a race to insert answers like
the winner. -/
def subscribe (userId sellerId : UserId) : Prog storefronts Unit := do
  let authenticatedAt ← getCurrentUser userId
  Prog.raiseIf (sellerId = userId) ⟨400, "Нельзя подписаться на себя"⟩
  ensureSellerExists sellerId
  let existing ← query fun d => d.find ⟨userId, sellerId⟩
  if existing.isSome then respond ⟨userId, sellerId⟩ true authenticatedAt
  else
    commit (fun d => d.insert ⟨userId, sellerId⟩) (respond ⟨userId, sellerId⟩ true authenticatedAt)

/-- `DELETE /sellers/{seller_id}/subscribe`. -/
def unsubscribe (userId sellerId : UserId) : Prog storefronts Unit := do
  let authenticatedAt ← getCurrentUser userId
  let sub ← query fun d => d.find ⟨userId, sellerId⟩
  match sub with
  | some (id, _) =>
      commit (fun d => d.delete id) (respond ⟨userId, sellerId⟩ false authenticatedAt)
  | none => respond ⟨userId, sellerId⟩ false authenticatedAt

/-- The subscribers that `create_auction` hands to `notify_many`. -/
def selectSubscribers (sellerId : UserId) : Prog storefronts Unit := do
  let (subscribers, selectedAt) ← query fun d => (d.subscribers sellerId, d.moment)
  .update () (fun d => d.announce ⟨sellerId, subscribers, selectedAt⟩) (.pure ())

/-- `register`, as far as subscriptions depend on it. -/
def register : Prog storefronts Unit :=
  commit (fun d => { d with users := d.users + 1 }) (.pure ())

inductive Request where
  | register
  | getSubscription (userId sellerId : UserId)
  | subscribe (userId sellerId : UserId)
  | unsubscribe (userId sellerId : UserId)
  | newLot (sellerId : UserId)

def handle : Request → Prog storefronts Unit
  | .register => register
  | .getSubscription userId sellerId => getSubscription userId sellerId
  | .subscribe userId sellerId => subscribe userId sellerId
  | .unsubscribe userId sellerId => unsubscribe userId sellerId
  | .newLot sellerId => selectSubscribers sellerId

end OnlineAuction.Subscriptions
