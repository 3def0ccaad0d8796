import OnlineAuction.Library.Latest
import OnlineAuction.Library.RowLocks
import OnlineAuction.Library.Table
import OnlineAuction.Market.Records

/-! The committed database of the marketplace, the queries the handlers share
and the writes a session flushes at commit. -/

namespace OnlineAuction

open RowLocks

/-- A settled lot: the deadline its row held when its lock was granted, and
the clock reading compared with it. -/
structure Settlement where
  auctionId : LotId
  storedEnd : Time
  reading : Time
  deriving DecidableEq

/-- The tables, with two history variables that no handler reads: the last
clock reading taken under each lot's lock, and the settlements made. -/
@[ext]
structure Db where
  users : Table User
  auctions : Table Auction
  images : List AuctionImage
  bids : List Bid
  bidSerial : Nat
  transactions : List Transaction
  transactionSerial : Nat
  categories : List Nat
  lastReading : LotId → Option Time
  settlements : List Settlement

namespace Db

def initial (categories : List Nat) : Db :=
  ⟨.empty, .empty, [], [], 0, [], 0, categories, fun _ => none, []⟩

def bidsOn (d : Db) (auctionId : LotId) : List Bid :=
  d.bids.filter fun bid => bid.auctionId = auctionId

/-- `select(Bid).where(auction_id == …).order_by(timestamp.desc(), id.desc()).limit(1)`. -/
def lastBid (d : Db) (auctionId : LotId) : Option Bid :=
  Latest.latest Bid.timestamp Bid.id (d.bidsOn auctionId)

/-- The subquery `latest_bidder`: one bid per lot. -/
def latestBidder (d : Db) : List Bid :=
  Latest.latestOfEach Bid.timestamp Bid.id Bid.auctionId d.bids

/-- `get_committed_balance`: the prices of the active lots the user leads. -/
def getCommittedBalance (d : Db) (userId : UserId) : Money :=
  ((d.latestBidder.filter fun bid => bid.userId = userId).map fun bid =>
    match d.auctions.get bid.auctionId with
    | some auction => if auction.isActive then auction.currentPrice else 0
    | none => 0).sum

def transactionsOf (d : Db) (userId : UserId) : List Transaction :=
  (d.transactions.filter fun tx => tx.userId = userId).insertionSort fun a b => a.id ≤ b.id

/-- The check constraints of the tables and the foreign key of the images. -/
def admits (d : Db) : Bool :=
  ((List.range d.users.serial).all fun id => (d.users.get id).all User.admits) &&
    ((List.range d.auctions.serial).all fun id => (d.auctions.get id).all Auction.admits) &&
    (d.images.all fun image => (d.auctions.get image.auctionId).isSome) &&
    (d.bids.all fun bid => decide (0 < bid.amount)) &&
    d.transactions.all fun tx => decide (0 < tx.amount)

end Db

/-- The unit of work updates a column only when the session changed it. -/
def column {α : Type} [DecidableEq α] (loaded changed row : α) : α :=
  if changed = loaded then row else changed

/-- The `UPDATE` of a lot: the columns in which the changed copy differs from
the loaded one, written over the stored row. -/
def Auction.flush (loaded changed row : Auction) : Auction where
  id := row.id
  title := column loaded.title changed.title row.title
  description := column loaded.description changed.description row.description
  startingPrice := column loaded.startingPrice changed.startingPrice row.startingPrice
  currentPrice := column loaded.currentPrice changed.currentPrice row.currentPrice
  imageUrl := column loaded.imageUrl changed.imageUrl row.imageUrl
  startTime := column loaded.startTime changed.startTime row.startTime
  endTime := column loaded.endTime changed.endTime row.endTime
  isActive := column loaded.isActive changed.isActive row.isActive
  isCompleted := column loaded.isCompleted changed.isCompleted row.isCompleted
  winnerId := column loaded.winnerId changed.winnerId row.winnerId
  createdBy := column loaded.createdBy changed.createdBy row.createdBy
  categoryId := column loaded.categoryId changed.categoryId row.categoryId
  endingSoonNotified :=
    column loaded.endingSoonNotified changed.endingSoonNotified row.endingSoonNotified
  auctionType := column loaded.auctionType changed.auctionType row.auctionType
  binPrice := column loaded.binPrice changed.binPrice row.binPrice
  extensionsCount := column loaded.extensionsCount changed.extensionsCount row.extensionsCount

/-- A column that holds what was loaded is written as changed. -/
@[simp] theorem column_loaded {α : Type} [DecidableEq α] (loaded changed : α) :
    column loaded changed loaded = changed := by
  unfold column
  split_ifs with h
  · exact h.symm
  · rfl

/-- A flush over the row that was loaded stores the changed copy. -/
@[simp] theorem Auction.flush_loaded (loaded changed : Auction) (hId : changed.id = loaded.id) :
    Auction.flush loaded changed loaded = changed := by
  cases changed
  simp_all [Auction.flush]

/-- A `Transaction` added to the session. The amount is what the helper was
given; the column stores it on the grid. -/
structure NewTransaction where
  userId : UserId
  type : TransactionType
  amount : DecimalRounding.Decimal
  balanceAfter : Money
  description : String
  auctionId : Option LotId

def NewTransaction.row (tx : NewTransaction) (id : Nat) : Transaction :=
  ⟨id, tx.userId, tx.type, quantizeMoney tx.amount, tx.balanceAfter, tx.description, tx.auctionId⟩

/-- The users in a session's identity map and the ledger rows added to it. -/
structure UnitOfWork where
  users : UserId → Option User
  added : List NewTransaction

namespace UnitOfWork

/-- `apply_balance_delta`. -/
def applyBalanceDelta (work : UnitOfWork) (userId : UserId) (delta : DecimalRounding.Decimal)
    (txType : TransactionType) (description : String) (auctionId : Option LotId) : UnitOfWork :=
  match work.users userId with
  | none => work
  | some user =>
      let balance := quantizeMoney (user.balance.toDecimal.add delta)
      { users := Function.update work.users userId (some { user with balance := balance })
        added := work.added ++ [⟨userId, txType, delta.abs, balance, description, auctionId⟩] }

end UnitOfWork

namespace Db

def addUser (d : Db) : Db := { d with users := d.users.add fun id => ⟨id, openingBalance⟩ }

def addAuction (d : Db) (row : LotId → Auction) : Db := { d with auctions := d.auctions.add row }

def flushAuction (d : Db) (auctionId : LotId) (loaded changed : Auction) : Db :=
  { d with auctions := d.auctions.modify auctionId (Auction.flush loaded changed) }

/-- `delete(AuctionImage)` for the lot, then one row for each url. -/
def replaceImages (d : Db) (auctionId : LotId) (urls : List String) : Db :=
  { d with images := d.images.filter (fun image => image.auctionId ≠ auctionId) ++
      urls.mapIdx fun i url => ⟨auctionId, url, i⟩ }

/-- `DELETE` of a lot: its images go with it, and `ON DELETE SET NULL` clears
the lot of ledger rows. -/
def deleteAuction (d : Db) (auctionId : LotId) : Db :=
  { d with
    auctions := d.auctions.erase auctionId
    images := d.images.filter fun image => image.auctionId ≠ auctionId
    transactions := d.transactions.map fun tx =>
      { tx with auctionId := if tx.auctionId = some auctionId then none else tx.auctionId } }

def addBid (d : Db) (amount : Money) (timestamp : Time) (userId : UserId) (auctionId : LotId) :
    Db :=
  { d with
    bids := d.bids ++ [⟨d.bidSerial, amount, timestamp, userId, auctionId⟩]
    bidSerial := d.bidSerial + 1 }

/-- Write the balances of the session's users and insert its ledger rows. -/
def flushWork (d : Db) (work : UnitOfWork) : Db :=
  { d with
    users := d.users.mapRows fun id row => match work.users id with
      | some user => { row with balance := user.balance }
      | none => row
    transactions := d.transactions ++
      work.added.mapIdx fun i tx => tx.row (d.transactionSerial + i)
    transactionSerial := d.transactionSerial + work.added.length }

def recordSettlement (d : Db) (settlement : Settlement) : Db :=
  { d with settlements := d.settlements ++ [settlement] }

end Db

inductive Key where
  | lot (id : LotId)
  | user (id : UserId)
  deriving DecidableEq

/-- The row-locked store of the marketplace. The note of an effect is the copy
of the lot that the session's identity map holds already, if any. -/
abbrev market : Store where
  State := Db
  Key := Key
  Time := Time
  Note := Option Auction
  Error := HTTPException
  keyEq := inferInstance
  hasRow d
    | .lot id => (d.auctions.get id).isSome
    | .user id => (d.users.get id).isSome
  admits := Db.admits
  readable _ _ := true
  observe held t d :=
    { d with lastReading := fun id => if held (.lot id) then some t else d.lastReading id }

end OnlineAuction
