import OnlineAuction.Library.Contracts
import OnlineAuction.Market.Postings

/-! What one transaction of the marketplace does to the committed database.
Each constructor of `Commit` states the write against the rows as they stand
at that moment, with what the handler has made sure of by then. -/

namespace OnlineAuction

open RowLocks

namespace Db

def setAuction (d : Db) (auctionId : LotId) (new : Auction) : Db :=
  { d with auctions := d.auctions.modify auctionId fun _ => new }

/-- What the lot contributes to the money the user must keep available. -/
def reservedOn (d : Db) (userId : UserId) (auctionId : LotId) : Money :=
  match d.auctions.get auctionId with
  | some row =>
      if row.isActive = true ∧ (d.lastBid auctionId).map Bid.userId = some userId then
        row.currentPrice
      else 0
  | none => 0

def reserved (d : Db) (userId : UserId) : Money :=
  ∑ auctionId ∈ Finset.range d.auctions.serial, d.reservedOn userId auctionId

end Db

/-- `utcnow()` readings taken under one lot's lock are nondecreasing. -/
def ClockMonotone : Guard market := fun d held e =>
  match e with
  | .clock _ t => ∀ auctionId < d.auctions.serial, held (.lot auctionId) = true →
      ∀ last ∈ d.lastReading auctionId, last ≤ t
  | _ => True

/-- A session that loaded the lot while it was active is granted its lock only
while the lot is active still, or has no bids. -/
def SettlesOnce : Guard market := fun d _ e =>
  match e with
  | .lock (.lot auctionId) (some copy) => ∀ row ∈ d.auctions.get auctionId,
      copy.isActive = true → d.bidsOn auctionId ≠ [] → row.isActive = true
  | _ => True

/-- A session that has loaded the lot is granted its lock only while the
stored deadline is not later than the loaded one. -/
def DeadlineKept : Guard market := fun d _ e =>
  match e with
  | .lock (.lot auctionId) (some copy) => ∀ row ∈ d.auctions.get auctionId,
      row.endTime ≤ copy.endTime
  | _ => True

instance (d : Db) (held : Held market) (e : Event market) : Decidable (ClockMonotone d held e) := by
  unfold ClockMonotone
  split <;> infer_instance

instance (d : Db) (held : Held market) (e : Event market) : Decidable (SettlesOnce d held e) := by
  unfold SettlesOnce
  split <;> infer_instance

instance (d : Db) (held : Held market) (e : Event market) : Decidable (DeadlineKept d held e) := by
  unfold DeadlineKept
  split <;> infer_instance

/-- Which conditions a group of results assumes. -/
structure Assumptions where
  clockMonotone : Prop
  settlesOnce : Prop
  deadlineKept : Prop

def Assumptions.ok (A : Assumptions) : Guard market := fun d held e =>
  (A.clockMonotone → ClockMonotone d held e) ∧ (A.settlesOnce → SettlesOnce d held e) ∧
    (A.deadlineKept → DeadlineKept d held e)

/-- A lot as `create_auction` inserts it. -/
structure Opened (d : Db) (id : LotId) (row : Auction) : Prop where
  id : row.id = id
  creator : (d.users.get row.createdBy).isSome
  active : row.isActive = true ∧ row.isCompleted = false ∧ row.winnerId = none
  price : row.currentPrice = row.startingPrice
  positive : 0 < row.currentPrice
  binPrice : ∀ price, row.binPrice = some price → 0 < price ∧ price ≤ maxUserBalance
  fixedPrice : row.auctionType = .bin → row.binPrice = some row.startingPrice
  extensions : row.extensionsCount = 0

/-- A lot as `update_auction` leaves it. -/
structure Revised (old new : Auction) : Prop where
  id : new.id = old.id
  createdBy : new.createdBy = old.createdBy
  state : new.isActive = old.isActive ∧ new.isCompleted = old.isCompleted ∧
    new.winnerId = old.winnerId
  price : old.currentPrice = old.startingPrice → new.currentPrice = new.startingPrice
  positive : 0 < new.currentPrice
  binPrice : ∀ price, new.binPrice = some price → 0 < price ∧ price ≤ maxUserBalance

/-- A lot as `complete_auction` leaves it, with this winner. -/
structure Closed (old new : Auction) (winnerId : Option UserId) : Prop where
  id : new.id = old.id
  createdBy : new.createdBy = old.createdBy
  title : new.title = old.title
  description : new.description = old.description
  categoryId : new.categoryId = old.categoryId
  startingPrice : new.startingPrice = old.startingPrice
  currentPrice : new.currentPrice = old.currentPrice
  imageUrl : new.imageUrl = old.imageUrl
  endTime : new.endTime = old.endTime
  auctionType : new.auctionType = old.auctionType
  binPrice : new.binPrice = old.binPrice
  extensionsCount : new.extensionsCount = old.extensionsCount
  inactive : new.isActive = false
  completed : new.isCompleted = true
  winner : new.winnerId = winnerId

/-- A lot as `buy_now` leaves it. -/
def soldTo (auction : Auction) (price : Money) (buyer : UserId) (now : Time) : Auction :=
  { auction with
    currentPrice := price
    isActive := false
    isCompleted := true
    winnerId := some buyer
    endTime := now }

/-- The images after a `PATCH`: those of the lot are replaced when it names any. -/
def AuctionUpdate.images (data : AuctionUpdate) (d : Db) (auctionId : LotId) : List AuctionImage :=
  match data.imageUrls.join with
  | some urls => (d.replaceImages auctionId urls).images
  | none => d.images

/-- One committed transaction, or one clock reading, of a session that serves the
request and holds the locks `held`. -/
inductive Commit (percent : CommissionPercent) (A : Assumptions) (request : Request)
    (held : Held market) (d : Db) : Db → Prop where
  | idle : Commit percent A request held d d
  | observe (t : Time) (hClock : A.clockMonotone → ClockMonotone d held (.clock none t)) :
      Commit percent A request held d (market.observe held t d)
  | register : Commit percent A request held d d.addUser
  | deposit (userId : UserId) (user : User) (amount : Money) (description : String)
      (hHeld : held (.user userId) = true) (hUser : d.users.get userId = some user)
      (hPos : 0 < amount) (hCap : user.balance + amount ≤ maxUserBalance) :
      Commit percent A request held d (d.post ⟨userId, amount, .deposit, description, none⟩)
  | withdraw (userId : UserId) (user : User) (amount : Money) (description : String)
      (hHeld : held (.user userId) = true) (hUser : d.users.get userId = some user)
      (hPos : 0 < amount)
      (hFunds : A.clockMonotone → d.reserved userId + amount ≤ user.balance) :
      Commit percent A request held d (d.post ⟨userId, -amount, .withdrawal, description, none⟩)
  | create (row : LotId → Auction) (hOpened : Opened d d.auctions.serial (row d.auctions.serial)) :
      Commit percent A request held d (d.addAuction row)
  | illustrate (auctionId : LotId) (userId : UserId) (data : AuctionCreate)
      (hRequest : request = .createAuction userId data)
      (hOwner : ∀ row, d.auctions.get auctionId = some row → row.createdBy = userId) :
      Commit percent A request held d
        { d with images := d.images ++ data.allUrls.mapIdx fun i url => ⟨auctionId, url, i⟩ }
  | revise (auctionId : LotId) (old new : Auction) (userId : UserId) (data : AuctionUpdate)
      (hRequest : request = .updateAuction userId auctionId data)
      (hHeld : held (.lot auctionId) = true) (hRow : d.auctions.get auctionId = some old)
      (hNoBids : d.bidsOn auctionId = []) (hActive : old.isActive = true)
      (hRevised : Revised old new) (hEdited : new = data.dragAlong (data.edit old))
      (hBinPrice : (data.edit old).auctionType = .bin → (data.edit old).binPrice ≠ none) :
      Commit percent A request held d
        { d.setAuction auctionId new with images := data.images d auctionId }
  | remove (auctionId : LotId) (row : Auction) (hHeld : held (.lot auctionId) = true)
      (hRow : d.auctions.get auctionId = some row) (hNoBids : d.bidsOn auctionId = [])
      (hCompleted : row.isCompleted = false) :
      Commit percent A request held d (d.deleteAuction auctionId)
  | bid (auctionId : LotId) (old : Auction) (userId : UserId) (user : User) (amount : Money)
      (now t : Time) (hHeld : held (.lot auctionId) = true) (hUserHeld : held (.user userId) = true)
      (hRow : d.auctions.get auctionId = some old) (hUser : d.users.get userId = some user)
      (hActive : old.isActive = true) (hType : old.auctionType = .bid)
      (hOwn : old.createdBy ≠ userId) (hHigher : old.currentPrice < amount)
      (hMax : amount ≤ maxUserBalance)
      (hTurn : (d.lastBid auctionId).map Bid.userId ≠ some userId)
      (hFunds : A.clockMonotone → d.reserved userId + amount ≤ user.balance)
      (hTime : d.lastReading auctionId = some t)
      (hRequest : ∃ data, request = .placeBid userId data ∧ data.auctionId = auctionId) :
      Commit percent A request held d
        ((d.setAuction auctionId (acceptBid old amount now).1).addBid amount t userId auctionId)
  | purchase (auctionId : LotId) (old : Auction) (buyer : UserId) (user : User) (price : Money)
      (now : Time) (bought sold : String) (hRequest : request = .buyNow buyer auctionId)
      (hHeld : held (.lot auctionId) = true)
      (hBuyer : held (.user buyer) = true) (hSeller : held (.user old.createdBy) = true)
      (hRow : d.auctions.get auctionId = some old) (hUser : d.users.get buyer = some user)
      (hActive : old.isActive = true) (hType : old.auctionType = .bin)
      (hPrice : old.binPrice = some price) (hOwn : old.createdBy ≠ buyer)
      (hFunds : A.clockMonotone → d.reserved buyer + price ≤ user.balance) :
      Commit percent A request held d
        ((d.setAuction auctionId (soldTo old price buyer now)).postAll
          (settlementOf percent .binPurchase buyer old.createdBy price auctionId bought sold))
  | close (auctionId : LotId) (old new : Auction) (settlement : Settlement)
      (hHeld : held (.lot auctionId) = true) (hRow : d.auctions.get auctionId = some old)
      (hNoBids : d.bidsOn auctionId = []) (hClosed : Closed old new old.winnerId)
      (hDeadline : A.deadlineKept → settlement.storedEnd ≤ settlement.reading) :
      Commit percent A request held d ((d.setAuction auctionId new).recordSettlement settlement)
  | settle (auctionId : LotId) (old new : Auction) (lastBid : Bid) (seller : UserId)
      (bought sold : String) (settlement : Settlement)
      (hRequest : request = .tick auctionId ∨ request = .completeAuction auctionId)
      (hHeld : held (.lot auctionId) = true)
      (hWinner : held (.user lastBid.userId) = true) (hSeller : held (.user seller) = true)
      (hRow : d.auctions.get auctionId = some old)
      (hLast : d.lastBid auctionId = some lastBid) (hSellerRow : (d.users.get seller).isSome)
      (hOwner : seller = old.createdBy) (hClosed : Closed old new (some lastBid.userId))
      (hOnce : A.settlesOnce → old.isActive = true)
      (hDeadline : A.deadlineKept → settlement.storedEnd ≤ settlement.reading) :
      Commit percent A request held d
        (((d.setAuction auctionId new).postAll
          (settlementOf percent .bidWin lastBid.userId seller lastBid.amount auctionId bought
            sold)).recordSettlement settlement)

end OnlineAuction
