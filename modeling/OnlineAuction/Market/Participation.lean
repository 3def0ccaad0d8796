import OnlineAuction.Library.Arrangements
import OnlineAuction.Market.BidHistory

/-! What a user is shown of their lots: `get_my_participation` of
`app/routers/auctions.py` and `get_user_profile` of `app/routers/users.py`, over
one state of the database. -/

namespace OnlineAuction

open Arrangements

/-- `seconds_until`: whole seconds, of which there are microseconds. -/
def secondsUntil (endTime now : Time) (isActive : Bool) : ℤ :=
  if isActive then max 0 ((endTime - now) / 1000000) else 0

structure ParticipationRow where
  auctionId : LotId
  title : String
  imageUrl : Option String
  currentPrice : Money
  myBid : Money
  isWinning : Bool
  endTime : Time
  timeRemaining : ℤ
  isActive : Bool
  auctionType : AuctionType

/-- `_participation_row`, at this reading of the clock. -/
def participationRow (now : Time) (auction : Auction) (myAmount : Option Money) :
    ParticipationRow where
  auctionId := auction.id
  title := auction.title
  imageUrl := auction.imageUrl
  currentPrice := auction.currentPrice
  myBid := myAmount.getD 0
  isWinning := some auction.currentPrice = myAmount
  endTime := auction.endTime
  timeRemaining := secondsUntil auction.endTime now auction.isActive
  isActive := auction.isActive
  auctionType := auction.auctionType

structure CreatedLotRow where
  auctionId : LotId
  title : String
  currentPrice : Money
  startingPrice : Money
  isActive : Bool
  winnerId : Option UserId
  bidsCount : Nat
  imageUrl : Option String
  endTime : Time
  timeRemaining : ℤ

/-- `_created_lot_row`. -/
def createdLotRow (now : Time) (auction : Auction) (bidsCount : Nat) : CreatedLotRow where
  auctionId := auction.id
  title := auction.title
  currentPrice := auction.currentPrice
  startingPrice := auction.startingPrice
  isActive := auction.isActive
  winnerId := auction.winnerId
  bidsCount := bidsCount
  imageUrl := auction.imageUrl
  endTime := auction.endTime
  timeRemaining := secondsUntil auction.endTime now auction.isActive

namespace Db

/-- The rows of `auctions`. -/
def lots (d : Db) : List Auction := (List.range d.auctions.serial).filterMap d.auctions.get

def bidsOf (d : Db) (userId : UserId) : List Bid := d.bids.filter fun bid => bid.userId = userId

/-- `order_by(Bid.auction_id, Bid.timestamp.desc())`. -/
abbrev ByLot : Bid → Bid → Prop := Latest.GroupedByTime Bid.timestamp Bid.auctionId

/-- `order_by(Auction.end_time.desc(), Auction.id.desc())`. -/
def LatestEnd (a b : Auction) : Prop :=
  b.endTime < a.endTime ∨ a.endTime = b.endTime ∧ b.id ≤ a.id

instance : DecidableRel LatestEnd := fun a b => by
  unfold LatestEnd
  infer_instance

/-- `order_by(Auction.start_time.desc(), Auction.id.desc())`. -/
def LatestStart (a b : Auction) : Prop :=
  b.startTime < a.startTime ∨ a.startTime = b.startTime ∧ b.id ≤ a.id

instance : DecidableRel LatestStart := fun a b => by
  unfold LatestStart
  infer_instance

/-- `order_by(Auction.is_active.desc(), ...)`, the active lots first. -/
def ActiveFirst (a b : Auction) : Prop :=
  b.isActive < a.isActive ∨ a.isActive = b.isActive ∧ LatestStart a b

instance : DecidableRel ActiveFirst := fun a b => by
  unfold ActiveFirst
  infer_instance

def participationBucketLimit : Nat := 200

/-- The join of the lots with `my_last_bids_sub`: the first bid on each lot of the
user's bids, as the database has arranged them. -/
def participatingRows (d : Db) (mine : List Bid) : List (Auction × Money) :=
  let joined := (Latest.distinctOn Bid.auctionId mine).filterMap fun bid =>
    (d.auctions.get bid.auctionId).map fun auction => (auction, bid.amount)
  (joined.insertionSort fun a b => LatestEnd a.1 b.1).take participationBucketLimit

def lotsOf (d : Db) (userId : UserId) : List Auction :=
  d.lots.filter fun auction => auction.createdBy = userId

end Db

structure ParticipationStats where
  totalBids : Nat
  wonCount : Nat
  activeCount : Nat
  createdCount : Nat

structure Participation where
  activeBids : List ParticipationRow
  wonAuctions : List ParticipationRow
  lostAuctions : List ParticipationRow
  createdAuctions : List CreatedLotRow
  stats : ParticipationStats

/-- `GET /auctions/my/participation`. The database has arranged the user's bids as
`mine`; `now` are the readings of the clock for the rows of the lots. -/
def getMyParticipation (d : Db) (userId : UserId) (mine : List Bid) (now : LotId → Time) :
    Participation :=
  let rows (bucket : Auction → Bool) : List ParticipationRow :=
    ((d.participatingRows mine).filter fun row => bucket row.1).map fun row =>
      participationRow (now row.1.id) row.1 (some row.2)
  let active := rows fun auction => auction.isActive
  let won := rows fun auction => !auction.isActive && auction.winnerId = some userId
  let lost := rows fun auction => !auction.isActive && auction.winnerId ≠ some userId
  let created := ((d.lotsOf userId).insertionSort Db.ActiveFirst).take Db.participationBucketLimit
  { activeBids := active.insertionSort fun a b => a.timeRemaining ≤ b.timeRemaining
    wonAuctions := won.insertionSort fun a b => b.endTime ≤ a.endTime
    lostAuctions := lost.insertionSort fun a b => b.endTime ≤ a.endTime
    createdAuctions := created.map fun auction =>
      createdLotRow (now auction.id) auction (d.bidsOn auction.id).length
    stats :=
      { totalBids := (d.bidsOf userId).length
        wonCount := won.length
        activeCount := active.length
        createdCount := created.length } }

structure ProfileStats where
  createdCount : Nat
  totalBids : Nat
  wonCount : Nat
  lostCount : Nat

structure ProfileLotRow where
  id : LotId
  title : String
  currentPrice : Money
  startingPrice : Money
  isActive : Bool
  isCompleted : Bool
  endTime : Time
  winnerId : Option UserId
  imageUrl : Option String
  timeRemaining : ℤ

structure UserProfile where
  auctions : List ProfileLotRow
  stats : ProfileStats

def profileLotRow (now : Time) (auction : Auction) : ProfileLotRow where
  id := auction.id
  title := auction.title
  currentPrice := auction.currentPrice
  startingPrice := auction.startingPrice
  isActive := auction.isActive
  isCompleted := auction.isCompleted
  endTime := auction.endTime
  winnerId := auction.winnerId
  imageUrl := auction.imageUrl
  timeRemaining := secondsUntil auction.endTime now auction.isActive

def userProfileAuctionsLimit : Nat := 100

def getUserProfile (d : Db) (userId : UserId) (now : LotId → Time) : UserProfile where
  auctions := (((d.lotsOf userId).insertionSort Db.LatestStart).take userProfileAuctionsLimit).map
    fun auction => profileLotRow (now auction.id) auction
  stats :=
    { createdCount := (d.lotsOf userId).length
      totalBids := (d.bidsOf userId).length
      wonCount := d.lots.countP fun auction =>
        auction.winnerId = some userId && auction.isCompleted
      lostCount := d.lots.countP fun auction =>
        ((d.bidsOf userId).map Bid.auctionId).contains auction.id && auction.isCompleted &&
          (auction.winnerId.any (· ≠ userId) || auction.winnerId.isNone) }

namespace Db

def lotsBidOn (d : Db) (userId : UserId) : List Auction :=
  d.lots.filter fun auction => ((d.bidsOf userId).map Bid.auctionId).contains auction.id

def listedLots (d : Db) (userId : UserId) : List Auction :=
  ((d.lotsBidOn userId).insertionSort LatestEnd).take participationBucketLimit

variable {A : Assumptions} {d : Db} {userId : UserId} {mine : List Bid}

theorem mem_bidsOf {bid : Bid} : bid ∈ d.bidsOf userId ↔ bid ∈ d.bids ∧ bid.userId = userId := by
  simp [bidsOf]

theorem mem_lots (hWell : WellFormed A d) {row : Auction} :
    row ∈ d.lots ↔ d.auctions.get row.id = some row := by
  constructor
  · intro hRow
    obtain ⟨id, _, hGet⟩ := List.mem_filterMap.mp hRow
    rwa [hWell.auctionIds id row hGet]
  · exact fun hGet => List.mem_filterMap.mpr
      ⟨row.id, List.mem_range.mpr (Table.lt_serial hGet), hGet⟩

theorem lots_increasing (hWell : WellFormed A d) : d.lots.Pairwise fun a b => a.id < b.id := by
  apply List.Pairwise.filterMap _ _ List.pairwise_lt_range
  intro id id' hLt row hRow row' hRow'
  rw [hWell.auctionIds id row hRow, hWell.auctionIds id' row' hRow']
  exact hLt

theorem mem_lotsBidOn (hWell : WellFormed A d) {row : Auction} : row ∈ d.lotsBidOn userId ↔
    d.auctions.get row.id = some row ∧ ∃ bid ∈ d.bidsOf userId, bid.auctionId = row.id := by
  simp [lotsBidOn, mem_lots hWell]

/-- The first bid on each lot, in the order of the lots. -/
theorem distinctOn_increasing (hSorted : mine.Pairwise ByLot) :
    (Latest.distinctOn Bid.auctionId mine).Pairwise fun a b => a.auctionId < b.auctionId := by
  induction mine with
  | nil => exact .nil
  | cons first rest ih =>
      obtain ⟨hFirst, hRest⟩ := List.pairwise_cons.mp hSorted
      refine List.pairwise_cons.mpr ⟨fun bid hBid => ?_, (ih hRest).filter _⟩
      obtain ⟨hMem, hOther⟩ := List.mem_filter.mp hBid
      have hOther := of_decide_eq_true hOther
      rcases hFirst bid (Latest.mem_of_mem_distinctOn _ hMem) with hLt | ⟨hSame, _⟩
      · exact hLt
      · exact absurd hSame.symm hOther

/-- However the database arranges the bids, the same lots are listed. -/
theorem participatingRows_lots (hWell : WellFormed A d)
    (hMine : Arrangement ByLot (d.bidsOf userId) mine) :
    (d.participatingRows mine).map Prod.fst = d.listedLots userId := by
  have hJoined : ((Latest.distinctOn Bid.auctionId mine).filterMap fun bid =>
      (d.auctions.get bid.auctionId).map fun auction => (auction, bid.amount)).map Prod.fst =
        d.lotsBidOn userId := by
    have hLots : ((Latest.distinctOn Bid.auctionId mine).filterMap fun bid =>
        (d.auctions.get bid.auctionId).map fun auction => (auction, bid.amount)).map Prod.fst =
          (Latest.distinctOn Bid.auctionId mine).filterMap fun bid =>
            d.auctions.get bid.auctionId := by
      simp [List.map_filterMap, Function.comp_def]
    rw [hLots]
    have hStrict : Std.Irrefl fun a b : Auction => a.id < b.id := ⟨fun a => lt_irrefl a.id⟩
    have hAntisymm : Std.Antisymm fun a b : Auction => a.id < b.id :=
      ⟨fun a b hLt hGt => absurd hLt hGt.asymm⟩
    apply List.Pairwise.eq_of_mem_iff (r := fun a b => a.id < b.id)
    · apply List.Pairwise.filterMap _ _ (distinctOn_increasing hMine.sorted)
      intro bid bid' hLt row hRow row' hRow'
      rw [hWell.auctionIds _ row hRow, hWell.auctionIds _ row' hRow']
      exact hLt
    · exact (lots_increasing hWell).filter _
    · intro row
      rw [mem_lotsBidOn hWell, List.mem_filterMap]
      constructor
      · intro hRow
        obtain ⟨bid, hBid, hGet⟩ := hRow
        have hId := hWell.auctionIds _ row hGet
        have hMem := hMine.mem_iff.mp (Latest.mem_of_mem_distinctOn _ hBid)
        exact ⟨hId ▸ hGet, bid, hMem, hId.symm⟩
      · intro hRow
        obtain ⟨hGet, bid, hBid, hLot⟩ := hRow
        obtain ⟨first, hFirst, hSame⟩ :=
          Latest.exists_mem_distinctOn Bid.auctionId (hMine.mem_iff.mpr hBid)
        exact ⟨first, hFirst, by rw [hSame, hLot, hGet]⟩
  rw [participatingRows, List.map_take,
    List.map_insertionSort (fun a b => LatestEnd a.1 b.1) LatestEnd Prod.fst _ fun _ _ _ _ => Iff.rfl,
    hJoined]
  rfl

/-- A lot is listed with the amount of the user's first bid on it. -/
theorem mem_participatingRows (hWell : WellFormed A d) {auction : Auction} {amount : Money}
    (h : (auction, amount) ∈ d.participatingRows mine) :
    d.auctions.get auction.id = some auction ∧ ∃ bid,
      (mine.filter fun bid => bid.auctionId = auction.id).head? = some bid ∧
        bid.amount = amount := by
  have hJoined := List.mem_insertionSort _ |>.mp (List.mem_of_mem_take h)
  obtain ⟨bid, hBid, hRow⟩ := List.mem_filterMap.mp hJoined
  obtain ⟨row, hGet, hPair⟩ := Option.map_eq_some_iff.mp hRow
  cases hPair
  have hId := hWell.auctionIds _ auction hGet
  refine ⟨hId ▸ hGet, bid, ?_, rfl⟩
  rw [← Option.mem_toList, ← Latest.filter_distinctOn, List.mem_filter]
  exact ⟨hBid, decide_eq_true hId.symm⟩

end Db

end OnlineAuction
