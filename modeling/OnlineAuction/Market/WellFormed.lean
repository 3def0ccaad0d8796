import OnlineAuction.Market.Commits

/-! What every transaction relies on and keeps: the references between the
tables, the ranges of the columns and the order of the bids. -/

namespace OnlineAuction

open RowLocks

structure WellFormed (A : Assumptions) (d : Db) : Prop where
  userIds : ∀ id row, d.users.get id = some row → row.id = id
  auctionIds : ∀ id row, d.auctions.get id = some row → row.id = id
  creators : ∀ id row, d.auctions.get id = some row → (d.users.get row.createdBy).isSome
  positive : ∀ id row, d.auctions.get id = some row → 0 < row.currentPrice
  binPrices : ∀ id row price, d.auctions.get id = some row → row.binPrice = some price →
    0 < price ∧ price ≤ maxUserBalance
  undecided : ∀ id row, d.auctions.get id = some row → row.isActive = true →
    row.isCompleted = false ∧ row.winnerId = none
  bidRows : ∀ bid ∈ d.bids, (d.users.get bid.userId).isSome ∧ bid.auctionId < d.auctions.serial ∧
    0 < bid.amount ∧ bid.amount ≤ maxUserBalance
  bidIds : d.bids.Pairwise fun a b => a.id < b.id
  bidSerial : ∀ bid ∈ d.bids, bid.id < d.bidSerial
  timestamps : A.clockMonotone →
    d.bids.Pairwise fun a b => a.auctionId = b.auctionId → a.timestamp ≤ b.timestamp
  readings : A.clockMonotone → ∀ bid ∈ d.bids, ∃ last,
    d.lastReading bid.auctionId = some last ∧ bid.timestamp ≤ last

namespace Db

theorem mem_bidsOn {d : Db} {auctionId : LotId} {bid : Bid} :
    bid ∈ d.bidsOn auctionId ↔ bid ∈ d.bids ∧ bid.auctionId = auctionId := by
  simp [bidsOn]

theorem bidsOn_congr {d d' : Db} (h : d'.bids = d.bids) (auctionId : LotId) :
    d'.bidsOn auctionId = d.bidsOn auctionId := by
  simp [bidsOn, h]

/-- The last bid is read off the bids on the lot. -/
theorem lastBid_congr {d d' : Db} {auctionId : LotId} (h : d'.bidsOn auctionId = d.bidsOn auctionId) :
    d'.lastBid auctionId = d.lastBid auctionId := by
  simp [lastBid, h]

theorem lastBid_mem {d : Db} {auctionId : LotId} {bid : Bid} (h : d.lastBid auctionId = some bid) :
    bid ∈ d.bids ∧ bid.auctionId = auctionId := mem_bidsOn.mp (Latest.latest_mem h)

/-- A lot has no last bid exactly when it has no bids. -/
theorem lastBid_eq_none {d : Db} {auctionId : LotId} :
    d.lastBid auctionId = none ↔ d.bidsOn auctionId = [] := Latest.latest_eq_none

theorem bidsOn_addBid_self (d : Db) (amount : Money) (t : Time) (userId : UserId)
    (auctionId : LotId) :
    (d.addBid amount t userId auctionId).bidsOn auctionId =
      d.bidsOn auctionId ++ [⟨d.bidSerial, amount, t, userId, auctionId⟩] := by
  simp [bidsOn, addBid]

theorem bidsOn_addBid_other (d : Db) (amount : Money) (t : Time) (userId : UserId)
    {auctionId other : LotId} (h : other ≠ auctionId) :
    (d.addBid amount t userId auctionId).bidsOn other = d.bidsOn other := by
  simp [bidsOn, addBid, Ne.symm h]

@[simp] theorem get_setAuction_self {d : Db} {auctionId : LotId} {old : Auction}
    (h : d.auctions.get auctionId = some old) (new : Auction) :
    (d.setAuction auctionId new).auctions.get auctionId = some new := by
  simp [setAuction, h]

theorem get_setAuction_other (d : Db) {auctionId id : LotId} (new : Auction)
    (h : id ≠ auctionId) :
    (d.setAuction auctionId new).auctions.get id = d.auctions.get id :=
  Table.get_modify_other _ _ h

/-- Writing the changed columns over the stored row. -/
theorem flushAuction_eq {d : Db} {auctionId : LotId} {row : Auction}
    (h : d.auctions.get auctionId = some row) (loaded changed : Auction) :
    d.flushAuction auctionId loaded changed =
      d.setAuction auctionId (Auction.flush loaded changed row) := by
  simp only [flushAuction, setAuction, Table.modify_const h]

/-- Writing back the row that is there changes nothing. -/
theorem setAuction_self {d : Db} {auctionId : LotId} {row : Auction}
    (h : d.auctions.get auctionId = some row) : d.setAuction auctionId row = d := by
  ext1
  · rfl
  · apply Table.ext
    · funext id
      by_cases hId : id = auctionId
      · subst hId
        rw [get_setAuction_self h, h]
      · exact get_setAuction_other d row hId
    · rfl
  all_goals rfl

end Db

namespace WellFormed

variable {A : Assumptions} {d : Db}

/-- The bids of a lot were written in order of time and number. -/
theorem bidsOn_older (h : WellFormed A d) (hClock : A.clockMonotone) (auctionId : LotId) :
    (d.bidsOn auctionId).Pairwise (Latest.Older Bid.timestamp Bid.id) := by
  refine (((h.timestamps hClock).and h.bidIds).filter _).imp_of_mem fun {a b} ha hb hab => ?_
  have hA : a.auctionId = auctionId := (Db.mem_bidsOn.mp ha).2
  have hB : b.auctionId = auctionId := (Db.mem_bidsOn.mp hb).2
  exact ⟨hab.1 (hA.trans hB.symm), hab.2⟩

/-- The latest bid is the one written last. -/
theorem lastBid_eq (h : WellFormed A d) (hClock : A.clockMonotone) (auctionId : LotId) :
    d.lastBid auctionId = (d.bidsOn auctionId).getLast? :=
  Latest.latest_eq_getLast? (h.bidsOn_older hClock auctionId)

theorem lot_exists (h : WellFormed A d) {bid : Bid} (hBid : bid ∈ d.bids) :
    bid.auctionId < d.auctions.serial := (h.bidRows bid hBid).2.1

theorem of_initial (A : Assumptions) (categories : List Nat) :
    WellFormed A (Db.initial categories) := by
  constructor <;> simp [Db.initial]

/-- Only the columns that are not mentioned may change. -/
theorem congr {d' : Db} (h : WellFormed A d) (hUsers : d'.users = d.users)
    (hAuctions : d'.auctions = d.auctions) (hBids : d'.bids = d.bids)
    (hSerial : d'.bidSerial = d.bidSerial) (hReading : d'.lastReading = d.lastReading) :
    WellFormed A d' := by
  constructor
  all_goals simp only [hUsers, hAuctions, hBids, hSerial, hReading]
  · exact h.userIds
  · exact h.auctionIds
  · exact h.creators
  · exact h.positive
  · exact h.binPrices
  · exact h.undecided
  · exact h.bidRows
  · exact h.bidIds
  · exact h.bidSerial
  · exact h.timestamps
  · exact h.readings

theorem post (h : WellFormed A d) (p : Posting) : WellFormed A (d.post p) := by
  have hSome (id : UserId) := Db.isSome_postAll d [p] id
  simp only [Db.postAll_cons, Db.postAll_nil] at hSome
  constructor
  · intro id row hRow
    cases hUser : d.users.get p.userId with
    | none => exact h.userIds id row (by rwa [Db.post_none hUser] at hRow)
    | some user =>
        by_cases hId : id = p.userId
        · subst hId
          rw [Db.get_post_self hUser, Option.some.injEq] at hRow
          rw [← hRow]
          have hUserId : user.id = p.userId := h.userIds _ _ hUser
          exact hUserId
        · exact h.userIds id row (by rwa [Db.get_post_other d hId] at hRow)
  all_goals simp only [hSome, Db.post_auctions, Db.post_bids, Db.post_bidSerial, Db.post_lastReading]
  · exact h.auctionIds
  · exact h.creators
  · exact h.positive
  · exact h.binPrices
  · exact h.undecided
  · exact h.bidRows
  · exact h.bidIds
  · exact h.bidSerial
  · exact h.timestamps
  · exact h.readings

theorem postAll (h : WellFormed A d) (postings : List Posting) : WellFormed A (d.postAll postings) :=
  Db.postAll_induction (fun _ p _ hWell => hWell.post p) h

structure Lot (d : Db) (id : LotId) (row : Auction) : Prop where
  id : row.id = id
  creator : (d.users.get row.createdBy).isSome
  positive : 0 < row.currentPrice
  binPrice : ∀ price, row.binPrice = some price → 0 < price ∧ price ≤ maxUserBalance
  undecided : row.isActive = true → row.isCompleted = false ∧ row.winnerId = none

theorem lot (h : WellFormed A d) {id : LotId} {row : Auction} (hRow : d.auctions.get id = some row) :
    Lot d id row :=
  ⟨h.auctionIds id row hRow, h.creators id row hRow, h.positive id row hRow,
    fun price => h.binPrices id row price hRow, h.undecided id row hRow⟩

/-- Other lots may be stored, as long as each is in order and no lot that has
bids goes away. -/
theorem withAuctions {auctions : Table Auction} (h : WellFormed A d)
    (hLots : ∀ id row, auctions.get id = some row → Lot d id row)
    (hSerial : d.auctions.serial ≤ auctions.serial) :
    WellFormed A { d with auctions := auctions } where
  userIds := h.userIds
  auctionIds id row hRow := (hLots id row hRow).id
  creators id row hRow := (hLots id row hRow).creator
  positive id row hRow := (hLots id row hRow).positive
  binPrices id row price hRow := (hLots id row hRow).binPrice price
  undecided id row hRow := (hLots id row hRow).undecided
  bidRows bid hBid :=
    ⟨(h.bidRows bid hBid).1, (h.lot_exists hBid).trans_le hSerial, (h.bidRows bid hBid).2.2⟩
  bidIds := h.bidIds
  bidSerial := h.bidSerial
  timestamps := h.timestamps
  readings := h.readings

/-- A well-formed row may replace the one that is there. -/
theorem setAuction (h : WellFormed A d) {auctionId : LotId} {new : Auction}
    (hNew : Lot d auctionId new) : WellFormed A (d.setAuction auctionId new) := by
  refine h.withAuctions (fun id row hRow => ?_) le_rfl
  by_cases hId : id = auctionId
  · subst hId
    simp only [Table.get_modify_self, Option.map_eq_some_iff] at hRow
    obtain ⟨_, _, rfl⟩ := hRow
    exact hNew
  · rw [Table.get_modify_other _ _ hId] at hRow
    exact h.lot hRow

/-- A bid no earlier than the lot's last reading. -/
theorem addBid (h : WellFormed A d) {amount : Money} {t : Time} {userId : UserId}
    {auctionId : LotId} (hUser : (d.users.get userId).isSome)
    (hLot : auctionId < d.auctions.serial) (hPos : 0 < amount) (hMax : amount ≤ maxUserBalance)
    (hTime : d.lastReading auctionId = some t) :
    WellFormed A (d.addBid amount t userId auctionId) where
  userIds := h.userIds
  auctionIds := h.auctionIds
  creators := h.creators
  positive := h.positive
  binPrices := h.binPrices
  undecided := h.undecided
  bidRows bid hBid := by
    rcases List.mem_append.mp hBid with hOld | hNew
    · exact h.bidRows bid hOld
    · rw [List.mem_singleton] at hNew
      subst hNew
      exact ⟨hUser, hLot, hPos, hMax⟩
  bidIds := by
    refine List.pairwise_append.mpr ⟨h.bidIds, by simp, fun bid hBid new hNew => ?_⟩
    rw [List.mem_singleton] at hNew
    subst hNew
    exact h.bidSerial bid hBid
  bidSerial bid hBid := by
    rcases List.mem_append.mp hBid with hOld | hNew
    · exact (h.bidSerial bid hOld).trans (Nat.lt_succ_self _)
    · rw [List.mem_singleton] at hNew
      subst hNew
      exact Nat.lt_succ_self _
  timestamps hClock := by
    refine List.pairwise_append.mpr ⟨h.timestamps hClock, by simp, fun bid hBid new hNew hSame => ?_⟩
    rw [List.mem_singleton] at hNew
    subst hNew
    obtain ⟨last, hLast, hLe⟩ := h.readings hClock bid hBid
    rw [hSame, hTime, Option.some.injEq] at hLast
    exact hLast ▸ hLe
  readings hClock bid hBid := by
    rcases List.mem_append.mp hBid with hOld | hNew
    · exact h.readings hClock bid hOld
    · rw [List.mem_singleton] at hNew
      subst hNew
      exact ⟨t, hTime, le_rfl⟩

/-- A clock reading that does not run behind the lots it is taken under. -/
theorem observe (h : WellFormed A d) {held : Held market} {t : Time}
    (hClock : A.clockMonotone → ClockMonotone d held (.clock none t)) :
    WellFormed A (market.observe held t d) where
  userIds := h.userIds
  auctionIds := h.auctionIds
  creators := h.creators
  positive := h.positive
  binPrices := h.binPrices
  undecided := h.undecided
  bidRows := h.bidRows
  bidIds := h.bidIds
  bidSerial := h.bidSerial
  timestamps := h.timestamps
  readings hA bid hBid := by
    obtain ⟨last, hLast, hLe⟩ := h.readings hA bid hBid
    by_cases hHeld : held (.lot bid.auctionId) = true
    · exact ⟨t, by simp [hHeld], hLe.trans
        (hClock hA bid.auctionId (h.lot_exists hBid) hHeld last hLast)⟩
    · exact ⟨last, by simpa [hHeld] using hLast, hLe⟩

theorem addUser (h : WellFormed A d) : WellFormed A d.addUser := by
  have hSome : ∀ {id : UserId}, (d.users.get id).isSome → (d.addUser.users.get id).isSome := by
    intro id hId
    obtain ⟨row, hRow⟩ := Option.isSome_iff_exists.mp hId
    rw [Option.isSome_iff_exists]
    exact ⟨row, Table.get_add_old hRow _⟩
  refine { h with userIds := ?_, creators := ?_, bidRows := ?_ }
  · intro id row hRow
    simp only [Db.addUser, Table.get_add] at hRow
    split_ifs at hRow with hId
    · exact (Option.some.inj hRow) ▸ rfl
    · exact h.userIds id row hRow
  · exact fun id row hRow => hSome (h.creators id row hRow)
  · exact fun bid hBid => ⟨hSome (h.bidRows bid hBid).1, (h.bidRows bid hBid).2⟩

/-- A lot that is opened without bids keeps the database well formed. -/
theorem addAuction (h : WellFormed A d) {row : LotId → Auction}
    (hOpened : Opened d d.auctions.serial (row d.auctions.serial)) :
    WellFormed A (d.addAuction row) := by
  refine h.withAuctions (fun id new hNew => ?_) (Nat.le_succ _)
  rcases Table.of_get_add hNew with ⟨rfl, rfl⟩ | hNew
  · exact ⟨hOpened.id, hOpened.creator, hOpened.positive, hOpened.binPrice,
      fun _ => hOpened.active.2⟩
  · exact h.lot hNew

/-- Deleting a lot keeps the database well formed. -/
theorem deleteAuction (h : WellFormed A d) (auctionId : LotId) :
    WellFormed A (d.deleteAuction auctionId) := by
  have hErased : WellFormed A { d with auctions := d.auctions.erase auctionId } := by
    refine h.withAuctions (fun id row hRow => ?_) le_rfl
    simp only [Table.get_erase] at hRow
    split_ifs at hRow
    exact h.lot hRow
  exact hErased.congr rfl rfl rfl rfl rfl

/-- A lot that passes to a state that is not active keeps its order. -/
theorem lot_of_inactive (h : WellFormed A d) {auctionId : LotId} {old new : Auction}
    (hRow : d.auctions.get auctionId = some old) (hId : new.id = old.id)
    (hCreator : new.createdBy = old.createdBy) (hPos : 0 < new.currentPrice)
    (hBin : new.binPrice = old.binPrice) (hInactive : new.isActive = false) :
    Lot d auctionId new where
  id := hId.trans (h.auctionIds _ _ hRow)
  creator := hCreator ▸ h.creators _ _ hRow
  positive := hPos
  binPrice price hPrice := h.binPrices _ _ price hRow (hBin ▸ hPrice)
  undecided hActive := by simp [hInactive] at hActive

end WellFormed

/-- Only the price and the deadline change. -/
theorem acceptBid_fields (auction : Auction) (amount : Money) (now : Time) :
    let new := (acceptBid auction amount now).1
    new.id = auction.id ∧ new.createdBy = auction.createdBy ∧ new.currentPrice = amount ∧
      new.startingPrice = auction.startingPrice ∧ new.isActive = auction.isActive ∧
      new.isCompleted = auction.isCompleted ∧ new.winnerId = auction.winnerId ∧
      new.auctionType = auction.auctionType ∧ new.binPrice = auction.binPrice := by
  unfold acceptBid
  dsimp only
  split_ifs <;> simp

namespace WellFormed

variable {A : Assumptions} {d d' : Db}

theorem lot_of_bid (h : WellFormed A d) {auctionId : LotId} {old : Auction} {amount : Money}
    (hRow : d.auctions.get auctionId = some old) (hHigher : old.currentPrice < amount)
    (now : Time) : Lot d auctionId (acceptBid old amount now).1 := by
  obtain ⟨hId, hCreator, hPrice, _, hActive, hCompleted, hWinner, _, hBin⟩ :=
    acceptBid_fields old amount now
  exact
    { id := hId.trans (h.auctionIds _ _ hRow)
      creator := hCreator ▸ h.creators _ _ hRow
      positive := by
        rw [hPrice]
        exact (h.positive _ _ hRow).trans hHigher
      binPrice := fun price hBinPrice => h.binPrices _ _ price hRow (hBin ▸ hBinPrice)
      undecided := fun hNew => hCompleted ▸ hWinner ▸ h.undecided _ _ hRow (hActive ▸ hNew) }

theorem lot_of_closed (h : WellFormed A d) {auctionId : LotId} {old new : Auction}
    (hRow : d.auctions.get auctionId = some old) {winnerId : Option UserId}
    (hClosed : Closed old new winnerId) :
    Lot d auctionId new :=
  h.lot_of_inactive hRow hClosed.id hClosed.createdBy
    (hClosed.currentPrice ▸ h.positive _ _ hRow) hClosed.binPrice hClosed.inactive

/-- Every transaction keeps the tables in order. -/
theorem commit {percent : CommissionPercent} {request : Request} {held : Held market}
    (h : WellFormed A d) (hCommit : Commit percent A request held d d') : WellFormed A d' := by
  cases hCommit with
  | idle => exact h
  | observe t hClock => exact h.observe hClock
  | register => exact h.addUser
  | deposit => exact h.post _
  | withdraw => exact h.post _
  | create row hOpened => exact h.addAuction hOpened
  | illustrate => exact h.congr rfl rfl rfl rfl rfl
  | revise auctionId old new userId data _ _ hRow _ _ hRevised =>
      have hOld := h.lot hRow
      refine (h.setAuction ?_).congr rfl rfl rfl rfl rfl
      exact
        { id := hRevised.id.trans hOld.id
          creator := hRevised.createdBy ▸ hOld.creator
          positive := hRevised.positive
          binPrice := hRevised.binPrice
          undecided := by
            obtain ⟨hActive, hCompleted, hWinner⟩ := hRevised.state
            rw [hActive, hCompleted, hWinner]
            exact hOld.undecided }
  | remove auctionId => exact h.deleteAuction auctionId
  | bid auctionId old userId user amount now t _ _ hRow hUser _ _ _ hHigher hMax _ _ hTime =>
      refine (h.setAuction (h.lot_of_bid hRow hHigher now)).addBid ?_ ?_ ?_ hMax hTime
      · exact Option.isSome_iff_exists.mpr ⟨user, hUser⟩
      · have hLot : auctionId < d.auctions.serial := Table.lt_serial hRow
        exact hLot
      · exact (h.positive _ _ hRow).trans hHigher
  | purchase auctionId old buyer user price now _ _ _ _ _ _ hRow _ _ _ hPrice =>
      have hSold : Lot d auctionId (soldTo old price buyer now) :=
        h.lot_of_inactive hRow rfl rfl (h.binPrices _ _ price hRow hPrice).1 rfl rfl
      exact (h.setAuction hSold).postAll _
  | close auctionId old new settlement _ hRow _ hClosed =>
      exact (h.setAuction (h.lot_of_closed hRow hClosed)).congr rfl rfl rfl rfl rfl
  | settle auctionId old new lastBid seller bought sold settlement _ _ _ _ hRow _ _ _ hClosed =>
      exact ((h.setAuction (h.lot_of_closed hRow hClosed)).postAll _).congr rfl rfl rfl rfl rfl

end WellFormed

end OnlineAuction
