import OnlineAuction.Market.WellFormed

/-! The money reserved by a user's leading bids: how the committed-balance
query computes it, and how it changes with the lots. -/

namespace OnlineAuction

open RowLocks

namespace Db

variable {d d' : Db}

theorem reservedOn_none {auctionId : LotId} (h : d.auctions.get auctionId = none)
    (userId : UserId) : d.reservedOn userId auctionId = 0 := by
  simp [reservedOn, h]

/-- An active lot reserves its price of its last bidder. -/
theorem reservedOn_leader {auctionId : LotId} {row : Auction} {bid : Bid}
    (hRow : d.auctions.get auctionId = some row) (hActive : row.isActive = true)
    (hLast : d.lastBid auctionId = some bid) :
    d.reservedOn bid.userId auctionId = row.currentPrice := by
  simp [reservedOn, hRow, hActive, hLast]

/-- A lot reserves nothing of anyone but its last bidder. -/
theorem reservedOn_follower {auctionId : LotId} {userId : UserId}
    (h : (d.lastBid auctionId).map Bid.userId ≠ some userId) :
    d.reservedOn userId auctionId = 0 := by
  unfold reservedOn
  split
  · rw [if_neg fun hBoth => h hBoth.2]
  · rfl

theorem reservedOn_noBids {auctionId : LotId} (h : d.bidsOn auctionId = []) (userId : UserId) :
    d.reservedOn userId auctionId = 0 := by
  apply reservedOn_follower
  rw [lastBid_eq_none.mpr h]
  exact nofun

theorem reservedOn_inactive {auctionId : LotId} {row : Auction}
    (hRow : d.auctions.get auctionId = some row) (h : row.isActive = false) (userId : UserId) :
    d.reservedOn userId auctionId = 0 := by
  simp [reservedOn, hRow, h]

/-- What a lot reserves is read off its row and its bids. -/
theorem reservedOn_congr {auctionId : LotId}
    (hRow : d'.auctions.get auctionId = d.auctions.get auctionId)
    (hBids : d'.bidsOn auctionId = d.bidsOn auctionId) (userId : UserId) :
    d'.reservedOn userId auctionId = d.reservedOn userId auctionId := by
  simp only [reservedOn, hRow, lastBid_congr hBids]

/-- Numbers not handed out yet contribute nothing. -/
theorem reserved_eq_sum {n : Nat} (h : d.auctions.serial ≤ n) (userId : UserId) :
    d.reserved userId = ∑ auctionId ∈ Finset.range n, d.reservedOn userId auctionId := by
  apply Finset.sum_subset (Finset.range_mono h)
  intro auctionId _ hNot
  exact reservedOn_none (d.auctions.unused _ (by simpa using hNot)) userId

/-- Less reserved on every lot is less reserved in all. -/
theorem reserved_le {userId userId' : UserId}
    (h : ∀ auctionId, d'.reservedOn userId' auctionId ≤ d.reservedOn userId auctionId) :
    d'.reserved userId' ≤ d.reserved userId := by
  rw [reserved_eq_sum (le_max_left d'.auctions.serial d.auctions.serial),
    reserved_eq_sum (le_max_right d'.auctions.serial d.auctions.serial)]
  exact Finset.sum_le_sum fun auctionId _ => h auctionId

/-- When one lot's contribution grows by at most `extra` and no other grows,
so does the total. -/
theorem reserved_le_add {userId : UserId} {key : LotId} {extra : Money}
    (hKey : key < d.auctions.serial)
    (h : d'.reservedOn userId key ≤ d.reservedOn userId key + extra)
    (hOther : ∀ auctionId, auctionId ≠ key →
      d'.reservedOn userId auctionId ≤ d.reservedOn userId auctionId) :
    d'.reserved userId ≤ d.reserved userId + extra := by
  have hMem : key ∈ Finset.range (max d'.auctions.serial d.auctions.serial) :=
    Finset.mem_range.mpr (hKey.trans_le (le_max_right _ _))
  rw [reserved_eq_sum (le_max_left d'.auctions.serial d.auctions.serial),
    reserved_eq_sum (le_max_right d'.auctions.serial d.auctions.serial),
    ← Finset.add_sum_erase _ _ hMem, ← Finset.add_sum_erase _ _ hMem]
  have hRest : ∑ auctionId ∈ (Finset.range (max d'.auctions.serial d.auctions.serial)).erase key,
      d'.reservedOn userId auctionId ≤
      ∑ auctionId ∈ (Finset.range (max d'.auctions.serial d.auctions.serial)).erase key,
        d.reservedOn userId auctionId :=
    Finset.sum_le_sum fun auctionId hId => hOther auctionId (Finset.ne_of_mem_erase hId)
  linarith

end Db

namespace WellFormed

variable {A : Assumptions} {d : Db}

theorem reservedOn_nonneg (h : WellFormed A d) (userId : UserId) (auctionId : LotId) :
    0 ≤ d.reservedOn userId auctionId := by
  unfold Db.reservedOn
  split
  next row hRow =>
    split_ifs
    · exact (h.positive _ _ hRow).le
    · exact le_rfl
  next => exact le_rfl

theorem reserved_nonneg (h : WellFormed A d) (userId : UserId) : 0 ≤ d.reserved userId :=
  Finset.sum_nonneg fun auctionId _ => h.reservedOn_nonneg userId auctionId

/-- Only one lot has changed, and it reserves nothing now. -/
theorem reserved_le_of_lot (h : WellFormed A d) {d' : Db} {key : LotId} {userId : UserId}
    (hKey : d'.reservedOn userId key = 0)
    (hAuctions : ∀ id, id ≠ key → d'.auctions.get id = d.auctions.get id)
    (hBids : ∀ id, id ≠ key → d'.bidsOn id = d.bidsOn id) :
    d'.reserved userId ≤ d.reserved userId := by
  apply Db.reserved_le
  intro auctionId
  by_cases hId : auctionId = key
  · subst hId
    rw [hKey]
    exact h.reservedOn_nonneg userId auctionId
  · exact (Db.reservedOn_congr (hAuctions auctionId hId) (hBids auctionId hId) userId).le

/-- The newest bid of each lot, as the subquery selects it, is its latest bid. -/
theorem latestBidder_filter (h : WellFormed A d) (hClock : A.clockMonotone) (auctionId : LotId) :
    (d.latestBidder.filter fun bid => bid.auctionId = auctionId) =
      (d.lastBid auctionId).toList := by
  rw [h.lastBid_eq hClock]
  exact Latest.filter_latestOfEach (h.bidsOn_older hClock auctionId)

/-- The committed-balance query returns the reserved money. -/
theorem getCommittedBalance_eq (h : WellFormed A d) (hClock : A.clockMonotone) (userId : UserId) :
    d.getCommittedBalance userId = d.reserved userId := by
  have hLots : ∀ bid ∈ d.latestBidder.filter fun bid => bid.userId = userId,
      bid.auctionId < d.auctions.serial := by
    intro bid hBid
    have hMem : bid ∈ (d.latestBidder.filter fun other => other.auctionId = bid.auctionId) := by
      simpa using (List.mem_filter.mp hBid).1
    rw [h.latestBidder_filter hClock, Option.mem_toList] at hMem
    exact h.lot_exists (Db.lastBid_mem hMem).1
  unfold Db.getCommittedBalance Db.reserved
  rw [Latest.sum_by_member hLots]
  apply Finset.sum_congr rfl
  intro auctionId _
  rw [List.filter_filter]
  simp only [Bool.and_comm]
  rw [← List.filter_filter, h.latestBidder_filter hClock]
  unfold Db.reservedOn
  cases hLast : d.lastBid auctionId with
  | none => cases d.auctions.get auctionId <;> simp
  | some bid =>
      have hLot : bid.auctionId = auctionId := (Db.lastBid_mem hLast).2
      by_cases hUser : bid.userId = userId
      · cases hRow : d.auctions.get auctionId <;> simp [hUser, hLot, hRow]
      · cases hRow : d.auctions.get auctionId <;> simp [hUser]

end WellFormed

end OnlineAuction
