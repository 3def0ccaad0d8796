import OnlineAuction.Market.FrozenLots
import OnlineAuction.Realtime.Announcing

/-! What has been announced of a lot, in the order of the commits, and the lot in
the tables: prices only rise, the latest is the current one, and a lot whose end
has been announced takes no more bids. -/

namespace OnlineAuction.Realtime

/-- A frame that a socket may receive after another of the same lot. -/
def Frame.Precedes : Frame → Frame → Prop
  | .newBid price, .newBid price' => price ≤ price'
  | .newBid _, .auctionEnded _ => True
  | .auctionEnded _, .newBid _ => False
  | .auctionEnded _, .auctionEnded _ => True

theorem Frame.precedes_self (frame : Frame) : frame.Precedes frame := by
  cases frame with
  | newBid price => exact le_refl price
  | auctionEnded => trivial

/-- The latest bid of a lot that has been announced, and its price. -/
structure LatestBid (announced : List Announcement) (auctionId : LotId) (order : Nat)
    (price : Money) : Prop where
  posted : announced[order]? = some ⟨auctionId, .newBid price⟩
  last : ∀ later > order, ∀ price', announced[later]? ≠ some ⟨auctionId, .newBid price'⟩

/-- A step of the tables, and what the session that has made it announces. -/
inductive Announces (d d' : Db) : Option Announcement → Prop where
  | silent (hBids : d'.bids = d.bids) : Announces d d' none
  | bid (auctionId : LotId) (price : Money) (t : Time) (userId : UserId)
      (hBids : d'.bids = d.bids ++ [⟨d.bidSerial, price, t, userId, auctionId⟩]) :
      Announces d d' (some ⟨auctionId, .newBid price⟩)
  | ended (auctionId : LotId) (finalPrice : Money) (hBids : d'.bids = d.bids)
      (hStored : auctionId < d.auctions.serial)
      (hInactive : ∀ row, d'.auctions.get auctionId = some row → row.isActive = false) :
      Announces d d' (some ⟨auctionId, .auctionEnded finalPrice⟩)

structure Quoted (d : Db) (announced : List Announcement) (auctionId : LotId) : Prop where
  raised : ∀ price, ⟨auctionId, .newBid price⟩ ∈ announced → d.bidsOn auctionId ≠ [] ∧
    ∃ row, d.auctions.get auctionId = some row ∧ row.auctionType = .bid ∧ price ≤ row.currentPrice
  latest : ∀ order price, LatestBid announced auctionId order price →
    ∀ row, d.auctions.get auctionId = some row → row.currentPrice = price
  ended : ∀ finalPrice, ⟨auctionId, .auctionEnded finalPrice⟩ ∈ announced →
    auctionId < d.auctions.serial ∧ ∀ row, d.auctions.get auctionId = some row → row.isActive = false

/-- In the order of the commits no frame of a lot precedes one it may not. -/
def Rising (announced : List Announcement) : Prop :=
  announced.Pairwise fun a b => a.auctionId = b.auctionId → a.frame.Precedes b.frame

section Log

variable {announced : List Announcement} {new : Announcement} {auctionId : LotId} {order : Nat}
  {price : Money}

/-- The latest bid announced is one that was announced. -/
theorem LatestBid.mem (h : LatestBid announced auctionId order price) :
    ⟨auctionId, .newBid price⟩ ∈ announced := List.mem_of_getElem? h.posted

/-- Anything but a bid on the lot leaves its latest bid where it was. -/
theorem LatestBid.of_append (h : LatestBid (announced ++ [new]) auctionId order price)
    (hNew : ∀ price', new ≠ ⟨auctionId, .newBid price'⟩) :
    LatestBid announced auctionId order price := by
  have hOrder : order < announced.length := by
    by_contra hEnd
    have hFound := h.posted
    rw [List.getElem?_append_right (not_lt.mp hEnd)] at hFound
    exact hNew price (List.mem_singleton.mp (List.mem_of_getElem? hFound)).symm
  constructor
  · rw [← List.getElem?_append_left hOrder]
    exact h.posted
  · intro later hLater price' hFound
    have hBound := (List.getElem?_eq_some_iff.mp hFound).1
    exact h.last later hLater price' ((List.getElem?_append_left hBound).trans hFound)

/-- Right after a bid is announced it is the latest. -/
theorem LatestBid.of_append_bid {price' : Money}
    (h : LatestBid (announced ++ [⟨auctionId, .newBid price'⟩]) auctionId order price) :
    price = price' := by
  have hOrder : order < announced.length + 1 := by
    simpa using (List.getElem?_eq_some_iff.mp h.posted).1
  rcases Nat.lt_succ_iff_lt_or_eq.mp hOrder with hOld | rfl
  · exact absurd (by simp) (h.last announced.length hOld price')
  · simpa using h.posted.symm

end Log

variable {request : Request} {d d' : Db} {announced : List Announcement} {new : Option Announcement}
  {auctionId : LotId}

/-- The lot, when no bid on it is announced. -/
theorem Quoted.step (h : Quoted d announced auctionId)
    (hChange : LotChange request d d' auctionId (d.auctions.get auctionId) (d'.auctions.get auctionId))
    (hSame : SameCreators d d') (hBids : d'.bidsOn auctionId = d.bidsOn auctionId)
    (hNew : ∀ price, new ≠ some ⟨auctionId, .newBid price⟩)
    (hEnded : ∀ finalPrice, new = some ⟨auctionId, .auctionEnded finalPrice⟩ →
      auctionId < d.auctions.serial ∧
        ∀ row, d'.auctions.get auctionId = some row → row.isActive = false) :
    Quoted d' (announced ++ new.toList) auctionId where
  raised price hMem := by
    rcases List.mem_append.mp hMem with hOld | hAdded
    · obtain ⟨hBid, row, hRow, hType, hPrice⟩ := h.raised price hOld
      obtain ⟨row', hRow', hType', hPrice'⟩ := hChange.kept hBids hRow hType hBid
      exact ⟨hBids ▸ hBid, row', hRow', hType', hPrice' ▸ hPrice⟩
    · exact absurd (Option.mem_toList.mp hAdded) (hNew price)
  latest order price hLatest row' hRow' := by
    have hOld : LatestBid announced auctionId order price := by
      cases new with
      | none => simpa using hLatest
      | some new =>
          apply LatestBid.of_append hLatest
          exact fun price' hEq => hNew price' (congrArg some hEq)
    obtain ⟨hBid, row, hRow, hType, _⟩ := h.raised price hOld.mem
    obtain ⟨row'', hRow'', _, hPrice⟩ := hChange.kept hBids hRow hType hBid
    obtain rfl : row'' = row' := Option.some.inj (hRow''.symm.trans hRow')
    exact hPrice.trans (h.latest order price hOld row hRow)
  ended finalPrice hMem := by
    rcases List.mem_append.mp hMem with hOld | hAdded
    · obtain ⟨hStored, hInactive⟩ := h.ended finalPrice hOld
      refine ⟨hStored.trans_le hSame.1, fun row' hRow' => ?_⟩
      apply hChange.inactive _ hInactive hRow'
      intro hNone
      rw [Option.eq_none_iff_forall_not_mem]
      intro found hFound
      obtain ⟨row, hRow, _⟩ := hSame.2 auctionId hStored found hFound
      rw [hNone] at hRow
      cases hRow
    · obtain ⟨hStored, hInactive⟩ := hEnded finalPrice (Option.mem_toList.mp hAdded)
      exact ⟨hStored.trans_le hSame.1, hInactive⟩

/-- The lot, when a bid on it is announced. -/
theorem Quoted.step_bid (h : Quoted d announced auctionId)
    (hChange : LotChange request d d' auctionId (d.auctions.get auctionId) (d'.auctions.get auctionId))
    {bid : Bid} (hBids : d'.bidsOn auctionId = d.bidsOn auctionId ++ [bid]) :
    Quoted d' (announced ++ [⟨auctionId, .newBid bid.amount⟩]) auctionId := by
  obtain ⟨old, new, hRow, hActive, hHigher, hRow', hType, hPrice⟩ := hChange.accepted hBids
  constructor
  · intro price hMem
    refine ⟨by simp [hBids], new, hRow', hType, ?_⟩
    rcases List.mem_append.mp hMem with hOld | hAdded
    · obtain ⟨_, row, hStored, _, hLe⟩ := h.raised price hOld
      obtain rfl : row = old := Option.some.inj (hStored.symm.trans hRow)
      rw [hPrice]
      exact hLe.trans hHigher.le
    · simp only [List.mem_singleton, Announcement.mk.injEq, Frame.newBid.injEq] at hAdded
      rw [hPrice, hAdded.2]
  · intro order price hLatest row hStored
    obtain rfl : row = new := Option.some.inj (hStored.symm.trans hRow')
    rw [hPrice, hLatest.of_append_bid]
  · intro finalPrice hMem
    have hOld : ⟨auctionId, .auctionEnded finalPrice⟩ ∈ announced := by simpa using hMem
    have hInactive := (h.ended finalPrice hOld).2 old hRow
    rw [hActive] at hInactive
    cases hInactive

/-- One step of the tables. -/
theorem quoted_step (hAll : ∀ auctionId, Quoted d announced auctionId)
    (hChange : ∀ auctionId, LotChange request d d' auctionId (d.auctions.get auctionId)
      (d'.auctions.get auctionId))
    (hSame : SameCreators d d') (hNew : Announces d d' new) (auctionId : LotId) :
    Quoted d' (announced ++ new.toList) auctionId := by
  cases hNew with
  | silent hBids =>
      apply (hAll auctionId).step (hChange auctionId) hSame (Db.bidsOn_congr hBids _)
      · exact fun _ h => by cases h
      · exact fun _ h => by cases h
  | bid id price t userId hBids =>
      by_cases hId : auctionId = id
      · subst hId
        have hAdded : d'.bidsOn auctionId = d.bidsOn auctionId ++
            [⟨d.bidSerial, price, t, userId, auctionId⟩] := by simp [Db.bidsOn, hBids]
        exact (hAll auctionId).step_bid (hChange auctionId) hAdded
      · apply (hAll auctionId).step (hChange auctionId) hSame
        · simp [Db.bidsOn, hBids, Ne.symm hId]
        · intro price' hEq
          simp only [Option.some.injEq, Announcement.mk.injEq] at hEq
          exact hId hEq.1.symm
        · intro finalPrice hEq
          simp at hEq
  | ended id finalPrice hBids hStored hInactive =>
      apply (hAll auctionId).step (hChange auctionId) hSame (Db.bidsOn_congr hBids _)
      · intro price hEq
        simp at hEq
      · intro finalPrice' hEq
        simp only [Option.some.injEq, Announcement.mk.injEq] at hEq
        obtain ⟨rfl, _⟩ := hEq
        exact ⟨hStored, hInactive⟩

/-- Announcements that follow the commits go on rising. -/
theorem Rising.step (h : Rising announced) (hAll : ∀ auctionId, Quoted d announced auctionId)
    (hChange : ∀ auctionId, LotChange request d d' auctionId (d.auctions.get auctionId)
      (d'.auctions.get auctionId))
    (hNew : Announces d d' new) : Rising (announced ++ new.toList) := by
  apply List.pairwise_append.mpr
  refine ⟨h, by cases new <;> simp, fun earlier hEarlier later hLater hLot => ?_⟩
  obtain ⟨id, frame⟩ := earlier
  cases hNew with
  | silent => cases hLater
  | bid auctionId price t userId hBids =>
      obtain rfl := List.mem_singleton.mp hLater
      obtain rfl : id = auctionId := hLot
      have hAdded : d'.bidsOn id = d.bidsOn id ++ [⟨d.bidSerial, price, t, userId, id⟩] := by
        simp [Db.bidsOn, hBids]
      obtain ⟨old, _, hRow, hActive, hHigher, _⟩ := (hChange id).accepted hAdded
      cases frame with
      | newBid price' =>
          obtain ⟨_, row, hStored, _, hLe⟩ := (hAll id).raised price' hEarlier
          obtain rfl : row = old := Option.some.inj (hStored.symm.trans hRow)
          exact hLe.trans hHigher.le
      | auctionEnded finalPrice =>
          rw [((hAll id).ended finalPrice hEarlier).2 old hRow] at hActive
          cases hActive
  | ended auctionId finalPrice =>
      obtain rfl := List.mem_singleton.mp hLater
      cases frame with
      | newBid => trivial
      | auctionEnded => trivial

end OnlineAuction.Realtime
