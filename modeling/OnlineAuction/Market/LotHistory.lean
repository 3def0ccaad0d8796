import OnlineAuction.Market.HandlerContracts

/-! What one transaction does to one lot. Invariants of lots are proved from
these changes, not from the transactions. -/

namespace OnlineAuction

open RowLocks

variable {percent : CommissionPercent} {A : Assumptions} {request : Request}

inductive LotChange (request : Request) (d d' : Db) (id : LotId) :
    Option Auction → Option Auction → Prop where
  | untouched {lot : Option Auction} (hBids : d'.bidsOn id = d.bidsOn id) :
      LotChange request d d' id lot lot
  | opened {row : Auction} (hOpened : Opened d id row) (hNoBids : d'.bidsOn id = []) :
      LotChange request d d' id none (some row)
  | revised {old new : Auction} (userId : UserId) (data : AuctionUpdate)
      (hRequest : request = .updateAuction userId id data) (hNoBids : d.bidsOn id = [])
      (hBids : d'.bidsOn id = []) (hActive : old.isActive = true) (hRevised : Revised old new)
      (hEdited : new = data.dragAlong (data.edit old))
      (hBinPrice : (data.edit old).auctionType = .bin → (data.edit old).binPrice ≠ none) :
      LotChange request d d' id (some old) (some new)
  | removed {old : Auction} (hNoBids : d.bidsOn id = []) (hBids : d'.bidsOn id = [])
      (hCompleted : old.isCompleted = false) : LotChange request d d' id (some old) none
  | bid {old : Auction} (amount : Money) (now t : Time) (userId : UserId)
      (hActive : old.isActive = true) (hType : old.auctionType = .bid)
      (hOwn : old.createdBy ≠ userId) (hHigher : old.currentPrice < amount)
      (hBids : d'.bidsOn id = d.bidsOn id ++ [⟨d.bidSerial, amount, t, userId, id⟩])
      (hRequest : ∃ data, request = .placeBid userId data ∧ data.auctionId = id) :
      LotChange request d d' id (some old) (some (acceptBid old amount now).1)
  | sold {old : Auction} (buyer : UserId) (price : Money) (now : Time)
      (hActive : old.isActive = true) (hType : old.auctionType = .bin)
      (hPrice : old.binPrice = some price) (hOwn : old.createdBy ≠ buyer)
      (hBids : d'.bidsOn id = d.bidsOn id) :
      LotChange request d d' id (some old) (some (soldTo old price buyer now))
  | closed {old new : Auction} (hNoBids : d.bidsOn id = []) (hBids : d'.bidsOn id = [])
      (hClosed : Closed old new old.winnerId) : LotChange request d d' id (some old) (some new)
  | settled {old new : Auction} (lastBid : Bid) (hLast : d.lastBid id = some lastBid)
      (hBids : d'.bidsOn id = d.bidsOn id) (hClosed : Closed old new (some lastBid.userId)) :
      LotChange request d d' id (some old) (some new)

namespace LotChange

variable {d d' : Db}

/-- A commit that writes neither lots nor bids changes no lot. -/
theorem of_same (hAuctions : d'.auctions = d.auctions) (hBids : d'.bids = d.bids) (id : LotId) :
    LotChange request d d' id (d.auctions.get id) (d'.auctions.get id) := by
  rw [hAuctions]
  exact .untouched (Db.bidsOn_congr hBids id)

/-- A lot other than the one that changed. -/
theorem of_other {id : LotId} (hAuctions : d'.auctions.get id = d.auctions.get id)
    (hBids : d'.bidsOn id = d.bidsOn id) :
    LotChange request d d' id (d.auctions.get id) (d'.auctions.get id) := by
  rw [hAuctions]
  exact .untouched hBids

/-- Every transaction changes a lot in one of these ways. -/
theorem of_commit {held : Held market} (hWell : WellFormed A d)
    (hCommit : Commit percent A request held d d') (id : LotId) :
    LotChange request d d' id (d.auctions.get id) (d'.auctions.get id) := by
  cases hCommit with
  | idle => exact .untouched rfl
  | observe => exact .untouched rfl
  | register => exact .untouched rfl
  | deposit => exact .of_same (by simp) (by simp) id
  | withdraw => exact .of_same (by simp) (by simp) id
  | illustrate => exact .untouched rfl
  | create row hOpened =>
      by_cases hId : id = d.auctions.serial
      · subst hId
        rw [d.auctions.unused _ le_rfl]
        simp only [Db.addAuction, Table.get_add, if_true]
        exact .opened hOpened hWell.bidsOn_serial
      · apply LotChange.of_other
        · simp [Db.addAuction, hId]
        · exact Db.bidsOn_congr rfl id
  | revise auctionId old new userId data hRequest _ hRow hNoBids hActive hRevised hEdited hBin =>
      by_cases hId : id = auctionId
      · subst hId
        show LotChange request d _ id _ ((d.setAuction id new).auctions.get id)
        rw [hRow, Db.get_setAuction_self hRow]
        exact .revised userId data hRequest hNoBids hNoBids hActive hRevised hEdited hBin
      · exact .of_other (Db.get_setAuction_other d new hId) (Db.bidsOn_congr rfl id)
  | remove auctionId row _ hRow hNoBids hCompleted =>
      by_cases hId : id = auctionId
      · subst hId
        simp only [hRow, Db.deleteAuction, Table.get_erase, if_true]
        exact .removed hNoBids hNoBids hCompleted
      · apply LotChange.of_other
        · simp [Db.deleteAuction, hId]
        · exact Db.bidsOn_congr rfl id
  | bid auctionId old userId user amount now t _ _ hRow _ hActive hType hOwn hHigher _ _ _ _
      hRequest =>
      by_cases hId : id = auctionId
      · subst hId
        show LotChange request d _ id _ ((d.setAuction id _).auctions.get id)
        rw [hRow, Db.get_setAuction_self hRow]
        apply LotChange.bid amount now t userId hActive hType hOwn hHigher _ hRequest
        exact Db.bidsOn_addBid_self _ _ _ _ _
      · apply LotChange.of_other
        · exact Db.get_setAuction_other d _ hId
        · exact Db.bidsOn_addBid_other (d.setAuction auctionId _) amount t userId hId
  | purchase auctionId old buyer user price now _ _ _ _ _ _ hRow _ hActive hType hPrice hOwn =>
      by_cases hId : id = auctionId
      · subst hId
        rw [Db.postAll_auctions, hRow, Db.get_setAuction_self hRow]
        exact .sold buyer price now hActive hType hPrice hOwn (Db.bidsOn_congr (by simp [Db.setAuction]) id)
      · apply LotChange.of_other
        · rw [Db.postAll_auctions, Db.get_setAuction_other d _ hId]
        · exact Db.bidsOn_congr (by simp [Db.setAuction]) id
  | close auctionId old new settlement _ hRow hNoBids hClosed =>
      by_cases hId : id = auctionId
      · subst hId
        show LotChange request d _ id _ ((d.setAuction id new).auctions.get id)
        rw [hRow, Db.get_setAuction_self hRow]
        exact .closed hNoBids hNoBids hClosed
      · exact .of_other (Db.get_setAuction_other d new hId) (Db.bidsOn_congr rfl id)
  | settle auctionId old new lastBid seller _ _ settlement _ _ _ _ hRow hLast _ _ hClosed =>
      have hBids (postings : List Posting) : (((d.setAuction auctionId new).postAll
          postings).recordSettlement settlement).bidsOn id = d.bidsOn id :=
        Db.bidsOn_congr (by simp [Db.setAuction, Db.recordSettlement]) id
      by_cases hId : id = auctionId
      · subst hId
        simp only [Db.recordSettlement, Db.postAll_auctions]
        rw [hRow, Db.get_setAuction_self hRow]
        exact .settled lastBid hLast (hBids _) hClosed
      · apply LotChange.of_other
        · simp only [Db.recordSettlement, Db.postAll_auctions]
          exact Db.get_setAuction_other d new hId
        · exact hBids _

end LotChange

/-- Only the price and what the extension touches change, and the deadline is
not moved back. -/
theorem acceptBid_eq (auction : Auction) (amount : Money) (now : Time) :
    ∃ endTime notified count, auction.endTime ≤ endTime ∧ (acceptBid auction amount now).1 =
      { auction with
        currentPrice := amount
        endTime := endTime
        endingSoonNotified := notified
        extensionsCount := count } := by
  unfold acceptBid
  dsimp only
  split_ifs with hLate
  · refine ⟨_, _, _, ?_, rfl⟩
    have hWindow : auction.endTime - now < antisnipingExtend := hLate.1.2
    linarith
  · exact ⟨_, _, _, le_rfl, rfl⟩

namespace LotChange

variable {d d' : Db} {auctionId : LotId} {row row' : Option Auction}

/-- A transaction that inserts no bid on the lot. -/
theorem kept (h : LotChange request d d' auctionId row row')
    (hBids : d'.bidsOn auctionId = d.bidsOn auctionId)
    {old : Auction} (hRow : row = some old) (hType : old.auctionType = .bid)
    (hBid : d.bidsOn auctionId ≠ []) :
    ∃ new, row' = some new ∧ new.auctionType = .bid ∧ new.currentPrice = old.currentPrice := by
  cases h with
  | untouched => exact ⟨old, hRow, hType, rfl⟩
  | opened => cases hRow
  | revised _ _ _ hNoBids => exact absurd hNoBids hBid
  | removed hNoBids => exact absurd hNoBids hBid
  | bid amount now t userId _ _ _ _ hInserted => simp [hInserted] at hBids
  | sold buyer price now _ hBin =>
      obtain rfl := Option.some.inj hRow
      rw [hType] at hBin
      cases hBin
  | closed hNoBids => exact absurd hNoBids hBid
  | settled lastBid _ _ hClosed =>
      obtain rfl := Option.some.inj hRow
      exact ⟨_, rfl, hClosed.auctionType.trans hType, hClosed.currentPrice⟩

/-- An inactive lot stays so. -/
theorem inactive (h : LotChange request d d' auctionId row row')
    (hFresh : row = none → row' = none) (hInactive : ∀ old, row = some old → old.isActive = false)
    {new : Auction} (hRow' : row' = some new) : new.isActive = false := by
  cases h with
  | untouched => exact hInactive new hRow'
  | opened => cases hFresh rfl
  | revised _ _ _ _ _ hActive =>
      rw [hInactive _ rfl] at hActive
      cases hActive
  | removed => cases hRow'
  | bid _ _ _ _ hActive =>
      rw [hInactive _ rfl] at hActive
      cases hActive
  | sold _ _ _ hActive =>
      rw [hInactive _ rfl] at hActive
      cases hActive
  | closed _ _ hClosed =>
      obtain rfl := Option.some.inj hRow'
      exact hClosed.inactive
  | settled _ _ _ hClosed =>
      obtain rfl := Option.some.inj hRow'
      exact hClosed.inactive

/-- The bid that a transaction has inserted is what it has raised the price to. -/
theorem accepted (h : LotChange request d d' auctionId row row') {bid : Bid}
    (hBids : d'.bidsOn auctionId = d.bidsOn auctionId ++ [bid]) :
    ∃ old new, row = some old ∧ old.isActive = true ∧ old.currentPrice < bid.amount ∧
      row' = some new ∧ new.auctionType = .bid ∧ new.currentPrice = bid.amount := by
  cases h with
  | untouched hSame => simp [hSame] at hBids
  | opened _ hNoBids => simp [hNoBids] at hBids
  | revised _ _ _ _ hNoBids => simp [hNoBids] at hBids
  | removed _ hNoBids => simp [hNoBids] at hBids
  | @bid old amount now t userId hActive hType _ hHigher hInserted =>
      rw [hInserted, List.append_cancel_left_eq, List.cons.injEq] at hBids
      obtain ⟨rfl, _⟩ := hBids
      obtain ⟨_, _, _, _, hAccepted⟩ := acceptBid_eq old amount now
      refine ⟨old, _, rfl, hActive, hHigher, rfl, ?_, ?_⟩
      · rw [hAccepted]
        exact hType
      · rw [hAccepted]
  | sold _ _ _ _ _ _ _ hSame => simp [hSame] at hBids
  | closed hNoBids hNoBids' => simp [hNoBids, hNoBids'] at hBids
  | settled _ _ hSame => simp [hSame] at hBids

end LotChange

end OnlineAuction
