import Mathlib.Data.List.Chain
import OnlineAuction.Market.Deadlines

/-! The history of a lot's bids. Leadership is not stored: every handler
recomputes it as the latest bid, which is the highest one. -/

namespace OnlineAuction

open RowLocks

/-- Bids in the order they were accepted, against the row of their lot. -/
structure BidHistory (row : Auction) (bids : List Bid) : Prop where
  type : bids ≠ [] → row.auctionType = .bid
  increasing : bids.IsChain fun a b => a.amount < b.amount
  first : ∀ bid ∈ bids.head?, row.startingPrice < bid.amount
  turns : bids.IsChain fun a b => a.userId ≠ b.userId
  others : ∀ bid ∈ bids, bid.userId ≠ row.createdBy
  last : ∀ bid ∈ bids.getLast?, bid.amount = row.currentPrice
  fresh : bids = [] → row.isActive = true → row.currentPrice = row.startingPrice

namespace BidHistory

variable {row : Auction} {bids : List Bid}

/-- A higher bid of another user. -/
theorem concat (h : BidHistory row bids) {bid : Bid} {new : Auction} (hActive : row.isActive = true)
    (hType : new.auctionType = .bid) (hStarting : new.startingPrice = row.startingPrice)
    (hCreator : new.createdBy = row.createdBy) (hPrice : new.currentPrice = bid.amount)
    (hHigher : row.currentPrice < bid.amount) (hOwn : row.createdBy ≠ bid.userId)
    (hTurn : bids.getLast?.map Bid.userId ≠ some bid.userId) : BidHistory new (bids ++ [bid]) where
  type _ := hType
  increasing := by
    refine List.isChain_append.mpr ⟨h.increasing, by simp, fun last hLast new hNew => ?_⟩
    obtain rfl : bid = new := by simpa using hNew
    rw [h.last last hLast]
    exact hHigher
  first first hFirst := by
    rw [hStarting]
    cases bids with
    | nil =>
        obtain rfl : bid = first := by simpa using hFirst
        rw [← h.fresh rfl hActive]
        exact hHigher
    | cons head rest => exact h.first first hFirst
  turns := by
    refine List.isChain_append.mpr ⟨h.turns, by simp, fun last hLast new hNew hSame => ?_⟩
    obtain rfl : bid = new := by simpa using hNew
    rw [Option.mem_def.mp hLast] at hTurn
    exact hTurn (congrArg some hSame)
  others other hOther := by
    rw [hCreator]
    rcases List.mem_append.mp hOther with hOld | hNew
    · exact h.others other hOld
    · rw [List.mem_singleton.mp hNew]
      exact hOwn.symm
  last last hLast := by
    rw [List.getLast?_concat, Option.mem_some_iff] at hLast
    rw [hPrice, hLast]
  fresh hNil := by simp at hNil

/-- A row that agrees on prices, type and owner, and is not reopened. -/
theorem congr (h : BidHistory row bids) {new : Auction} (hType : new.auctionType = row.auctionType)
    (hStarting : new.startingPrice = row.startingPrice)
    (hCurrent : new.currentPrice = row.currentPrice) (hCreator : new.createdBy = row.createdBy)
    (hActive : new.isActive = true → row.isActive = true) : BidHistory new bids where
  type hBids := hType.trans (h.type hBids)
  increasing := h.increasing
  first bid hBid := hStarting ▸ h.first bid hBid
  turns := h.turns
  others bid hBid := hCreator ▸ h.others bid hBid
  last bid hBid := hCurrent ▸ h.last bid hBid
  fresh hNil hNew := by rw [hCurrent, hStarting, h.fresh hNil (hActive hNew)]

/-- A lot without bids only has to open at its starting price. -/
theorem nil (hFresh : row.isActive = true → row.currentPrice = row.startingPrice) :
    BidHistory row [] := by
  constructor
  case fresh => exact fun _ => hFresh
  all_goals simp

/-- The amounts on a lot grow from each bid to every later one. -/
theorem increasing_pairwise (h : BidHistory row bids) :
    bids.Pairwise fun a b => a.amount < b.amount := by
  let Lower (a b : Bid) : Prop := a.amount < b.amount
  have hTrans : Trans Lower Lower Lower := ⟨fun {_ _ _} => lt_trans⟩
  exact List.IsChain.pairwise (R := Lower) h.increasing

/-- The last bid is the highest. -/
theorem highest (h : BidHistory row bids) {last : Bid} (hLast : bids.getLast? = some last) :
    ∀ bid ∈ bids, bid.amount ≤ last.amount := by
  intro bid hBid
  obtain ⟨front, rfl⟩ := List.getLast?_eq_some_iff.mp hLast
  rcases List.mem_append.mp hBid with hOld | hNew
  · exact ((List.pairwise_append.mp h.increasing_pairwise).2.2 bid hOld last (by simp)).le
  · rw [List.mem_singleton.mp hNew]

/-- The last bid is the only one of the current price. -/
theorem eq_last (h : BidHistory row bids) {last bid : Bid} (hLast : bids.getLast? = some last)
    (hBid : bid ∈ bids) (hPrice : bid.amount = row.currentPrice) : bid = last := by
  obtain ⟨front, rfl⟩ := List.getLast?_eq_some_iff.mp hLast
  rcases List.mem_append.mp hBid with hOld | hNew
  · have hLower := (List.pairwise_append.mp h.increasing_pairwise).2.2 bid hOld last (by simp)
    rw [hPrice, ← h.last last hLast] at hLower
    exact absurd hLower (lt_irrefl _)
  · exact List.mem_singleton.mp hNew

end BidHistory

/-- Every bid belongs to a stored lot, every lot has an orderly history, and
every winner was charged the final price of the lot they led. -/
structure HistoryKept (d : Db) : Prop where
  lots : ∀ bid ∈ d.bids, (d.auctions.get bid.auctionId).isSome
  histories : ∀ auctionId row, d.auctions.get auctionId = some row →
    BidHistory row (d.bidsOn auctionId)
  charged : ∀ tx ∈ d.transactions, tx.type = .bidWin → ∃ auctionId row bid,
    tx.auctionId = some auctionId ∧ d.auctions.get auctionId = some row ∧ row.isActive = false ∧
      d.lastBid auctionId = some bid ∧ tx.userId = bid.userId ∧ tx.amount = row.currentPrice

namespace HistoryKept

variable {A : Assumptions} {d : Db}

theorem of_initial (categories : List Nat) : HistoryKept (Db.initial categories) := by
  constructor <;> simp [Db.initial]

/-- A lot whose latest bid is known has bids. -/
theorem bidsOn_ne_nil {auctionId : LotId} {bid : Bid} (h : d.lastBid auctionId = some bid) :
    d.bidsOn auctionId ≠ [] := by
  intro hNone
  rw [Db.lastBid_eq_none.mpr hNone] at h
  cases h

/-- The same bids and ledger over lots that keep their history and, once
closed, their price. -/
theorem withAuctions {d' : Db} (h : HistoryKept d) (hBids : d'.bids = d.bids)
    (hTransactions : d'.transactions = d.transactions)
    (hSome : ∀ id, (d.auctions.get id).isSome → (d'.auctions.get id).isSome)
    (hHistories : ∀ id row, d'.auctions.get id = some row → BidHistory row (d.bidsOn id))
    (hClosed : ∀ id row, d.auctions.get id = some row → row.isActive = false →
      ∃ row', d'.auctions.get id = some row' ∧ row'.isActive = false ∧
        row'.currentPrice = row.currentPrice) : HistoryKept d' where
  lots bid hBid := hSome _ (h.lots bid (hBids ▸ hBid))
  histories id row hRow := Db.bidsOn_congr hBids id ▸ hHistories id row hRow
  charged tx hTx hType := by
    obtain ⟨id, row, bid, hLot, hRow, hInactive, hLast, hUser, hAmount⟩ :=
      h.charged tx (hTransactions ▸ hTx) hType
    obtain ⟨row', hRow', hInactive', hPrice⟩ := hClosed id row hRow hInactive
    exact ⟨id, row', bid, hLot, hRow', hInactive',
      (Db.lastBid_congr (Db.bidsOn_congr hBids id)).trans hLast, hUser, hAmount.trans hPrice.symm⟩

/-- The history is read off the lots, the bids and the transactions alone. -/
theorem congr {d' : Db} (h : HistoryKept d) (hAuctions : d'.auctions = d.auctions)
    (hBids : d'.bids = d.bids) (hTransactions : d'.transactions = d.transactions) :
    HistoryKept d' :=
  h.withAuctions hBids hTransactions (fun id hId => by rwa [hAuctions])
    (fun id row hRow => h.histories id row (by rwa [hAuctions] at hRow))
    fun id row hRow hInactive => ⟨row, by rwa [hAuctions], hInactive, rfl⟩

/-- A lot may be rewritten when its new row fits its bids and, once closed,
keeps its price. -/
theorem setAuction (h : HistoryKept d) {auctionId : LotId} {old new : Auction}
    (hRow : d.auctions.get auctionId = some old) (hNew : BidHistory new (d.bidsOn auctionId))
    (hState : old.isActive = false → new.isActive = false ∧ new.currentPrice = old.currentPrice) :
    HistoryKept (d.setAuction auctionId new) := by
  refine h.withAuctions rfl rfl (fun id hId => ?_) (fun id row hOther => ?_)
    fun id row hOther hInactive => ?_
  · by_cases hLot : id = auctionId
    · subst hLot
      simp [Db.get_setAuction_self hRow]
    · rwa [Db.get_setAuction_other d new hLot]
  · by_cases hLot : id = auctionId
    · subst hLot
      rw [Db.get_setAuction_self hRow, Option.some.injEq] at hOther
      exact hOther ▸ hNew
    · rw [Db.get_setAuction_other d new hLot] at hOther
      exact h.histories id row hOther
  · by_cases hLot : id = auctionId
    · subst hLot
      rw [hRow, Option.some.injEq] at hOther
      subst hOther
      exact ⟨new, Db.get_setAuction_self hRow new, hState hInactive⟩
    · exact ⟨row, (Db.get_setAuction_other d new hLot).trans hOther, hInactive, rfl⟩

/-- Postings of which those that charge a winner charge the final price. -/
theorem postAll (h : HistoryKept d) {postings : List Posting}
    (hCharged : ∀ p ∈ postings, p.type = .bidWin → ∃ auctionId row bid,
      p.auctionId = some auctionId ∧ d.auctions.get auctionId = some row ∧ row.isActive = false ∧
        d.lastBid auctionId = some bid ∧ p.userId = bid.userId ∧ |p.delta| = row.currentPrice) :
    HistoryKept (d.postAll postings) where
  lots bid hBid := by
    rw [Db.postAll_auctions]
    exact h.lots bid (Db.postAll_bids d postings ▸ hBid)
  histories id row hRow := by
    rw [Db.bidsOn_congr (Db.postAll_bids d postings)]
    exact h.histories id row (by rwa [Db.postAll_auctions] at hRow)
  charged tx hTx hType := by
    have hBids (id : LotId) : (d.postAll postings).lastBid id = d.lastBid id :=
      Db.lastBid_congr (Db.bidsOn_congr (Db.postAll_bids d postings) id)
    rw [Db.postAll_auctions]
    rcases Db.mem_postAll hTx with hOld | ⟨p, hp, hTxLot, hTxType, hTxUser, hTxAmount⟩
    · obtain ⟨id, row, bid, hRest⟩ := h.charged tx hOld hType
      exact ⟨id, row, bid, hBids id ▸ hRest⟩
    · obtain ⟨id, row, bid, hLot, hRow, hInactive, hLast, hUser, hAmount⟩ :=
        hCharged p hp (hTxType ▸ hType)
      exact ⟨id, row, bid, hTxLot.trans hLot, hRow, hInactive, (hBids id).trans hLast,
        hTxUser.trans hUser, hTxAmount.trans hAmount⟩

/-- A posting that is no `bid_win` says nothing of a winner. -/
theorem post_balance (h : HistoryKept d) {p : Posting} (hType : p.type ≠ .bidWin) :
    HistoryKept (d.post p) := by
  show HistoryKept (d.postAll [p])
  apply h.postAll
  intro q hq hWin
  rw [List.mem_singleton.mp hq] at hWin
  exact absurd hWin hType

theorem deleteAuction (h : HistoryKept d) {auctionId : LotId} (hNoBids : d.bidsOn auctionId = []) :
    HistoryKept (d.deleteAuction auctionId) where
  lots bid hBid := by
    have hOther : bid.auctionId ≠ auctionId := by
      rintro rfl
      have hMem : bid ∈ d.bidsOn bid.auctionId := Db.mem_bidsOn.mpr ⟨hBid, rfl⟩
      simp [hNoBids] at hMem
    simpa [Db.deleteAuction, hOther] using h.lots bid hBid
  histories id row hRow := by
    simp only [Db.deleteAuction, Table.get_erase] at hRow
    split_ifs at hRow
    exact h.histories id row hRow
  charged tx hTx hType := by
    obtain ⟨old, hOld, rfl⟩ := List.mem_map.mp hTx
    obtain ⟨id, row, bid, hLot, hRow, hInactive, hLast, hUser, hAmount⟩ := h.charged old hOld hType
    have hOther : id ≠ auctionId := by
      rintro rfl
      exact bidsOn_ne_nil hLast hNoBids
    refine ⟨id, row, bid, ?_, ?_, hInactive, hLast, hUser, hAmount⟩
    · simp [hLot, hOther]
    · simp [Db.deleteAuction, hOther, hRow]

/-- An accepted bid continues the history of its lot. -/
theorem bid (h : HistoryKept d) (hWell : WellFormed A d) (hClock : A.clockMonotone)
    {auctionId : LotId} {old : Auction} {userId : UserId} {amount : Money} (now t : Time)
    (hRow : d.auctions.get auctionId = some old) (hActive : old.isActive = true)
    (hType : old.auctionType = .bid) (hOwn : old.createdBy ≠ userId)
    (hHigher : old.currentPrice < amount)
    (hTurn : (d.lastBid auctionId).map Bid.userId ≠ some userId) :
    HistoryKept ((d.setAuction auctionId (acceptBid old amount now).1).addBid amount t userId
      auctionId) := by
  obtain ⟨_, hCreator, hPrice, hStarting, _, _, _, hNewType, _⟩ := acceptBid_fields old amount now
  set new := (acceptBid old amount now).1
  have hOthers : ∀ id, id ≠ auctionId →
      ((d.setAuction auctionId new).addBid amount t userId auctionId).bidsOn id = d.bidsOn id :=
    fun id hId => Db.bidsOn_addBid_other (d.setAuction auctionId new) amount t userId hId
  refine ⟨fun bid hBid => ?_, fun id row hOther => ?_, fun tx hTx hWin => ?_⟩
  · by_cases hId : bid.auctionId = auctionId
    · rw [hId]
      simp [Db.addBid, Db.get_setAuction_self hRow]
    · have hOld : bid ∈ d.bids := by
        rcases List.mem_append.mp hBid with hOld | hNew
        · exact hOld
        · exact absurd (congrArg Bid.auctionId (List.mem_singleton.mp hNew)) hId
      show ((d.setAuction auctionId new).auctions.get bid.auctionId).isSome
      rw [Db.get_setAuction_other d new hId]
      exact h.lots bid hOld
  · by_cases hId : id = auctionId
    · subst hId
      change (d.setAuction id new).auctions.get id = some row at hOther
      rw [Db.get_setAuction_self hRow, Option.some.injEq] at hOther
      subst hOther
      rw [Db.bidsOn_addBid_self]
      rw [hWell.lastBid_eq hClock] at hTurn
      exact (h.histories id old hRow).concat hActive (hNewType.trans hType) hStarting hCreator
        hPrice hHigher hOwn hTurn
    · rw [hOthers id hId]
      exact h.histories id row ((Db.get_setAuction_other d new hId).symm.trans hOther)
  · obtain ⟨id, row, bid, hLot, hCharged, hInactive, hLast, hRest⟩ := h.charged tx hTx hWin
    have hId : id ≠ auctionId := by
      rintro rfl
      rw [hRow, Option.some.injEq] at hCharged
      simp [← hCharged, hActive] at hInactive
    exact ⟨id, row, bid, hLot, (Db.get_setAuction_other d new hId).trans hCharged, hInactive,
      (Db.lastBid_congr (hOthers id hId)).trans hLast, hRest⟩

end HistoryKept

/-- Only the buyer's posting of a settled auction charges a winner. -/
theorem settlementOf_bidWin {percent : CommissionPercent} {payment : TransactionType}
    {buyer seller : UserId} {price : Money} {auctionId : LotId} {bought sold : String}
    {p : Posting} (h : p ∈ settlementOf percent payment buyer seller price auctionId bought sold)
    (hType : p.type = .bidWin) :
    payment = .bidWin ∧ p.auctionId = some auctionId ∧ p.userId = buyer ∧ p.delta = -price := by
  unfold settlementOf saleOf at h
  split_ifs at h <;> simp only [List.mem_cons, List.not_mem_nil, or_false] at h
  · rcases h with rfl | rfl | rfl
    · exact ⟨hType, rfl, rfl, rfl⟩
    · cases hType
    · cases hType
  · rcases h with rfl | rfl
    · exact ⟨hType, rfl, rfl, rfl⟩
    · cases hType

theorem HistoryKept.commit {percent : CommissionPercent} {A : Assumptions} {request : Request}
    {held : Held market} {d d' : Db} (hClock : A.clockMonotone) (hWell : WellFormed A d) (h : HistoryKept d)
    (hCommit : Commit percent A request held d d') : HistoryKept d' := by
  have hClosedHistory : ∀ {auctionId : LotId} {old new : Auction} {winnerId : Option UserId},
      d.auctions.get auctionId = some old → Closed old new winnerId →
      BidHistory new (d.bidsOn auctionId) := fun hRow hClosed =>
    (h.histories _ _ hRow).congr hClosed.auctionType hClosed.startingPrice hClosed.currentPrice
      hClosed.createdBy fun hActive => by simp [hClosed.inactive] at hActive
  cases hCommit with
  | idle => exact h
  | observe => exact h.congr rfl rfl rfl
  | register => exact h.congr rfl rfl rfl
  | deposit => exact h.post_balance (by simp)
  | withdraw => exact h.post_balance (by simp)
  | create row hOpened =>
      refine h.withAuctions rfl rfl (fun id hId => ?_) (fun id new hNew => ?_)
        fun id old hRow hInactive => ⟨old, Table.get_add_old hRow _, hInactive, rfl⟩
      · obtain ⟨old, hRow⟩ := Option.isSome_iff_exists.mp hId
        exact Option.isSome_iff_exists.mpr ⟨old, Table.get_add_old hRow _⟩
      · rcases Table.of_get_add hNew with ⟨rfl, rfl⟩ | hNew
        · rw [hWell.bidsOn_serial]
          exact .nil fun _ => hOpened.price
        · exact h.histories id new hNew
  | illustrate => exact h.congr rfl rfl rfl
  | revise auctionId old new _ _ _ _ hRow hNoBids hActive hRevised =>
      have hSet : HistoryKept (d.setAuction auctionId new) := by
        refine h.setAuction hRow ?_ fun hInactive => by simp [hActive] at hInactive
        rw [hNoBids]
        exact .nil fun _ => hRevised.price ((h.histories _ _ hRow).fresh hNoBids hActive)
      exact hSet.congr rfl rfl rfl
  | remove auctionId row _ _ hNoBids => exact h.deleteAuction hNoBids
  | bid auctionId old userId user amount now t _ _ hRow _ hActive hType hOwn hHigher _ hTurn =>
      exact h.bid hWell hClock now t hRow hActive hType hOwn hHigher hTurn
  | purchase auctionId old buyer user price now bought sold _ _ _ _ hRow _ hActive hType =>
      have hNoBids : d.bidsOn auctionId = [] := by
        by_contra hBids
        rw [(h.histories _ _ hRow).type hBids] at hType
        cases hType
      have hSet : HistoryKept (d.setAuction auctionId (soldTo old price buyer now)) := by
        refine h.setAuction hRow ?_ fun hInactive => by simp [hActive] at hInactive
        rw [hNoBids]
        exact .nil fun hSold => by simp [soldTo] at hSold
      apply hSet.postAll
      intro p hp hWin
      cases (settlementOf_bidWin hp hWin).1
  | close auctionId old new settlement _ hRow _ hClosed =>
      have hSet : HistoryKept (d.setAuction auctionId new) :=
        h.setAuction hRow (hClosedHistory hRow hClosed) fun _ =>
          ⟨hClosed.inactive, hClosed.currentPrice⟩
      exact hSet.congr rfl rfl rfl
  | settle auctionId old new lastBid seller bought sold settlement _ _ _ _ hRow hLast _ _ hClosed =>
      have hSet : HistoryKept (d.setAuction auctionId new) :=
        h.setAuction hRow (hClosedHistory hRow hClosed) fun _ =>
          ⟨hClosed.inactive, hClosed.currentPrice⟩
      have hPrice : lastBid.amount = new.currentPrice := by
        rw [hClosed.currentPrice]
        exact (h.histories _ _ hRow).last lastBid (hWell.lastBid_eq hClock auctionId ▸ hLast)
      have hPos := (hWell.bidRows lastBid (Db.lastBid_mem hLast).1).2.2.1
      have hPosted : HistoryKept ((d.setAuction auctionId new).postAll (settlementOf percent
          .bidWin lastBid.userId seller lastBid.amount auctionId bought sold)) := by
        apply hSet.postAll
        intro p hp hWin
        obtain ⟨_, hLot, hUser, hDelta⟩ := settlementOf_bidWin hp hWin
        refine ⟨auctionId, new, lastBid, hLot, Db.get_setAuction_self hRow new, hClosed.inactive,
          hLast, hUser, ?_⟩
        rw [hDelta, abs_neg, abs_of_pos hPos, hPrice]
      exact hPosted.congr rfl rfl rfl

/-- The ledger charges the user this price for this lot. -/
def Db.Charged (d : Db) (auctionId : LotId) (userId : UserId) (price : Money) : Prop :=
  ∃ tx ∈ d.transactions, tx.type = .bidWin ∧ tx.auctionId = some auctionId ∧
    tx.userId = userId ∧ tx.amount = price

/-- The latest bidder of every lot that is over has been charged its price. -/
def WinnersCharged (d : Db) : Prop := ∀ auctionId row bid, d.auctions.get auctionId = some row →
  row.isActive = false → d.lastBid auctionId = some bid →
    d.Charged auctionId bid.userId row.currentPrice

/-- The ledger only grows by postings. -/
theorem Db.subset_postAll (d : Db) (postings : List Posting) :
    d.transactions ⊆ (d.postAll postings).transactions := by
  obtain ⟨new, hNew, _⟩ := d.postAll_transactions postings
  rw [hNew]
  exact List.subset_append_left _ _

/-- A settlement charges its buyer. -/
theorem Db.charged_settlementOf {d : Db} {percent : CommissionPercent} {buyer seller : UserId}
    {price : Money} {auctionId : LotId} {bought sold : String} (hPos : 0 < price)
    (hBuyer : (d.users.get buyer).isSome) :
    (d.postAll (settlementOf percent .bidWin buyer seller price auctionId bought sold)).Charged
      auctionId buyer price := by
  obtain ⟨user, hUser⟩ := Option.isSome_iff_exists.mp hBuyer
  let payment : Posting := ⟨buyer, -price, .bidWin, bought, some auctionId⟩
  have hPosted : payment.entry d.transactionSerial user.balance ∈ (d.post payment).transactions := by
    rw [post_some (p := payment) hUser]
    simp
  have hAmount : |(-price : Money)| = price := by rw [abs_neg, abs_of_pos hPos]
  exact ⟨payment.entry d.transactionSerial user.balance, subset_postAll (d.post payment) _ hPosted,
    rfl, rfl, rfl, hAmount⟩

namespace WinnersCharged

variable {d d' : Db}

theorem of_initial (categories : List Nat) : WinnersCharged (Db.initial categories) := by
  intro auctionId row bid hRow
  cases hRow

/-- What is written leaves the other lots alone and takes no row from the ledger. -/
theorem change (h : WinnersCharged d) (auctionId : LotId)
    (hTransactions : d.transactions ⊆ d'.transactions)
    (hAuctions : ∀ id, id ≠ auctionId → d'.auctions.get id = d.auctions.get id)
    (hBids : ∀ id, id ≠ auctionId → d'.bidsOn id = d.bidsOn id)
    (hLot : ∀ row bid, d'.auctions.get auctionId = some row → row.isActive = false →
      d'.lastBid auctionId = some bid → d'.Charged auctionId bid.userId row.currentPrice) :
    WinnersCharged d' := by
  intro id row bid hRow hInactive hLast
  by_cases hId : id = auctionId
  · subst hId
    exact hLot row bid hRow hInactive hLast
  · rw [hAuctions id hId] at hRow
    rw [Db.lastBid_congr (hBids id hId)] at hLast
    obtain ⟨tx, hTx, hCharge⟩ := h id row bid hRow hInactive hLast
    exact ⟨tx, hTransactions hTx, hCharge⟩

/-- Charges outlive every change that keeps the lots, the bids and the
transactions made so far. -/
theorem congr (h : WinnersCharged d) (hAuctions : d'.auctions = d.auctions)
    (hBids : d'.bids = d.bids) (hTransactions : d.transactions ⊆ d'.transactions) :
    WinnersCharged d' := by
  intro id row bid hRow hInactive hLast
  rw [hAuctions] at hRow
  rw [Db.lastBid_congr (Db.bidsOn_congr hBids id)] at hLast
  obtain ⟨tx, hTx, hCharge⟩ := h id row bid hRow hInactive hLast
  exact ⟨tx, hTransactions hTx, hCharge⟩

theorem post (h : WinnersCharged d) (p : Posting) : WinnersCharged (d.post p) :=
  h.congr (Db.post_auctions d p) (Db.post_bids d p) (d.subset_postAll [p])

/-- A lot without bids charges nobody, whatever becomes of its row. -/
theorem setAuction (h : WinnersCharged d) {auctionId : LotId} (new : Auction)
    (hNoBids : d.bidsOn auctionId = []) : WinnersCharged (d.setAuction auctionId new) := by
  refine h.change auctionId (List.Subset.refl _)
    (fun id hId => Db.get_setAuction_other d new hId) (fun _ _ => rfl) ?_
  intro row bid _ _ hLast
  cases (Db.lastBid_eq_none.mpr hNoBids).symm.trans hLast

/-- The rows of the deleted lot lose its number, those of the others keep theirs. -/
theorem deleteAuction (h : WinnersCharged d) (auctionId : LotId) :
    WinnersCharged (d.deleteAuction auctionId) := by
  intro id row bid hRow hInactive hLast
  simp only [Db.deleteAuction, Table.get_erase] at hRow
  split_ifs at hRow with hId
  obtain ⟨tx, hTx, hType, hLot, hUser, hAmount⟩ := h id row bid hRow hInactive hLast
  refine ⟨_, List.mem_map_of_mem hTx, hType, ?_, hUser, hAmount⟩
  rw [hLot, if_neg (fun hSame => hId (Option.some.inj hSame))]

/-- The step lemma. -/
theorem commit {percent : CommissionPercent} {A : Assumptions} {request : Request}
    {held : Held market} (hClock : A.clockMonotone) (hWell : WellFormed A d)
    (hHistory : HistoryKept d) (h : WinnersCharged d)
    (hCommit : Commit percent A request held d d') : WinnersCharged d' := by
  cases hCommit with
  | idle => exact h
  | observe => exact h.congr rfl rfl (List.Subset.refl _)
  | register => exact h.congr rfl rfl (List.Subset.refl _)
  | deposit => exact h.post _
  | withdraw => exact h.post _
  | create row hOpened =>
      refine h.change d.auctions.serial (List.Subset.refl _) (fun id hId => ?_)
        (fun _ _ => rfl) ?_
      · simp [Db.addAuction, hId]
      · intro new bid _ _ hLast
        have hNone : d.lastBid d.auctions.serial = none := Db.lastBid_eq_none.mpr hWell.bidsOn_serial
        cases hNone.symm.trans hLast
  | illustrate => exact h.congr rfl rfl (List.Subset.refl _)
  | revise auctionId old new _ _ _ _ _ hNoBids =>
      exact (h.setAuction new hNoBids).congr rfl rfl (List.Subset.refl _)
  | remove auctionId => exact h.deleteAuction auctionId
  | bid auctionId old userId user amount now t _ _ hRow _ hActive =>
      obtain ⟨_, _, _, _, hOpen, _⟩ := acceptBid_fields old amount now
      set new := (acceptBid old amount now).1
      refine h.change auctionId (List.Subset.refl _)
        (fun id hId => Db.get_setAuction_other d new hId)
        (fun id hId => Db.bidsOn_addBid_other (d.setAuction auctionId new) amount t userId hId) ?_
      intro row bid hNew hInactive _
      change (d.setAuction auctionId new).auctions.get auctionId = some row at hNew
      rw [Db.get_setAuction_self hRow, Option.some.injEq] at hNew
      subst hNew
      rw [hOpen, hActive] at hInactive
      cases hInactive
  | purchase auctionId old buyer user price now bought sold _ _ _ _ hRow _ _ hType =>
      have hNoBids : d.bidsOn auctionId = [] := by
        by_contra hBids
        rw [(hHistory.histories _ _ hRow).type hBids] at hType
        cases hType
      exact (h.setAuction (soldTo old price buyer now) hNoBids).congr (Db.postAll_auctions _ _)
        (Db.postAll_bids _ _) (Db.subset_postAll _ _)
  | close auctionId old new settlement _ _ hNoBids =>
      exact (h.setAuction new hNoBids).congr rfl rfl (List.Subset.refl _)
  | settle auctionId old new lastBid seller bought sold settlement _ _ _ _ hRow hLast _ _ hClosed =>
      obtain ⟨hWinner, _, hPos, _⟩ := hWell.bidRows lastBid (Db.lastBid_mem hLast).1
      have hPrice : lastBid.amount = old.currentPrice :=
        (hHistory.histories _ _ hRow).last lastBid (hWell.lastBid_eq hClock auctionId ▸ hLast)
      set postings := settlementOf percent .bidWin lastBid.userId seller lastBid.amount auctionId
        bought sold
      have hBids (id : LotId) : ((d.setAuction auctionId new).postAll postings).bidsOn id =
          d.bidsOn id := Db.bidsOn_congr (Db.postAll_bids _ _) id
      have hCharged : ((d.setAuction auctionId new).postAll postings).Charged auctionId
          lastBid.userId lastBid.amount := Db.charged_settlementOf hPos hWinner
      refine h.change auctionId (Db.subset_postAll (d.setAuction auctionId new) _)
        (fun id hId => ?_) (fun id _ => hBids id) ?_
      · exact (congrArg (·.get id) (Db.postAll_auctions _ _)).trans
          (Db.get_setAuction_other d new hId)
      · intro row bid hNew _ hNewLast
        obtain rfl : lastBid = bid :=
          Option.some.inj (hLast.symm.trans ((Db.lastBid_congr (hBids auctionId)).symm.trans hNewLast))
        have hRow' : row = new := by
          have hGet := (congrArg (·.get auctionId) (Db.postAll_auctions _ _)).symm.trans hNew
          exact Option.some.inj (hGet.symm.trans (Db.get_setAuction_self hRow new))
        rw [hRow', hClosed.currentPrice, ← hPrice]
        exact hCharged

end WinnersCharged

/-- With clock readings nondecreasing under each lot's lock, in every
interleaving: a lot with bids takes bids only, and its bids sorted by time and
number increase strictly from above the starting price up to the current one,
by alternating users other than the seller; an active lot without bids stands
at its starting price; every query for the latest bid names the highest one;
a winner is charged the final price of the lot they led, and the last bidder of
every lot that is over has been. -/
theorem bid_history_kept {percent : CommissionPercent} {categories : List Nat} {c : Config market}
    (run : Reaches (handle percent) ClockMonotone (Db.initial categories) c) :
    (∀ auctionId, c.db.bidsOn auctionId ≠ [] → ∃ row, c.db.auctions.get auctionId = some row ∧
      row.auctionType = .bid ∧
      BidHistory row (Latest.chronological Bid.timestamp Bid.id (c.db.bidsOn auctionId))) ∧
    (∀ auctionId row, c.db.auctions.get auctionId = some row → row.isActive = true →
      c.db.bidsOn auctionId = [] → row.currentPrice = row.startingPrice) ∧
    (∀ auctionId bid, c.db.lastBid auctionId = some bid →
      (∀ other ∈ c.db.bidsOn auctionId, other.amount ≤ bid.amount) ∧
      c.db.latestBidder.filter (fun other => other.auctionId = auctionId) = [bid]) ∧
    (∀ tx ∈ c.db.transactions, tx.type = .bidWin → ∃ auctionId row bid,
      tx.auctionId = some auctionId ∧ c.db.auctions.get auctionId = some row ∧
        c.db.lastBid auctionId = some bid ∧ tx.userId = bid.userId ∧
        tx.amount = row.currentPrice) ∧
    ∀ auctionId row bid, c.db.auctions.get auctionId = some row → row.isActive = false →
      c.db.lastBid auctionId = some bid → ∃ tx ∈ c.db.transactions, tx.type = .bidWin ∧
        tx.auctionId = some auctionId ∧ tx.userId = bid.userId ∧ tx.amount = row.currentPrice := by
  have run' : Reaches (handle percent) (Assumptions.ok ⟨True, False, False⟩)
      (Db.initial categories) c := run.weaken fun _ _ _ h => ⟨fun _ => h, nofun, nofun⟩
  have hWell := wellFormed_of_reaches run'
  obtain ⟨hKept, hCharged⟩ : HistoryKept c.db ∧ WinnersCharged c.db :=
    invariant_of_commits (I := fun d => HistoryKept d ∧ WinnersCharged d)
      ⟨.of_initial categories, .of_initial categories⟩
      (fun hWell h hCommit => ⟨h.1.commit trivial hWell hCommit,
        h.2.commit trivial hWell h.1 hCommit⟩) run'
  refine ⟨fun auctionId hBids => ?_, fun auctionId row hRow hActive hNoBids => ?_,
    fun auctionId bid hLast => ⟨?_, ?_⟩, fun tx hTx hWin => ?_, hCharged⟩
  · obtain ⟨bid, hBid⟩ := List.exists_mem_of_ne_nil _ hBids
    obtain ⟨hMem, rfl⟩ := Db.mem_bidsOn.mp hBid
    obtain ⟨row, hRow⟩ := Option.isSome_iff_exists.mp (hKept.lots bid hMem)
    have hHistory := hKept.histories _ row hRow
    refine ⟨row, hRow, hHistory.type hBids, ?_⟩
    rwa [Latest.chronological_eq (hWell.bidsOn_older trivial _)]
  · exact (hKept.histories auctionId row hRow).fresh hNoBids hActive
  · obtain ⟨hMem, rfl⟩ := Db.lastBid_mem hLast
    obtain ⟨row, hRow⟩ := Option.isSome_iff_exists.mp (hKept.lots bid hMem)
    rw [hWell.lastBid_eq trivial] at hLast
    exact (hKept.histories _ row hRow).highest hLast
  · rw [hWell.latestBidder_filter trivial, hLast]
    rfl
  · obtain ⟨auctionId, row, bid, hLot, hRow, _, hLast, hUser, hAmount⟩ :=
      hKept.charged tx hTx hWin
    exact ⟨auctionId, row, bid, hLot, hRow, hLast, hUser, hAmount⟩

/-- In the first sale the winner, user 1, is charged the price of lot 0. -/
theorem bid_history_kept_firstSale : ∃ c : Config market, ∃ row,
    c.db.auctions.get 0 = some row ∧ row.auctionType = .bid ∧
      BidHistory row (Latest.chronological Bid.timestamp Bid.id
        [⟨0, 20000, seconds 1, 1, 0⟩]) ∧
      ∃ tx ∈ c.db.transactions, tx.type = .bidWin ∧ tx.auctionId = some 0 ∧ tx.userId = 1 ∧
        tx.amount = row.currentPrice := by
  let bid : Bid := ⟨0, 20000, seconds 1, 1, 0⟩
  obtain ⟨c, run, hBids, hLast, hOver⟩ := exists_reaches (handle defaultCommission) ClockMonotone
    (Db.initial []) firstSale (fun c => c.db.bidsOn 0 = [bid] ∧ c.db.lastBid 0 = some bid ∧
      (c.db.auctions.get 0).map Auction.isActive = some false) (by decide +kernel)
  obtain ⟨hHistories, _, _, _, hCharged⟩ := bid_history_kept run
  obtain ⟨row, hRow, hType, hHistory⟩ := hHistories 0 (by simp [hBids])
  rw [hBids] at hHistory
  have hInactive : row.isActive = false := by simpa [hRow] using hOver
  exact ⟨c, row, hRow, hType, hHistory, hCharged 0 row bid hRow hInactive hLast⟩

end OnlineAuction
