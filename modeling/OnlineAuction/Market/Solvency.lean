import OnlineAuction.Market.BidHistory

/-! Solvency: a balance always covers the prices of the lots its user leads,
so that settling any of them can be paid for. -/

namespace OnlineAuction

open RowLocks

def Solvent (d : Db) : Prop :=
  ∀ userId row, d.users.get userId = some row → d.reserved userId ≤ row.balance

def credited (postings : List Posting) (userId : UserId) : Money :=
  ((postings.filter fun p => p.userId = userId).map Posting.delta).sum

/-- Postings change the balance of the users they name. -/
theorem get_postAll (d : Db) (postings : List Posting) (userId : UserId) :
    (d.postAll postings).users.get userId = (d.users.get userId).map fun row =>
      { row with balance := row.balance + credited postings userId } := by
  induction postings generalizing d with
  | nil => simp [credited]
  | cons p rest ih =>
      rw [Db.postAll_cons, ih]
      by_cases hId : userId = p.userId
      · subst hId
        cases hUser : d.users.get p.userId with
        | none => simp [Db.post_none hUser, hUser]
        | some user =>
            rw [Db.get_post_self hUser]
            simp [credited, add_assoc]
      · rw [Db.get_post_other d hId]
        simp [credited, Ne.symm hId]

/-- A sale costs the buyer the price and nobody anything else: the commission
is taken from the gross credit. -/
theorem settlementOf_credited (percent : CommissionPercent) (payment : TransactionType)
    (buyer seller : UserId) {price : Money} (hPos : 0 < price) (hMax : price ≤ maxUserBalance)
    (auctionId : LotId) (bought sold : String) (userId : UserId) :
    (if userId = buyer then -price else 0) ≤
      credited (settlementOf percent payment buyer seller price auctionId bought sold) userId := by
  have hLimit : price < numericLimit := hMax.trans_lt (by decide)
  have hNet := (sellerCommission_bounds percent hPos.le hLimit).2
  have hSale : 0 ≤ credited (saleOf percent seller price auctionId sold) userId := by
    unfold credited saleOf
    by_cases hSeller : seller = userId
    · split_ifs
      · simpa [hSeller] using hNet
      · simpa [hSeller] using hPos.le
    · split_ifs <;> simp [hSeller]
  unfold credited settlementOf at *
  by_cases hBuyer : userId = buyer
  · subst hBuyer
    simpa using hSale
  · simpa [hBuyer, Ne.symm hBuyer] using hSale

namespace Solvent

variable {A : Assumptions} {d d' : Db}

/-- Nobody's reserved money grows and nobody's balance falls. -/
theorem mono (h : Solvent d) (hReserved : ∀ id, d'.reserved id ≤ d.reserved id)
    (hUsers : ∀ id row', d'.users.get id = some row' →
      ∃ row, d.users.get id = some row ∧ row.balance ≤ row'.balance) : Solvent d' := by
  intro id row' hRow'
  obtain ⟨row, hRow, hLe⟩ := hUsers id row' hRow'
  exact (hReserved id).trans ((h id row hRow).trans hLe)

/-- The lots and the bids are as they were. -/
theorem congr (h : Solvent d) (hUsers : d'.users = d.users)
    (hAuctions : d'.auctions = d.auctions) (hBids : d'.bids = d.bids) : Solvent d' :=
  h.mono (fun id => Db.reserved_le fun auctionId =>
      (Db.reservedOn_congr (by rw [hAuctions]) (Db.bidsOn_congr hBids auctionId) id).le)
    fun id row hRow => ⟨row, by rwa [← hUsers], le_rfl⟩

/-- One lot has changed so that it reserves nothing. -/
theorem of_lot (h : Solvent d) (hWell : WellFormed A d) (key : LotId)
    (hKey : ∀ id, d'.reservedOn id key = 0)
    (hAuctions : ∀ id, id ≠ key → d'.auctions.get id = d.auctions.get id)
    (hBids : d'.bids = d.bids) (hUsers : d'.users = d.users) : Solvent d' :=
  h.mono (fun id => hWell.reserved_le_of_lot (hKey id) hAuctions
      fun auctionId _ => Db.bidsOn_congr hBids auctionId)
    fun id row hRow => ⟨row, by rwa [← hUsers], le_rfl⟩

theorem reserved_postAll (d : Db) (postings : List Posting) (id : UserId) :
    (d.postAll postings).reserved id = d.reserved id := by
  have hLots (auctionId : LotId) :
      (d.postAll postings).reservedOn id auctionId = d.reservedOn id auctionId :=
    Db.reservedOn_congr (by rw [Db.postAll_auctions])
      (Db.bidsOn_congr (Db.postAll_bids d postings) auctionId) id
  simp only [Db.reserved, Db.postAll_auctions, hLots]

/-- Postings to balances that cover them. -/
theorem postAll {postings : List Posting}
    (h : ∀ id row, d.users.get id = some row →
      d.reserved id ≤ row.balance + credited postings id) : Solvent (d.postAll postings) := by
  intro id row hRow
  rw [get_postAll, Option.map_eq_some_iff] at hRow
  obtain ⟨old, hOld, rfl⟩ := hRow
  rw [reserved_postAll]
  exact h id old hOld

/-- A posting that leaves the reserved money covered keeps everyone solvent. -/
theorem post {p : Posting} {user : User} (h : Solvent d) (hUser : d.users.get p.userId = some user)
    (hFunds : d.reserved p.userId ≤ user.balance + p.delta) : Solvent (d.post p) := by
  show Solvent (d.postAll [p])
  apply postAll
  intro id row hRow
  by_cases hId : id = p.userId
  · subst hId
    rw [hUser, Option.some.injEq] at hRow
    subst hRow
    simpa [credited] using hFunds
  · simpa [credited, Ne.symm hId] using h id row hRow

/-- A sale to a buyer whose balance covers the price on top of what remains
reserved. -/
theorem sale {percent : CommissionPercent} {payment : TransactionType} {buyer seller : UserId}
    {price : Money} {auctionId : LotId} {bought sold : String} (hPos : 0 < price)
    (hMax : price ≤ maxUserBalance)
    (hFunds : ∀ id row, d.users.get id = some row →
      d.reserved id + (if id = buyer then price else 0) ≤ row.balance) :
    Solvent (d.postAll (settlementOf percent payment buyer seller price auctionId bought sold)) := by
  apply postAll
  intro id row hRow
  have hCredit := settlementOf_credited percent payment buyer seller hPos hMax auctionId bought
    sold id
  have hBefore := hFunds id row hRow
  split_ifs at hCredit hBefore <;> linarith

/-- A new account is not the latest bidder of any lot. -/
theorem addUser (h : Solvent d) (hWell : WellFormed A d) : Solvent d.addUser := by
  intro id row hRow
  have hSame : d.addUser.reserved id = d.reserved id := rfl
  simp only [Db.addUser, Table.get_add] at hRow
  split_ifs at hRow with hId
  · have hZero : d.reserved id = 0 := by
      refine Finset.sum_eq_zero fun auctionId _ => Db.reservedOn_follower fun hLeads => ?_
      obtain ⟨bid, hLast, hUser⟩ := Option.map_eq_some_iff.mp hLeads
      have hExists := (hWell.bidRows bid (Db.lastBid_mem hLast).1).1
      rw [hUser, hId, d.users.unused _ le_rfl] at hExists
      simp at hExists
    obtain rfl := Option.some.inj hRow
    have hOpening : 0 ≤ openingBalance := by decide
    exact hSame.trans hZero ▸ hOpening
  · exact hSame ▸ h id row hRow

/-- An accepted bid replaces the leader; the bidder had the funds. -/
theorem bid (h : Solvent d) (hWell : WellFormed A d) {auctionId : LotId} {old : Auction}
    {userId : UserId} {user : User} {amount : Money} (now t : Time)
    (hNext : WellFormed A ((d.setAuction auctionId (acceptBid old amount now).1).addBid amount t
      userId auctionId)) (hClock : A.clockMonotone)
    (hRow : d.auctions.get auctionId = some old) (hUser : d.users.get userId = some user)
    (hActive : old.isActive = true)
    (hTurn : (d.lastBid auctionId).map Bid.userId ≠ some userId)
    (hFunds : d.reserved userId + amount ≤ user.balance) :
    Solvent ((d.setAuction auctionId (acceptBid old amount now).1).addBid amount t userId
      auctionId) := by
  obtain ⟨_, _, hPrice, _, hStillActive, _⟩ := acceptBid_fields old amount now
  set new := (acceptBid old amount now).1
  set next := (d.setAuction auctionId new).addBid amount t userId auctionId
  have hLast : next.lastBid auctionId = some ⟨d.bidSerial, amount, t, userId, auctionId⟩ :=
    hNext.lastBid_addBid hClock
  have hAuctions : ∀ id, id ≠ auctionId → next.auctions.get id = d.auctions.get id :=
    fun id hId => Db.get_setAuction_other d new hId
  have hBids : ∀ id, id ≠ auctionId → next.bidsOn id = d.bidsOn id :=
    fun id hId => Db.bidsOn_addBid_other (d.setAuction auctionId new) amount t userId hId
  intro id row hRowOf
  have hOld : d.users.get id = some row := hRowOf
  by_cases hId : id = userId
  · subst hId
    rw [hUser, Option.some.injEq] at hOld
    subst hOld
    have hLead : next.reservedOn id auctionId = amount := by
      have hNewRow : next.auctions.get auctionId = some new := Db.get_setAuction_self hRow new
      exact (Db.reservedOn_leader hNewRow (hStillActive.trans hActive) hLast).trans hPrice
    refine (Db.reserved_le_add (Table.lt_serial hRow) ?_ fun other hOther => ?_).trans hFunds
    · rw [hLead, Db.reservedOn_follower hTurn, zero_add]
    · exact (Db.reservedOn_congr (hAuctions other hOther) (hBids other hOther) id).le
  · refine (hWell.reserved_le_of_lot (Db.reservedOn_follower ?_) hAuctions hBids).trans
      (h id row hOld)
    rw [hLast]
    rintro ⟨rfl⟩
    exact hId rfl

/-- A purchase at the fixed price takes what the buyer has not reserved. -/
theorem purchase {percent : CommissionPercent} (h : Solvent d) (hWell : WellFormed A d)
    {auctionId : LotId} {old : Auction} {buyer : UserId} {user : User} {price : Money} (now : Time)
    (bought sold : String) (hRow : d.auctions.get auctionId = some old)
    (hUser : d.users.get buyer = some user) (hPrice : old.binPrice = some price)
    (hFunds : d.reserved buyer + price ≤ user.balance) :
    Solvent ((d.setAuction auctionId (soldTo old price buyer now)).postAll
      (settlementOf percent .binPurchase buyer old.createdBy price auctionId bought sold)) := by
  obtain ⟨hPos, hMax⟩ := hWell.binPrices _ _ price hRow hPrice
  refine .sale hPos hMax fun id row hRowOf => ?_
  have hOld : d.users.get id = some row := hRowOf
  have hLe : (d.setAuction auctionId (soldTo old price buyer now)).reserved id ≤ d.reserved id :=
    hWell.reserved_le_of_lot
      (Db.reservedOn_inactive (Db.get_setAuction_self hRow _) rfl id)
      (fun other hOther => Db.get_setAuction_other d _ hOther) fun _ _ => rfl
  by_cases hId : id = buyer
  · subst hId
    rw [hUser, Option.some.injEq] at hOld
    rw [if_pos rfl, ← hOld]
    exact (add_le_add_left hLe price).trans hFunds
  · rw [if_neg hId, add_zero]
    exact hLe.trans (h id row hOld)

/-- The winner of a lot pays what the lot had reserved. -/
theorem settle {percent : CommissionPercent} (h : Solvent d) (hWell : WellFormed A d)
    (hHistory : HistoryKept d) (hClock : A.clockMonotone) {auctionId : LotId} {old new : Auction}
    {lastBid : Bid} (seller : UserId) (bought sold : String)
    (hRow : d.auctions.get auctionId = some old) (hLast : d.lastBid auctionId = some lastBid)
    (hActive : old.isActive = true) (hInactive : new.isActive = false) :
    Solvent ((d.setAuction auctionId new).postAll (settlementOf percent .bidWin lastBid.userId
      seller lastBid.amount auctionId bought sold)) := by
  obtain ⟨_, _, hPos, hMax⟩ := hWell.bidRows lastBid (Db.lastBid_mem hLast).1
  have hPrice : lastBid.amount = old.currentPrice :=
    (hHistory.histories _ _ hRow).last lastBid (hWell.lastBid_eq hClock auctionId ▸ hLast)
  have hFree (id : UserId) : (d.setAuction auctionId new).reservedOn id auctionId = 0 :=
    Db.reservedOn_inactive (Db.get_setAuction_self hRow new) hInactive id
  have hOthers : ∀ id, id ≠ auctionId →
      (d.setAuction auctionId new).auctions.get id = d.auctions.get id :=
    fun id hId => Db.get_setAuction_other d new hId
  refine .sale hPos hMax fun id row hRowOf => ?_
  have hBefore := h id row hRowOf
  by_cases hId : id = lastBid.userId
  · subst hId
    have hLed := Db.reservedOn_leader hRow hActive hLast
    have hLe : (d.setAuction auctionId new).reserved lastBid.userId ≤
        d.reserved lastBid.userId + -lastBid.amount := by
      refine Db.reserved_le_add (Table.lt_serial hRow) ?_ fun other hOther =>
        (Db.reservedOn_congr (hOthers other hOther) rfl _).le
      rw [hFree, hLed, hPrice, add_neg_cancel]
    rw [if_pos rfl]
    linarith
  · rw [if_neg hId, add_zero]
    exact (hWell.reserved_le_of_lot (hFree id) hOthers fun _ _ => rfl).trans hBefore

end Solvent

theorem Solvent.commit {percent : CommissionPercent} {A : Assumptions} {request : Request}
    {held : Held market} {d d' : Db} (hClock : A.clockMonotone) (hOnce : A.settlesOnce) (hWell : WellFormed A d)
    (hHistory : HistoryKept d) (h : Solvent d) (hCommit : Commit percent A request held d d') :
    Solvent d' := by
  have hNext := hWell.commit hCommit
  cases hCommit with
  | idle => exact h
  | observe => exact h.congr rfl rfl rfl
  | register => exact h.addUser hWell
  | deposit userId user amount description _ hUser hPos =>
      apply h.post hUser
      have hBefore := h userId user hUser
      show d.reserved userId ≤ user.balance + amount
      linarith
  | withdraw userId user amount description _ hUser _ hFunds =>
      apply h.post hUser
      have hEnough := hFunds hClock
      show d.reserved userId ≤ user.balance + -amount
      linarith
  | create row =>
      have hNone (id : UserId) : (d.addAuction row).reservedOn id d.auctions.serial = 0 :=
        Db.reservedOn_noBids (d := d.addAuction row) hWell.bidsOn_serial id
      exact h.of_lot hWell d.auctions.serial hNone
        (fun id hId => by simp [Db.addAuction, hId]) rfl rfl
  | illustrate => exact h.congr rfl rfl rfl
  | revise auctionId old new _ data _ _ hRow hNoBids =>
      refine h.of_lot hWell auctionId (fun id => ?_)
        (fun id hId => Db.get_setAuction_other d new hId) rfl rfl
      exact Db.reservedOn_noBids
        (d := { d.setAuction auctionId new with images := data.images d auctionId }) hNoBids id
  | remove auctionId row _ _ hNoBids =>
      have hNone (id : UserId) : (d.deleteAuction auctionId).reservedOn id auctionId = 0 :=
        Db.reservedOn_noBids (d := d.deleteAuction auctionId) hNoBids id
      exact h.of_lot hWell auctionId hNone (fun id hId => by simp [Db.deleteAuction, hId]) rfl rfl
  | bid auctionId old userId user amount now t _ _ hRow hUser hActive _ _ _ _ hTurn hFunds =>
      exact h.bid hWell now t hNext hClock hRow hUser hActive hTurn (hFunds hClock)
  | purchase auctionId old buyer user price now bought sold _ _ _ _ hRow hUser _ _ hPrice _ hFunds =>
      exact h.purchase hWell now bought sold hRow hUser hPrice (hFunds hClock)
  | close auctionId old new settlement _ hRow _ hClosed =>
      exact h.of_lot hWell auctionId
        (fun id => Db.reservedOn_inactive (Db.get_setAuction_self hRow new) hClosed.inactive id)
        (fun id hId => Db.get_setAuction_other d new hId) rfl rfl
  | settle auctionId old new lastBid seller bought sold settlement _ _ _ _ hRow hLast _ _ hClosed
      hActive =>
      exact (h.settle hWell hHistory hClock seller bought sold hRow hLast (hActive hOnce)
        hClosed.inactive).congr rfl rfl rfl

/-- Whoever covers the reserved money has a balance of at least nothing. -/
theorem Solvent.nonneg {A : Assumptions} {d : Db} (h : Solvent d) (hWell : WellFormed A d)
    {userId : UserId} {row : User} (hRow : d.users.get userId = some row) : 0 ≤ row.balance :=
  (hWell.reserved_nonneg userId).trans (h userId row hRow)

/-- With clock readings nondecreasing under each lot's lock and every lot
settled once, in every interleaving a balance covers the prices of the active
lots whose latest bid is the user's, so no balance is negative; and no commit
that a session is about to make would leave a negative balance. -/
theorem leaders_solvent {percent : CommissionPercent} {categories : List Nat} {c : Config market}
    (run : Reaches (handle percent) (fun d held e => ClockMonotone d held e ∧ SettlesOnce d held e)
      (Db.initial categories) c) :
    (∀ userId row, c.db.users.get userId = some row →
      c.db.reserved userId ≤ row.balance ∧ 0 ≤ row.balance) ∧
    ∀ sid note write next, c.sessions sid = some (.commit note write next) →
      ∀ userId row, (write c.db).users.get userId = some row → 0 ≤ row.balance := by
  have run' : Reaches (handle percent) (Assumptions.ok ⟨True, True, False⟩)
      (Db.initial categories) c := run.weaken fun _ _ _ h => ⟨fun _ => h.1, fun _ => h.2, nofun⟩
  have hWell := wellFormed_of_reaches run'
  have hKept : HistoryKept c.db ∧ Solvent c.db :=
    invariant_of_commits (I := fun d => HistoryKept d ∧ Solvent d)
      ⟨.of_initial categories, by simp [Solvent, Db.initial]⟩
      (fun hWell hKept hCommit => ⟨hKept.1.commit trivial hWell hCommit,
        hKept.2.commit trivial trivial hWell hKept.1 hCommit⟩) run'
  obtain ⟨hHistory, hSolvent⟩ := hKept
  refine ⟨fun userId row hRow => ⟨hSolvent userId row hRow, hSolvent.nonneg hWell hRow⟩, ?_⟩
  intro sid note write next hSession userId row hRow
  obtain ⟨request, hCommit⟩ := pending_commit run' hSession
  exact (hSolvent.commit trivial trivial hWell hHistory hCommit).nonneg (hWell.commit hCommit) hRow

/-- After the first bid 200.00 of user 1's money is reserved. -/
theorem leaders_solvent_firstBid : ∃ c : Config market, ∃ row,
    c.db.users.get 1 = some row ∧ c.db.reserved 1 = 20000 ∧ c.db.reserved 1 ≤ row.balance ∧
      0 ≤ row.balance := by
  obtain ⟨c, run, hUser, hReserved⟩ := exists_reaches (handle defaultCommission)
    (fun d held e => ClockMonotone d held e ∧ SettlesOnce d held e) (Db.initial []) firstBid
    (fun c => c.db.users.get 1 = some ⟨1, 100000⟩ ∧ c.db.reserved 1 = 20000) (by decide +kernel)
  exact ⟨c, _, hUser, hReserved, (leaders_solvent run).1 1 _ hUser⟩

end OnlineAuction
