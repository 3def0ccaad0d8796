import OnlineAuction.Library.Escrow
import OnlineAuction.Market.Solvency

/-! The books of the marketplace: what everybody may spend, what is set aside for each
lot, the commissions and the money that came in, read off the tables, and how they
change with the lots and the postings. -/

namespace OnlineAuction

open RowLocks

/-- A lot as the house has it in its books, with its latest bid. -/
def Auction.entry (row : Auction) (lastBid : Option Bid) : Escrow.Lot UserId Money where
  seller := row.createdBy
  price := row.currentPrice
  fixed := if row.auctionType = .bin then row.binPrice else none
  status :=
    if row.isActive then .onSale (lastBid.map Bid.userId)
    else match row.winnerId with
      | some winner => .sold winner
      | none => .unsold

namespace Db

def available (d : Db) (userId : UserId) : Money :=
  match d.users.get userId with
  | some user => user.balance - d.reserved userId
  | none => 0

def entryOf (d : Db) (auctionId : LotId) : Option (Escrow.Lot UserId Money) :=
  (d.auctions.get auctionId).map fun row => row.entry (d.lastBid auctionId)

def stakeOn (d : Db) (auctionId : LotId) : Money :=
  ((d.entryOf auctionId).map Escrow.Lot.stake).getD 0

/-- The money that came in: opening balances and deposits, less withdrawals. -/
def inflow (d : Db) : Money :=
  openingBalance * d.users.total (fun _ => 1) + d.sumOf .deposit - d.sumOf .withdrawal

theorem available_unused {d : Db} {userId : UserId} (h : d.available userId ≠ 0) :
    userId ∈ Finset.range d.users.serial := by
  by_contra hNot
  refine h ?_
  rw [available, d.users.unused userId (by simpa using hNot)]

theorem stakeOn_unused {d : Db} {auctionId : LotId} (h : d.stakeOn auctionId ≠ 0) :
    auctionId ∈ Finset.range d.auctions.serial := by
  by_contra hNot
  refine h ?_
  rw [stakeOn, entryOf, d.auctions.unused auctionId (by simpa using hNot)]
  rfl

noncomputable def house (d : Db) : Escrow.House UserId LotId Money where
  members := (Finset.range d.users.serial).filter fun id => (d.users.get id).isSome
  purse := Finsupp.onFinset (Finset.range d.users.serial) d.available fun _ => available_unused
  escrow := Finsupp.onFinset (Finset.range d.auctions.serial) d.stakeOn fun _ => stakeOn_unused
  lots := d.entryOf
  treasury := d.sumOf .commission
  inflow := d.inflow

/-- The purse of a member is the balance less the reserved money. -/
@[simp] theorem house_purse (d : Db) (userId : UserId) :
    d.house.purse userId = d.available userId := rfl

/-- The escrow of a lot is its price while it is active and has bids. -/
@[simp] theorem house_escrow (d : Db) (auctionId : LotId) :
    d.house.escrow auctionId = d.stakeOn auctionId := rfl

/-- The lots of the house are the auctions, each with its last bidder. -/
@[simp] theorem house_lots (d : Db) (auctionId : LotId) :
    d.house.lots auctionId = d.entryOf auctionId := rfl

@[simp] theorem mem_members {d : Db} {userId : UserId} :
    userId ∈ d.house.members ↔ (d.users.get userId).isSome = true := by
  simp only [house, Finset.mem_filter, Finset.mem_range, and_iff_right_iff_imp]
  intro hSome
  obtain ⟨user, hUser⟩ := Option.isSome_iff_exists.mp hSome
  exact Table.lt_serial hUser

theorem available_some {d : Db} {userId : UserId} {user : User}
    (h : d.users.get userId = some user) :
    d.available userId = user.balance - d.reserved userId := by
  rw [available, h]

theorem entryOf_some {d : Db} {auctionId : LotId} {row : Auction}
    (h : d.auctions.get auctionId = some row) :
    d.entryOf auctionId = some (row.entry (d.lastBid auctionId)) := by
  rw [entryOf, h, Option.map_some]

theorem entryOf_none {d : Db} {auctionId : LotId} (h : d.auctions.get auctionId = none) :
    d.entryOf auctionId = none := by
  rw [entryOf, h, Option.map_none]

end Db

namespace Auction

/-- An active auction is on sale, led by its last bidder. -/
theorem entry_active {row : Auction} (h : row.isActive = true) (lastBid : Option Bid) :
    (row.entry lastBid).status = .onSale (lastBid.map Bid.userId) := by
  simp [entry, h]

/-- An auction for bids alone has no fixed price. -/
theorem entry_fixed {row : Auction} (h : row.auctionType = .bid) (lastBid : Option Bid) :
    (row.entry lastBid).fixed = none := by
  simp [entry, h]

end Auction

namespace Db

variable {d d' : Db}

/-- The entry of a lot is read off its row and its bids. -/
theorem entryOf_congr {auctionId : LotId}
    (hRow : d'.auctions.get auctionId = d.auctions.get auctionId)
    (hBids : d'.bidsOn auctionId = d.bidsOn auctionId) :
    d'.entryOf auctionId = d.entryOf auctionId := by
  simp only [entryOf, hRow, lastBid_congr hBids]

/-- What a lot takes from what its leader may spend is what the house has set aside. -/
theorem reservedOn_eq_refund {auctionId : LotId} {row : Auction}
    (hRow : d.auctions.get auctionId = some row) (userId : UserId) :
    d.reservedOn userId auctionId = (row.entry (d.lastBid auctionId)).refund userId := by
  by_cases hActive : row.isActive = true
  · cases hLast : d.lastBid auctionId with
    | none =>
        rw [reservedOn_follower (by simp [hLast])]
        simp [Escrow.Lot.refund, Auction.entry, hActive]
    | some bid =>
        have hStatus : (row.entry (some bid)).status = .onSale (some bid.userId) := by
          simp [Auction.entry, hActive]
        rw [Escrow.Lot.refund_apply hStatus]
        split_ifs with hLeads
        · rw [← hLeads, reservedOn_leader hRow hActive hLast]
          rfl
        · exact reservedOn_follower (by simp [hLast, hLeads])
  · have hInactive : row.isActive = false := by simpa using hActive
    rw [reservedOn_inactive hRow hInactive]
    cases hWinner : row.winnerId <;> simp [Escrow.Lot.refund, Auction.entry, hInactive, hWinner]

/-- The money reserved changes by what the one lot that changes contributes. -/
theorem reserved_of_lot (key : LotId)
    (hAuctions : ∀ id, id ≠ key → d'.auctions.get id = d.auctions.get id)
    (hBids : ∀ id, id ≠ key → d'.bidsOn id = d.bidsOn id) (userId : UserId) :
    d'.reserved userId =
      d.reserved userId - d.reservedOn userId key + d'.reservedOn userId key := by
  set n := max (key + 1) (max d'.auctions.serial d.auctions.serial)
  have hMem : key ∈ Finset.range n :=
    Finset.mem_range.mpr (Nat.lt_of_lt_of_le (Nat.lt_succ_self key) (le_max_left _ _))
  have hLe' : d'.auctions.serial ≤ n := (le_max_left _ _).trans (le_max_right _ _)
  have hLe : d.auctions.serial ≤ n := (le_max_right _ _).trans (le_max_right _ _)
  rw [reserved_eq_sum hLe', reserved_eq_sum hLe, ← Finset.add_sum_erase _ _ hMem,
    ← Finset.add_sum_erase _ _ hMem]
  have hRest : ∑ auctionId ∈ (Finset.range n).erase key, d'.reservedOn userId auctionId =
      ∑ auctionId ∈ (Finset.range n).erase key, d.reservedOn userId auctionId := by
    apply Finset.sum_congr rfl
    intro id hId
    have hNe := Finset.ne_of_mem_erase hId
    exact reservedOn_congr (hAuctions id hNe) (hBids id hNe) userId
  rw [hRest]
  ring

/-- The same lots and bids. -/
theorem house_lots_congr (hAuctions : d'.auctions = d.auctions) (hBids : d'.bids = d.bids) :
    d'.house.lots = d.house.lots ∧ d'.house.escrow = d.house.escrow := by
  have hEntry (id : LotId) : d'.entryOf id = d.entryOf id :=
    entryOf_congr (by rw [hAuctions]) (bidsOn_congr hBids id)
  refine ⟨funext hEntry, Finsupp.ext fun id => ?_⟩
  rw [house_escrow, house_escrow, stakeOn, stakeOn, hEntry]

/-- One lot has been inserted or changed. -/
theorem house_lots_put {key : LotId} {new : Auction} (hNew : d'.auctions.get key = some new)
    (hAuctions : ∀ id, id ≠ key → d'.auctions.get id = d.auctions.get id)
    (hBids : ∀ id, id ≠ key → d'.bidsOn id = d.bidsOn id) :
    d'.house.lots = (d.house.put key (new.entry (d'.lastBid key))).lots ∧
      d'.house.escrow = (d.house.put key (new.entry (d'.lastBid key))).escrow := by
  constructor
  · funext id
    by_cases hId : id = key
    · subst hId
      simp [Escrow.House.put, entryOf_some hNew]
    · simp [Escrow.House.put, hId, entryOf_congr (hAuctions id hId) (hBids id hId)]
  · ext id
    by_cases hId : id = key
    · subst hId
      simp [Escrow.House.put, stakeOn, entryOf_some hNew]
    · simp [Escrow.House.put, hId, stakeOn, entryOf_congr (hAuctions id hId) (hBids id hId)]

/-- A lot without bids has been deleted. -/
theorem house_lots_drop {key : LotId} (hGone : d'.auctions.get key = none)
    (hAuctions : ∀ id, id ≠ key → d'.auctions.get id = d.auctions.get id)
    (hBids : d'.bids = d.bids) :
    d'.house.lots = (d.house.drop key).lots ∧ d'.house.escrow = (d.house.drop key).escrow := by
  constructor
  · funext id
    by_cases hId : id = key
    · subst hId
      simp [Escrow.House.drop, entryOf_none hGone]
    · simp [Escrow.House.drop, hId, entryOf_congr (hAuctions id hId) (bidsOn_congr hBids id)]
  · ext id
    by_cases hId : id = key
    · subst hId
      simp [Escrow.House.drop, stakeOn, entryOf_none hGone]
    · simp [Escrow.House.drop, hId, stakeOn,
        entryOf_congr (hAuctions id hId) (bidsOn_congr hBids id)]

theorem house_members_congr (h : ∀ id, (d'.users.get id).isSome = (d.users.get id).isSome) :
    d'.house.members = d.house.members := by
  ext id
  rw [mem_members, mem_members, h]

/-- The available money of everybody, when nothing was and nothing is reserved on the
lot that has changed. -/
theorem available_idle {key : LotId} (hUsers : d'.users = d.users)
    (hAuctions : ∀ id, id ≠ key → d'.auctions.get id = d.auctions.get id)
    (hBids : ∀ id, id ≠ key → d'.bidsOn id = d.bidsOn id)
    (hBefore : ∀ userId, d.reservedOn userId key = 0)
    (hAfter : ∀ userId, d'.reservedOn userId key = 0) (userId : UserId) :
    d'.available userId = d.available userId := by
  rw [available, available, hUsers, reserved_of_lot key hAuctions hBids, hBefore, hAfter, sub_zero,
    add_zero]

/-- The sums of the ledger are read off the transactions. -/
theorem sumOf_congr (h : d'.transactions = d.transactions) (type : TransactionType) :
    d'.sumOf type = d.sumOf type := by
  rw [sumOf, sumOf, h]

/-- The money that came in is read off the users and the transactions. -/
theorem inflow_congr (hUsers : d'.users = d.users) (hTransactions : d'.transactions = d.transactions) :
    d'.inflow = d.inflow := by
  rw [inflow, inflow, hUsers, sumOf_congr hTransactions, sumOf_congr hTransactions]

/-- A posting adds its amount to the sum of its type. -/
theorem sumOf_post {p : Posting} (h : (d.users.get p.userId).isSome) (type : TransactionType) :
    (d.post p).sumOf type = d.sumOf type + if p.type = type then |p.delta| else 0 := by
  obtain ⟨user, hUser⟩ := Option.isSome_iff_exists.mp h
  rw [sumOf, post_some hUser, List.filter_append, List.map_append, List.sum_append]
  by_cases hType : p.type = type
  · simp [sumOf, Posting.entry, hType]
  · simp [sumOf, Posting.entry, hType]

theorem total_post {p : Posting} (d : Db) :
    (d.post p).users.total (fun _ => 1) = d.users.total fun _ => 1 := by
  cases hUser : d.users.get p.userId with
  | none => rw [post_none hUser]
  | some user =>
      rw [post_some hUser]
      show (d.users.modify p.userId _).total _ = _
      rw [Table.total_modify hUser, sub_self, add_zero]

/-- Several postings add their amounts, each to the sum of its type. -/
theorem sumOf_postAll {postings : List Posting}
    (h : ∀ p ∈ postings, (d.users.get p.userId).isSome) (type : TransactionType) :
    (d.postAll postings).sumOf type = d.sumOf type +
      (postings.map fun p => if p.type = type then |p.delta| else 0).sum := by
  induction postings generalizing d with
  | nil => simp
  | cons p rest ih =>
      have hRest : ∀ q ∈ rest, ((d.post p).users.get q.userId).isSome := fun q hq =>
        (isSome_postAll d [p] q.userId).trans (h q (List.mem_cons_of_mem _ hq))
      rw [postAll_cons, ih hRest, sumOf_post (h p (by simp)), List.map_cons, List.sum_cons]
      ring

theorem total_postAll (d : Db) (postings : List Posting) :
    (d.postAll postings).users.total (fun _ => 1) = d.users.total fun _ => 1 :=
  postAll_same (fun e => e.users.total fun _ => 1) (fun e _ => total_post e) d postings

end Db

/-- What a sale moves: the price from the buyer, and the rest after the commission to
the seller. -/
theorem settlementOf_moves (percent : CommissionPercent) (payment : TransactionType)
    (buyer seller : UserId) {price : Money} (hFee : 0 ≤ sellerCommission percent price)
    (auctionId : LotId) (bought sold : String) (userId : UserId) :
    credited (settlementOf percent payment buyer seller price auctionId bought sold) userId =
      (if buyer = userId then -price else 0) +
        if seller = userId then price - sellerCommission percent price else 0 := by
  unfold credited settlementOf saleOf
  rcases hFee.lt_or_eq with hSome | hNone
  · rw [if_pos hSome]
    by_cases hBuyer : buyer = userId <;> by_cases hSeller : seller = userId <;>
      simp [hBuyer, hSeller] <;> ring
  · rw [if_neg hNone.not_lt, ← hNone]
    by_cases hBuyer : buyer = userId <;> by_cases hSeller : seller = userId <;>
      simp [hBuyer, hSeller]

/-- What a sale adds to the ledger rows of a type that is not the buyer's payment nor
the seller's credit. -/
theorem settlementOf_adds (percent : CommissionPercent) {payment type : TransactionType}
    (hPayment : payment ≠ type) (hSale : type ≠ .auctionSale) (buyer seller : UserId) {price : Money}
    (hFee : 0 ≤ sellerCommission percent price) (auctionId : LotId) (bought sold : String) :
    ((settlementOf percent payment buyer seller price auctionId bought sold).map fun p =>
      if p.type = type then |p.delta| else 0).sum =
        if type = .commission then sellerCommission percent price else 0 := by
  unfold settlementOf saleOf
  rcases hFee.lt_or_eq with hSome | hNone
  · rw [if_pos hSome]
    by_cases hType : type = .commission
    · subst hType
      simp [hPayment, abs_of_pos hSome]
    · simp [hPayment, hSale.symm, hType, Ne.symm hType]
  · rw [if_neg hNone.not_lt, ← hNone]
    simp [hPayment, hSale.symm]

namespace Db

variable {d d' : Db}

/-- The books after a sale: what everybody may spend, the fees and the money that came in. -/
theorem house_sale (percent : CommissionPercent) {payment : TransactionType} {buyer seller : UserId}
    {price : Money} (hPayment : payment = .bidWin ∨ payment = .binPurchase)
    (hBuyer : (d.users.get buyer).isSome) (hSeller : (d.users.get seller).isSome)
    (hFee : 0 ≤ sellerCommission percent price) (auctionId : LotId) (bought sold : String) :
    let sale := settlementOf percent payment buyer seller price auctionId bought sold
    (∀ userId, (d.postAll sale).available userId = d.available userId +
      ((if buyer = userId then -price else 0) +
        if seller = userId then price - sellerCommission percent price else 0)) ∧
    (d.postAll sale).sumOf .commission = d.sumOf .commission + sellerCommission percent price ∧
    (d.postAll sale).inflow = d.inflow := by
  intro sale
  have hUsers : ∀ p ∈ sale, (d.users.get p.userId).isSome := by
    intro p hp
    rcases settlementOf_users hp with hUser | hUser
    · rwa [hUser]
    · rwa [hUser]
  have hAdds (type : TransactionType) (hOther : payment ≠ type) (hSale : type ≠ .auctionSale) :
      (d.postAll sale).sumOf type =
        d.sumOf type + if type = .commission then sellerCommission percent price else 0 := by
    rw [sumOf_postAll hUsers, settlementOf_adds percent hOther hSale buyer seller hFee]
  refine ⟨fun userId => ?_, ?_, ?_⟩
  · cases hUser : d.users.get userId with
    | none =>
        have hNeither : buyer ≠ userId ∧ seller ≠ userId := by
          constructor
          · rintro rfl
            simp [hUser] at hBuyer
          · rintro rfl
            simp [hUser] at hSeller
        rw [available, available, get_postAll, hUser, if_neg hNeither.1, if_neg hNeither.2]
        rfl
    | some user =>
        have hAfter : (d.postAll sale).users.get userId =
            some { user with balance := user.balance + credited sale userId } := by
          rw [get_postAll, hUser, Option.map_some]
        rw [available_some hAfter, available_some hUser, Solvent.reserved_postAll,
          settlementOf_moves percent payment buyer seller hFee]
        ring
  · exact hAdds .commission (by rcases hPayment with rfl | rfl <;> decide) (by decide)
  · rw [inflow, inflow, total_postAll,
      hAdds .deposit (by rcases hPayment with rfl | rfl <;> decide) (by decide),
      hAdds .withdrawal (by rcases hPayment with rfl | rfl <;> decide) (by decide)]
    simp

end Db

end OnlineAuction
