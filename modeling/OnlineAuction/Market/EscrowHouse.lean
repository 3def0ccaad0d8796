import OnlineAuction.Market.BidHistory
import OnlineAuction.Market.Books
import OnlineAuction.Market.FrozenLots

/-! The marketplace as a house with escrow. No handler moves money at a bid: what
a bidder may still spend is worked out from the bids on the active lots, each time
it is asked for. Seen from outside this is a house that sets the bids aside. -/

namespace OnlineAuction

open RowLocks

variable {percent : CommissionPercent} {A : Assumptions} {request : Request}

/-- Nothing is reserved for a number that is no user's. -/
theorem WellFormed.reserved_nobody {d : Db} (hWell : WellFormed A d) {userId : UserId}
    (h : d.users.get userId = none) : d.reserved userId = 0 := by
  refine Finset.sum_eq_zero fun auctionId _ => Db.reservedOn_follower fun hLeads => ?_
  obtain ⟨bid, hLast, hUser⟩ := Option.map_eq_some_iff.mp hLeads
  have hExists := (hWell.bidRows bid (Db.lastBid_mem hLast).1).1
  rw [hUser, h] at hExists
  cases hExists

namespace Db

variable {d : Db}

theorem house_register (hWell : WellFormed A d) (fee : Money → Money) :
    Escrow.Step openingBalance fee d.house d.addUser.house := by
  have hNew : d.users.serial ∉ d.house.members := by
    rw [mem_members, d.users.unused _ le_rfl]
    exact nofun
  have hReserved (userId : UserId) : d.addUser.reserved userId = d.reserved userId := rfl
  have hHouse : d.addUser.house = { d.house with
      members := insert d.users.serial d.house.members
      purse := d.house.purse + Finsupp.single d.users.serial openingBalance
      inflow := d.house.inflow + openingBalance } := by
    apply Escrow.House.ext
    · ext id
      rw [Finset.mem_insert, mem_members, mem_members]
      by_cases hId : id = d.users.serial <;> simp [addUser, hId]
    · ext id
      show d.addUser.available id = d.available id + Finsupp.single d.users.serial openingBalance id
      by_cases hId : id = d.users.serial
      · subst hId
        have hFresh : d.addUser.users.get d.users.serial = some ⟨d.users.serial, openingBalance⟩ := by
          simp [addUser]
        rw [available_some hFresh, hReserved, hWell.reserved_nobody (d.users.unused _ le_rfl),
          available, d.users.unused _ le_rfl, Finsupp.single_eq_same]
        ring
      · rw [Finsupp.single_eq_of_ne hId, add_zero, available, available, hReserved]
        simp [addUser, hId]
    · exact (house_lots_congr rfl rfl).2
    · exact (house_lots_congr rfl rfl).1
    · rfl
    · show openingBalance * (d.users.add fun id => ⟨id, openingBalance⟩).total (fun _ => 1) +
        d.sumOf .deposit - d.sumOf .withdrawal = d.inflow + openingBalance
      rw [Table.total_add, inflow]
      ring
  rw [hHouse]
  exact .join _ hNew

/-- What a posting to one user does to what everybody may spend. -/
theorem available_post {p : Posting} (h : (d.users.get p.userId).isSome) (userId : UserId) :
    (d.post p).available userId = d.available userId + Finsupp.single p.userId p.delta userId := by
  have hReserved : (d.post p).reserved userId = d.reserved userId :=
    Solvent.reserved_postAll d [p] userId
  by_cases hId : userId = p.userId
  · subst hId
    obtain ⟨user, hUser⟩ := Option.isSome_iff_exists.mp h
    rw [available_some (get_post_self hUser), available_some hUser, hReserved,
      Finsupp.single_eq_same]
    ring
  · rw [Finsupp.single_eq_of_ne hId, add_zero, available, available, get_post_other d hId, hReserved]

/-- The books after a posting to one user that is neither a fee nor part of a sale. -/
theorem house_post {p : Posting} (h : (d.users.get p.userId).isSome)
    (hType : p.type = .deposit ∨ p.type = .withdrawal) :
    (d.post p).house = { d.house with
      purse := d.house.purse + Finsupp.single p.userId p.delta
      inflow := d.house.inflow + p.type.flow |p.delta| } := by
  apply Escrow.House.ext
  · exact house_members_congr fun id => isSome_postAll d [p] id
  · ext id
    exact available_post h id
  · exact (house_lots_congr (post_auctions d p) (post_bids d p)).2
  · exact (house_lots_congr (post_auctions d p) (post_bids d p)).1
  · show (d.post p).sumOf .commission = d.sumOf .commission
    rw [sumOf_post h, if_neg, add_zero]
    rcases hType with hType | hType <;> simp [hType]
  · show (d.post p).inflow = d.inflow + p.type.flow |p.delta|
    rw [inflow, inflow, total_post, sumOf_post h, sumOf_post h]
    rcases hType with hType | hType
    · simp only [hType, reduceCtorEq, if_true, if_false, TransactionType.flow]
      ring
    · simp only [hType, reduceCtorEq, if_true, if_false, TransactionType.flow]
      ring

theorem house_deposit {userId : UserId} (hUser : (d.users.get userId).isSome) {amount : Money}
    (hPos : 0 < amount) (description : String) (fee : Money → Money) :
    Escrow.Step openingBalance fee d.house
      (d.post ⟨userId, amount, .deposit, description, none⟩).house := by
  rw [house_post (p := ⟨userId, amount, .deposit, description, none⟩) hUser (.inl rfl)]
  simp only [TransactionType.flow, abs_of_pos hPos]
  exact .deposit userId amount (mem_members.mpr hUser) hPos

/-- A withdrawal that spares the reserved money is one in the house. -/
theorem house_withdraw {userId : UserId} {user : User} (hUser : d.users.get userId = some user)
    {amount : Money} (hPos : 0 < amount) (hFunds : d.reserved userId + amount ≤ user.balance)
    (description : String) (fee : Money → Money) :
    Escrow.Step openingBalance fee d.house
      (d.post ⟨userId, -amount, .withdrawal, description, none⟩).house := by
  have hSome : (d.users.get userId).isSome := by simp [hUser]
  rw [house_post (p := ⟨userId, -amount, .withdrawal, description, none⟩) hSome (.inr rfl)]
  simp only [TransactionType.flow, abs_neg, abs_of_pos hPos, Finsupp.single_neg, ← sub_eq_add_neg]
  refine .withdraw userId amount (mem_members.mpr hSome) hPos ?_
  rw [house_purse, available_some hUser]
  linarith

/-- The books after a lot on which nothing is reserved has been inserted or changed. -/
theorem house_put {d' : Db} {key : LotId} {new : Auction} (hNew : d'.auctions.get key = some new)
    (hAuctions : ∀ id, id ≠ key → d'.auctions.get id = d.auctions.get id)
    (hBids : d'.bids = d.bids) (hUsers : d'.users = d.users)
    (hTransactions : d'.transactions = d.transactions)
    (hBefore : ∀ userId, d.reservedOn userId key = 0)
    (hAfter : ∀ userId, d'.reservedOn userId key = 0) :
    d'.house = d.house.put key (new.entry (d.lastBid key)) := by
  have hSame (id : LotId) : d'.bidsOn id = d.bidsOn id := bidsOn_congr hBids id
  have hLots := house_lots_put hNew hAuctions fun id _ => hSame id
  rw [lastBid_congr (hSame key)] at hLots
  apply Escrow.House.ext
  · exact house_members_congr fun id => by rw [hUsers]
  · ext id
    exact available_idle hUsers hAuctions (fun id _ => hSame id) hBefore hAfter id
  · exact hLots.2
  · exact hLots.1
  · exact sumOf_congr hTransactions _
  · exact inflow_congr hUsers hTransactions

theorem house_create (hWell : WellFormed A d) {row : LotId → Auction}
    (hOpened : Opened d d.auctions.serial (row d.auctions.serial)) (fee : Money → Money) :
    Escrow.Step openingBalance fee d.house (d.addAuction row).house := by
  have hNone : d.bidsOn d.auctions.serial = [] := hWell.bidsOn_serial
  have hNew : (d.addAuction row).auctions.get d.auctions.serial =
      some (row d.auctions.serial) := by simp [addAuction]
  have hHouse : (d.addAuction row).house = d.house.put d.auctions.serial
      ((row d.auctions.serial).entry (d.lastBid d.auctions.serial)) :=
    house_put hNew (fun id hId => by simp [addAuction, hId]) rfl rfl rfl
      (fun userId => reservedOn_noBids hNone userId)
      fun userId => reservedOn_noBids (d := d.addAuction row) hNone userId
  rw [hHouse]
  have hFree : d.house.lots d.auctions.serial = none := entryOf_none (d.auctions.unused _ le_rfl)
  refine .list _ _ hFree (mem_members.mpr hOpened.creator) hOpened.positive ?_
  rw [Auction.entry_active hOpened.active.1, lastBid_eq_none.mpr hNone, Option.map_none]

/-- Editing an auction that nobody bid on is listing it anew. -/
theorem house_revise {auctionId : LotId} {old new : Auction}
    (hRow : d.auctions.get auctionId = some old) (hNoBids : d.bidsOn auctionId = [])
    (hActive : old.isActive = true) (hRevised : Revised old new) (images : List AuctionImage)
    (fee : Money → Money) :
    Escrow.Step openingBalance fee d.house
      ({ d.setAuction auctionId new with images := images } : Db).house := by
  have hLast : d.lastBid auctionId = none := lastBid_eq_none.mpr hNoBids
  have hHouse : ({ d.setAuction auctionId new with images := images } : Db).house =
      d.house.put auctionId (new.entry (d.lastBid auctionId)) :=
    house_put (get_setAuction_self hRow new) (fun id hId => get_setAuction_other d new hId) rfl rfl rfl
      (fun userId => reservedOn_noBids hNoBids userId)
      fun userId => reservedOn_noBids
        (d := { d.setAuction auctionId new with images := images }) hNoBids userId
  rw [hHouse]
  refine .revise auctionId _ _ (entryOf_some hRow) ?_ ?_ hRevised.createdBy hRevised.positive
  · rw [Auction.entry_active hActive, hLast, Option.map_none]
  · rw [Auction.entry_active (hRevised.state.1.trans hActive), hLast, Option.map_none]

/-- Deleting an auction that nobody bid on takes it off the list. -/
theorem house_remove {auctionId : LotId} {row : Auction}
    (hRow : d.auctions.get auctionId = some row) (hNoBids : d.bidsOn auctionId = [])
    (hActive : row.isActive = true) (fee : Money → Money) :
    Escrow.Step openingBalance fee d.house (d.deleteAuction auctionId).house := by
  have hOthers : ∀ id, id ≠ auctionId →
      (d.deleteAuction auctionId).auctions.get id = d.auctions.get id :=
    fun id hId => by simp [deleteAuction, hId]
  have hGone : (d.deleteAuction auctionId).auctions.get auctionId = none := by simp [deleteAuction]
  have hSum (type : TransactionType) : (d.deleteAuction auctionId).sumOf type = d.sumOf type := by
    simp [sumOf, deleteAuction, List.filter_map, Function.comp_def]
  have hHouse : (d.deleteAuction auctionId).house = d.house.drop auctionId := by
    apply Escrow.House.ext
    · exact house_members_congr fun id => rfl
    · have hUsers : (d.deleteAuction auctionId).users = d.users := rfl
      ext id
      exact available_idle hUsers hOthers (fun id _ => bidsOn_congr rfl id)
        (fun userId => reservedOn_noBids hNoBids userId)
        (fun userId => reservedOn_none hGone userId) id
    · exact (house_lots_drop hGone hOthers rfl).2
    · exact (house_lots_drop hGone hOthers rfl).1
    · exact hSum _
    · show (d.deleteAuction auctionId).inflow = d.inflow
      rw [inflow, inflow, hSum, hSum]
      rfl
  rw [hHouse]
  refine .remove auctionId _ (entryOf_some hRow) ?_
  rw [Auction.entry_active hActive, lastBid_eq_none.mpr hNoBids, Option.map_none]

/-- Placing a bid moves the escrow of the lot from the last bidder to the new
one. -/
theorem house_bid {d' : Db} {auctionId : LotId} {old : Auction} {userId : UserId} {user : User}
    {amount : Money} (now t : Time) (hWell : WellFormed A d) (hNext : WellFormed A d')
    (hClock : A.clockMonotone)
    (hAfter : d' = (d.setAuction auctionId (acceptBid old amount now).1).addBid amount t userId
      auctionId)
    (hRow : d.auctions.get auctionId = some old) (hUser : d.users.get userId = some user)
    (hActive : old.isActive = true) (hType : old.auctionType = .bid)
    (hOwn : old.createdBy ≠ userId) (hHigher : old.currentPrice < amount)
    (hTurn : (d.lastBid auctionId).map Bid.userId ≠ some userId)
    (hFunds : d.reserved userId + amount ≤ user.balance) (fee : Money → Money) :
    Escrow.Step openingBalance fee d.house d'.house := by
  obtain ⟨_, hCreator, hPrice, _, hStillActive, _, _, hStillType, _⟩ :=
    acceptBid_fields old amount now
  have hLast : d'.lastBid auctionId = some ⟨d.bidSerial, amount, t, userId, auctionId⟩ := by
    subst hAfter
    exact hNext.lastBid_addBid hClock
  subst hAfter
  set new := (acceptBid old amount now).1
  set next := (d.setAuction auctionId new).addBid amount t userId auctionId
  have hNew : next.auctions.get auctionId = some new := get_setAuction_self hRow new
  have hAuctions : ∀ id, id ≠ auctionId → next.auctions.get id = d.auctions.get id :=
    fun id hId => get_setAuction_other d new hId
  have hBids : ∀ id, id ≠ auctionId → next.bidsOn id = d.bidsOn id :=
    fun id hId => bidsOn_addBid_other (d.setAuction auctionId new) amount t userId hId
  have hEntry : new.entry (next.lastBid auctionId) =
      { old.entry (d.lastBid auctionId) with price := amount, status := .onSale (some userId) } := by
    simp only [Auction.entry, hLast, hCreator, hPrice, hStillActive, hActive, hStillType, hType]
    rfl
  have hLots := house_lots_put hNew hAuctions hBids
  rw [hEntry] at hLots
  have hHouse : next.house = { d.house.put auctionId
      { old.entry (d.lastBid auctionId) with price := amount, status := .onSale (some userId) } with
      purse := d.house.purse + (old.entry (d.lastBid auctionId)).refund -
        Finsupp.single userId amount } := by
    apply Escrow.House.ext
    · exact house_members_congr fun id => rfl
    · ext id
      have hReserved := reserved_of_lot auctionId hAuctions hBids id
      rw [reservedOn_eq_refund hRow, reservedOn_eq_refund hNew, hEntry] at hReserved
      have hStaked : Escrow.Lot.refund { old.entry (d.lastBid auctionId) with
          price := amount, status := .onSale (some userId) } id =
            Finsupp.single userId amount id := rfl
      show next.available id = d.available id + (old.entry (d.lastBid auctionId)).refund id -
        Finsupp.single userId amount id
      cases hRowOf : d.users.get id with
      | none =>
          have hOther : id ≠ userId := by
            rintro rfl
            simp [hUser] at hRowOf
          have hNobody : next.reserved id = 0 := hNext.reserved_nobody hRowOf
          rw [hNobody, hWell.reserved_nobody hRowOf, hStaked, Finsupp.single_eq_of_ne hOther]
            at hReserved
          have hNone : next.users.get id = none := hRowOf
          rw [available, available, hNone, hRowOf, Finsupp.single_eq_of_ne hOther]
          linarith
      | some row =>
          have hSame : next.users.get id = some row := hRowOf
          rw [available_some hSame, available_some hRowOf, hReserved, hStaked]
          ring
    · exact hLots.2
    · exact hLots.1
    · rfl
    · rfl
  rw [hHouse]
  refine .bid auctionId _ userId ((d.lastBid auctionId).map Bid.userId) amount (entryOf_some hRow)
    (Auction.entry_active hActive _) (Auction.entry_fixed hType _) (mem_members.mpr (by simp [hUser]))
    (Ne.symm hOwn) hTurn hHigher ?_
  rw [house_purse, available_some hUser]
  linarith

/-- The books after a lot has been sold: whatever the buyer had set aside is paid. -/
theorem house_sold (percent : CommissionPercent) (payment : TransactionType) (new : Auction)
    (bought sold : String) (purse : UserId →₀ Money) {auctionId : LotId} {old : Auction}
    {buyer : UserId} {price : Money} (hPayment : payment = .bidWin ∨ payment = .binPurchase)
    (hRow : d.auctions.get auctionId = some old) (hBuyer : (d.users.get buyer).isSome)
    (hSeller : (d.users.get old.createdBy).isSome) (hFee : 0 ≤ sellerCommission percent price)
    (hEntry : new.entry (d.lastBid auctionId) =
      { old.entry (d.lastBid auctionId) with price := price, status := .sold buyer })
    (hPurse : ∀ userId, (d.setAuction auctionId new).available userId +
        (if buyer = userId then -price else 0) = purse userId) :
    ((d.setAuction auctionId new).postAll (settlementOf percent payment buyer old.createdBy price
      auctionId bought sold)).house =
    { d.house.put auctionId
        { old.entry (d.lastBid auctionId) with price := price, status := .sold buyer } with
      purse := purse + Finsupp.single old.createdBy (price - sellerCommission percent price)
      treasury := d.house.treasury + sellerCommission percent price } := by
  have hLots := house_lots_put (d := d) (get_setAuction_self hRow new)
    (fun id hId => get_setAuction_other d new hId) fun id _ => bidsOn_congr rfl id
  have hLast : (d.setAuction auctionId new).lastBid auctionId = d.lastBid auctionId := rfl
  rw [hLast, hEntry] at hLots
  set next := d.setAuction auctionId new
  set sale := settlementOf percent payment buyer old.createdBy price auctionId bought sold
  obtain ⟨hAvailable, hFees, hInflow⟩ := house_sale (d := next) percent hPayment hBuyer hSeller
    hFee auctionId bought sold
  have hSameLots := house_lots_congr (postAll_auctions next sale) (postAll_bids next sale)
  apply Escrow.House.ext
  · exact house_members_congr fun id => isSome_postAll next sale id
  · ext id
    show (next.postAll sale).available id = purse id +
      Finsupp.single old.createdBy (price - sellerCommission percent price) id
    rw [hAvailable, ← hPurse, Finsupp.single_apply]
    ring
  · exact hSameLots.2.trans hLots.2
  · exact hSameLots.1.trans hLots.1
  · exact hFees
  · exact hInflow

/-- Buying at the fixed price is a purchase in the house, less the commission. -/
theorem house_purchase {auctionId : LotId} {old : Auction} {buyer : UserId} {user : User}
    {price : Money} (now : Time) (bought sold : String) (hWell : WellFormed A d)
    (hHistory : HistoryKept d) (hRow : d.auctions.get auctionId = some old)
    (hUser : d.users.get buyer = some user) (hActive : old.isActive = true)
    (hType : old.auctionType = .bin) (hPrice : old.binPrice = some price)
    (hOwn : old.createdBy ≠ buyer) (hFunds : d.reserved buyer + price ≤ user.balance) :
    Escrow.Step openingBalance (sellerCommission percent) d.house
      ((d.setAuction auctionId (soldTo old price buyer now)).postAll (settlementOf percent
        .binPurchase buyer old.createdBy price auctionId bought sold)).house := by
  obtain ⟨hPos, hMax⟩ := hWell.binPrices _ _ price hRow hPrice
  have hFee := sellerCommission_bounds percent hPos.le (hMax.trans_lt (by decide))
  have hNoBids : d.bidsOn auctionId = [] := by
    by_contra hBids
    have hBid := (hHistory.histories _ _ hRow).type hBids
    rw [hType] at hBid
    cases hBid
  have hUsers : (d.setAuction auctionId (soldTo old price buyer now)).users = d.users := rfl
  have hSame := available_idle hUsers (fun id hId => get_setAuction_other d _ hId)
    (fun id _ => bidsOn_congr rfl id) (fun userId => reservedOn_noBids hNoBids userId)
    fun userId => reservedOn_noBids
      (d := d.setAuction auctionId (soldTo old price buyer now)) hNoBids userId
  have hSold := house_sold percent .binPurchase (soldTo old price buyer now) bought sold
    (d.house.purse - Finsupp.single buyer price) (.inr rfl) hRow (by simp [hUser])
    (hWell.creators _ _ hRow) hFee.1 rfl fun userId => by
      rw [hSame, Finsupp.sub_apply, house_purse, Finsupp.single_apply]
      split_ifs <;> ring
  rw [hSold]
  refine .buy auctionId _ buyer price (entryOf_some hRow) ?_ ?_ (mem_members.mpr (by simp [hUser]))
    (Ne.symm hOwn) hPos ?_ hFee
  · rw [Auction.entry_active hActive, lastBid_eq_none.mpr hNoBids, Option.map_none]
  · simp [Auction.entry, hType, hPrice]
  · rw [house_purse, available_some hUser]
    linarith

/-- Completing a sold auction pays its escrow out, less the commission. -/
theorem house_settle {auctionId : LotId} {old new : Auction} {lastBid : Bid} (bought sold : String)
    (settlement : Settlement) (hWell : WellFormed A d) (hClock : A.clockMonotone)
    (hHistory : HistoryKept d) (hRow : d.auctions.get auctionId = some old)
    (hLast : d.lastBid auctionId = some lastBid) (hActive : old.isActive = true)
    (hClosed : Closed old new (some lastBid.userId)) :
    Escrow.Step openingBalance (sellerCommission percent) d.house
      (((d.setAuction auctionId new).postAll (settlementOf percent .bidWin lastBid.userId
        old.createdBy lastBid.amount auctionId bought sold)).recordSettlement settlement).house := by
  obtain ⟨hWinner, _, hPos, hMax⟩ := hWell.bidRows lastBid (lastBid_mem hLast).1
  have hFee := sellerCommission_bounds percent hPos.le (hMax.trans_lt (by decide))
  have hPrice : lastBid.amount = old.currentPrice :=
    (hHistory.histories _ _ hRow).last lastBid (hWell.lastBid_eq hClock auctionId ▸ hLast)
  have hEntry : new.entry (d.lastBid auctionId) =
      { old.entry (d.lastBid auctionId) with
        price := lastBid.amount, status := .sold lastBid.userId } := by
    simp only [Auction.entry, hClosed.createdBy, hClosed.currentPrice, hClosed.auctionType,
      hClosed.binPrice, hClosed.inactive, hClosed.winner, hPrice]
    rfl
  have hPurse (userId : UserId) : (d.setAuction auctionId new).available userId +
      (if lastBid.userId = userId then -lastBid.amount else 0) = d.house.purse userId := by
    have hReserved : (d.setAuction auctionId new).reserved userId = _ :=
      reserved_of_lot auctionId (fun id hId => get_setAuction_other d new hId)
        (fun id _ => bidsOn_congr rfl id) userId
    rw [reservedOn_inactive (get_setAuction_self hRow new) hClosed.inactive, add_zero] at hReserved
    cases hUser : d.users.get userId with
    | none =>
        have hOther : lastBid.userId ≠ userId := by
          rintro rfl
          simp [hUser] at hWinner
        have hNone : (d.setAuction auctionId new).users.get userId = none := hUser
        rw [house_purse, available, available, hNone, hUser, if_neg hOther, add_zero]
    | some user =>
        have hSame : (d.setAuction auctionId new).users.get userId = some user := hUser
        rw [house_purse, available_some hSame, available_some hUser, hReserved]
        split_ifs with hLeads
        · rw [← hLeads, reservedOn_leader hRow hActive hLast, hPrice]
          ring
        · have hFollows : d.reservedOn userId auctionId = 0 :=
            reservedOn_follower (by simp [hLast, hLeads])
          rw [hFollows]
          ring
  have hSold := house_sold percent .bidWin new bought sold d.house.purse (.inl rfl) hRow hWinner (hWell.creators _ _ hRow) hFee.1 hEntry hPurse
  show Escrow.Step _ _ _ ((d.setAuction auctionId new).postAll _).house
  rw [hSold]
  have hStatus : (old.entry (d.lastBid auctionId)).status = .onSale (some lastBid.userId) := by
    rw [Auction.entry_active hActive, hLast, Option.map_some]
  rw [hPrice] at hFee ⊢
  exact .settle auctionId _ lastBid.userId (entryOf_some hRow) hStatus hFee

/-- Completing an auction that nobody bid on is at most a change of its status. -/
theorem house_close {auctionId : LotId} {old new : Auction} (settlement : Settlement)
    (hWell : WellFormed A d) (hRow : d.auctions.get auctionId = some old)
    (hNoBids : d.bidsOn auctionId = []) (hClosed : Closed old new old.winnerId)
    (fee : Money → Money) :
    ((d.setAuction auctionId new).recordSettlement settlement).house = d.house ∨
      Escrow.Step openingBalance fee d.house
        ((d.setAuction auctionId new).recordSettlement settlement).house := by
  have hHouse : ((d.setAuction auctionId new).recordSettlement settlement).house =
      d.house.put auctionId (new.entry (d.lastBid auctionId)) :=
    house_put (get_setAuction_self hRow new) (fun id hId => get_setAuction_other d new hId) rfl rfl rfl
      (fun userId => reservedOn_noBids hNoBids userId)
      fun userId => reservedOn_noBids
        (d := (d.setAuction auctionId new).recordSettlement settlement) hNoBids userId
  rw [hHouse]
  by_cases hActive : old.isActive = true
  · right
    have hEntry : new.entry (d.lastBid auctionId) =
        { old.entry (d.lastBid auctionId) with status := .unsold } := by
      simp only [Auction.entry, hClosed.createdBy, hClosed.currentPrice, hClosed.auctionType,
        hClosed.binPrice, hClosed.inactive, hClosed.winner, (hWell.undecided _ _ hRow hActive).2]
      rfl
    rw [hEntry]
    refine .expire auctionId _ (entryOf_some hRow) ?_
    rw [Auction.entry_active hActive, lastBid_eq_none.mpr hNoBids, Option.map_none]
  · left
    have hInactive : old.isActive = false := by simpa using hActive
    have hEntry : new.entry (d.lastBid auctionId) = old.entry (d.lastBid auctionId) := by
      simp only [Auction.entry, hClosed.createdBy, hClosed.currentPrice, hClosed.auctionType,
        hClosed.binPrice, hClosed.inactive, hClosed.winner, hInactive]
    rw [hEntry]
    apply Escrow.House.put_self (entryOf_some hRow)
    rw [house_escrow, stakeOn, entryOf_some hRow, Option.map_some, Option.getD_some]

end Db

/-- Every transaction is one operation of the house, or none. -/
theorem house_commit {held : Held market} {d d' : Db} (hClock : A.clockMonotone)
    (hOnce : A.settlesOnce) (hWell : WellFormed A d) (hHistory : HistoryKept d)
    (hStanding : Standing d) (hCommit : Commit percent A request held d d') :
    d'.house = d.house ∨
      Escrow.Step openingBalance (sellerCommission percent) d.house d'.house := by
  have hNext := hWell.commit hCommit
  cases hCommit with
  | idle => exact .inl rfl
  | observe => exact .inl rfl
  | illustrate => exact .inl rfl
  | register => exact .inr (Db.house_register hWell _)
  | deposit userId user amount description _ hUser hPos =>
      exact .inr (Db.house_deposit (by simp [hUser]) hPos description _)
  | withdraw userId user amount description _ hUser hPos hFunds =>
      exact .inr (Db.house_withdraw hUser hPos (hFunds hClock) description _)
  | create row hOpened => exact .inr (Db.house_create hWell hOpened _)
  | revise auctionId old new userId data _ _ hRow hNoBids hActive hRevised =>
      exact .inr (Db.house_revise hRow hNoBids hActive hRevised _ _)
  | remove auctionId row _ hRow hNoBids hCompleted =>
      have hActive : row.isActive = true := by
        have hStands : LotStands d auctionId (some row) := hRow ▸ hStanding auctionId
        have hDecided := hStands.decided.completed
        rw [hCompleted] at hDecided
        simpa using hDecided.symm
      exact .inr (Db.house_remove hRow hNoBids hActive _)
  | bid auctionId old userId user amount now t _ _ hRow hUser hActive hType hOwn hHigher _ hTurn
      hFunds =>
      exact .inr (Db.house_bid now t hWell hNext hClock rfl hRow hUser hActive hType hOwn hHigher
        hTurn (hFunds hClock) _)
  | purchase auctionId old buyer user price now bought sold _ _ _ _ hRow hUser hActive hType hPrice
      hOwn hFunds =>
      exact .inr (Db.house_purchase now bought sold hWell hHistory hRow hUser hActive hType hPrice
        hOwn (hFunds hClock))
  | close auctionId old new settlement _ hRow hNoBids hClosed =>
      exact Db.house_close settlement hWell hRow hNoBids hClosed _
  | settle auctionId old new lastBid seller bought sold settlement _ _ _ _ hRow hLast _ hOwner hClosed
      hActive =>
      subst hOwner
      exact .inr (Db.house_settle bought sold settlement hWell hClock hHistory hRow hLast
        (hActive hOnce) hClosed)

theorem house_initial (categories : List Nat) :
    (Db.initial categories).house = Escrow.House.empty := by
  apply Escrow.House.ext
  · rfl
  · ext id
    rfl
  · ext id
    rfl
  · rfl
  · rfl
  · rfl

/-- The conditions under which the latest bid by time is the bid made last, and no lot
is settled twice. -/
def OrderlyMarket : Guard market := fun d held e => ClockMonotone d held e ∧ SettlesOnce d held e

instance (d : Db) (held : Held market) (e : Event market) : Decidable (OrderlyMarket d held e) :=
  inferInstanceAs (Decidable (_ ∧ _))

/-- In every interleaving each action of a session changes the books of a house with
escrow by one operation of the house, or not at all. The marketplace never comes to
a state that such a house does not come to, and its books are in order. -/
theorem market_keeps_escrow {percent : CommissionPercent} {categories : List Nat}
    {c : Config market} (run : Reaches (handle percent) OrderlyMarket (Db.initial categories) c) :
    Escrow.Reachable openingBalance (sellerCommission percent) c.db.house ∧
    Escrow.Sound c.db.house ∧
    ∀ a c', advance (handle percent) c a = some c' → Meets OrderlyMarket c a →
      c'.db.house = c.db.house ∨
        Escrow.Step openingBalance (sellerCommission percent) c.db.house c'.db.house := by
  have hStep {c c' : Config market} (a : Action market Request)
      (run : Reaches (handle percent) OrderlyMarket (Db.initial categories) c)
      (hMoves : advance (handle percent) c a = some c') (hMeets : Meets OrderlyMarket c a) :
      c'.db.house = c.db.house ∨
        Escrow.Step openingBalance (sellerCommission percent) c.db.house c'.db.house := by
    have run' : Reaches (handle percent) (Assumptions.ok ⟨True, True, False⟩)
        (Db.initial categories) c := run.weaken fun _ _ _ h => ⟨fun _ => h.1, fun _ => h.2, nofun⟩
    have hWell := wellFormed_of_reaches run'
    have hKept : HistoryKept c.db ∧ Standing c.db :=
      invariant_of_commits (I := fun d => HistoryKept d ∧ Standing d)
        ⟨.of_initial categories, .initial categories⟩
        (fun hWell hKept hCommit => ⟨hKept.1.commit trivial hWell hCommit,
          fun id => (hKept.2 id).change (.of_commit hWell hCommit id)⟩) run'
    obtain ⟨requests, hValid⟩ := valid_of_reaches run'
    obtain ⟨-, hOutcome⟩ := hValid.advance (fun request _ _ => handle_safe request) hMoves
      fun sid e he => ⟨fun _ => (hMeets sid e he).1, fun _ => (hMeets sid e he).2, nofun⟩
    cases hOutcome with
    | quiet hDb => exact .inl (by rw [hDb])
    | observed _ _ hMay =>
        obtain ⟨request, hCommit⟩ := hMay
        exact house_commit trivial trivial hWell hKept.1 hKept.2 hCommit
    | updated _ _ hDoes => exact house_commit trivial trivial hWell hKept.1 hKept.2 hDoes
    | committed _ _ hDoes => exact house_commit trivial trivial hWell hKept.1 hKept.2 hDoes
  have hReachable : Escrow.Reachable openingBalance (sellerCommission percent) c.db.house := by
    have h := Runs.Reaches.refines (f := fun c : Config market => c.db.house) run hStep
    rwa [Config.initial, house_initial] at h
  exact ⟨hReachable, hReachable.sound (by decide), fun a c' => hStep a run⟩

/-- After the first sale: the price set aside has gone to the seller and the house. -/
theorem market_keeps_escrow_firstSale : ∃ c : Config market,
    c.db.users.get 0 = some ⟨0, 118600⟩ ∧
      Escrow.Reachable openingBalance (sellerCommission defaultCommission) c.db.house := by
  obtain ⟨c, run, hPaid⟩ := exists_reaches (handle defaultCommission) OrderlyMarket (Db.initial [])
    firstSale (fun c => c.db.users.get 0 = some ⟨0, 118600⟩) (by decide +kernel)
  exact ⟨c, hPaid, (market_keeps_escrow run).1⟩

end OnlineAuction
