import OnlineAuction.Market.FrozenLots

/-! The ceiling of the balances. Deposits are checked against it, the proceeds
of a sale are not: it holds as long as no sale pays a seller above it. -/

namespace OnlineAuction

open RowLocks

variable {percent : CommissionPercent} {A : Assumptions} {request : Request}

/-- No balance is above the ceiling, and every balance the ledger records fits
its column. -/
structure Ceiling (d : Db) : Prop where
  balances : ∀ userId row, d.users.get userId = some row → row.balance ≤ maxUserBalance
  ledger : ∀ tx ∈ d.transactions, tx.balanceAfter < numericLimit

/-- The lot that a request sells, and the price it would be sold at now. -/
def Db.saleFor (d : Db) : Request → Option (LotId × Money)
  | .buyNow _ auctionId =>
      ((d.auctions.get auctionId).bind Auction.binPrice).map fun price => (auctionId, price)
  | .tick auctionId => (d.lastBid auctionId).map fun bid => (auctionId, bid.amount)
  | .completeAuction auctionId => (d.lastBid auctionId).map fun bid => (auctionId, bid.amount)
  | _ => none

/-- The seller's balance has room for what the sale leaves after the commission. -/
def ProceedsFit (percent : CommissionPercent) (d : Db) (request : Request) : Prop :=
  ∀ sale ∈ d.saleFor request, ∀ row ∈ d.auctions.get sale.1, ∀ seller ∈ d.users.get row.createdBy,
    seller.balance + sale.2 - sellerCommission percent sale.2 ≤ maxUserBalance

instance (d : Db) : Decidable (ProceedsFit percent d request) := by
  unfold ProceedsFit
  infer_instance

structure Below (bound : UserId → Money) (d : Db) : Prop where
  balances : ∀ userId row, d.users.get userId = some row → row.balance ≤ bound userId
  ledger : ∀ tx ∈ d.transactions, tx.balanceAfter < numericLimit

/-- A posting whose result fits its column keeps the balances below their
bounds. -/
theorem Below.post {bound bound' : UserId → Money} {d : Db} (h : Below bound d) {p : Posting}
    (hFits : bound p.userId + p.delta < numericLimit)
    (hBound : ∀ userId, bound userId + (if userId = p.userId then p.delta else 0) ≤ bound' userId) :
    Below bound' (d.post p) := by
  have hOther (userId : UserId) (hId : userId ≠ p.userId) : bound userId ≤ bound' userId := by
    simpa [hId] using hBound userId
  cases hUser : d.users.get p.userId with
  | none =>
      rw [Db.post_none hUser]
      refine ⟨fun userId row hRow => ?_, h.ledger⟩
      have hId : userId ≠ p.userId := by
        rintro rfl
        rw [hUser] at hRow
        cases hRow
      exact (h.balances userId row hRow).trans (hOther userId hId)
  | some user =>
      have hOld := h.balances p.userId user hUser
      constructor
      · intro userId row hRow
        by_cases hId : userId = p.userId
        · subst hId
          rw [Db.get_post_self hUser, Option.some.injEq] at hRow
          rw [← hRow]
          have hNew := hBound p.userId
          rw [if_pos rfl] at hNew
          exact (add_le_add_left hOld p.delta).trans hNew
        · rw [Db.get_post_other d hId] at hRow
          exact (h.balances userId row hRow).trans (hOther userId hId)
      · intro tx hTx
        rw [Db.post_some hUser, List.mem_append, List.mem_singleton] at hTx
        rcases hTx with hOldTx | rfl
        · exact h.ledger tx hOldTx
        · exact (add_le_add_left hOld p.delta).trans_lt hFits

/-- The ceiling bounds the balance of every user. -/
theorem Ceiling.below {d : Db} (h : Ceiling d) : Below (fun _ => maxUserBalance) d :=
  ⟨h.balances, h.ledger⟩

theorem Ceiling.of_below {d : Db} (h : Below (fun _ => maxUserBalance) d) : Ceiling d :=
  ⟨h.balances, h.ledger⟩

/-- The ceiling is read off the users and the transactions. -/
theorem Ceiling.congr {d d' : Db} (h : Ceiling d) (hUsers : d'.users = d.users)
    (hTransactions : d'.transactions = d.transactions) : Ceiling d' := by
  constructor
  · rw [hUsers]
    exact h.balances
  · rw [hTransactions]
    exact h.ledger

/-- A posting that takes money out. -/
theorem Ceiling.debit {d : Db} (h : Ceiling d) {p : Posting} (hDebit : p.delta ≤ 0) :
    Ceiling (d.post p) := by
  apply Ceiling.of_below
  apply h.below.post
  · have hLimit : maxUserBalance < numericLimit := by decide
    linarith
  · intro userId
    split_ifs <;> linarith

/-- The two sides of a sale: between them the seller may be above the ceiling
by the price, which the column holds. -/
theorem Ceiling.sale {d : Db} (h : Ceiling d) {payment : TransactionType} {buyer seller : UserId}
    {price : Money} {auctionId : LotId} {bought sold : String} (hPos : 0 < price)
    (hMax : price ≤ maxUserBalance)
    (hFits : ∀ row, d.users.get seller = some row →
      row.balance + price - sellerCommission percent price ≤ maxUserBalance) :
    Ceiling (d.postAll (settlementOf percent payment buyer seller price auctionId bought sold)) := by
  have hLimit : maxUserBalance + maxUserBalance < numericLimit := by decide
  have hPrice : price < numericLimit := by linarith
  obtain ⟨hNonneg, _⟩ := sellerCommission_bounds percent hPos.le hPrice
  let room : UserId → Money := fun userId =>
    if userId = seller then min maxUserBalance
      (maxUserBalance - (price - sellerCommission percent price)) else maxUserBalance
  have hRoom : Below room d := by
    refine ⟨fun userId row hRow => ?_, h.ledger⟩
    have hOld := h.balances userId row hRow
    by_cases hId : userId = seller
    · subst hId
      have hSeller := hFits row hRow
      simp only [room, if_pos rfl, le_min_iff]
      exact ⟨hOld, by linarith⟩
    · simpa [room, hId] using hOld
  have hRoomMax (userId : UserId) : room userId ≤ maxUserBalance := by
    simp only [room]
    split_ifs
    · exact min_le_left _ _
    · exact le_rfl
  have hPaid : Below room (d.post ⟨buyer, -price, payment, bought, some auctionId⟩) := by
    apply hRoom.post
    · have hBuyer := hRoomMax buyer
      show room buyer + -price < numericLimit
      linarith
    · intro userId
      split_ifs <;> linarith
  unfold settlementOf saleOf
  rw [Db.postAll_cons, Db.postAll_cons]
  have hGross : Below (fun userId => room userId + if userId = seller then price else 0)
      ((d.post ⟨buyer, -price, payment, bought, some auctionId⟩).post
        ⟨seller, price, .auctionSale, sold, some auctionId⟩) := by
    apply hPaid.post (p := ⟨seller, price, .auctionSale, sold, some auctionId⟩) _ fun _ => le_rfl
    have hSeller := hRoomMax seller
    show room seller + price < numericLimit
    linarith
  have hSellerRoom : room seller ≤ maxUserBalance - (price - sellerCommission percent price) := by
    simp only [room, if_pos rfl]
    exact min_le_right _ _
  apply Ceiling.of_below
  split_ifs with hCommission
  · apply hGross.post
    · show room seller + (if seller = seller then price else 0) + -sellerCommission percent price <
        numericLimit
      rw [if_pos rfl]
      linarith
    · intro userId
      by_cases hId : userId = seller
      · subst hId
        simp only [if_true]
        linarith
      · simpa [hId] using hRoomMax userId
  · refine ⟨fun userId row hRow => (hGross.balances userId row hRow).trans ?_, hGross.ledger⟩
    by_cases hId : userId = seller
    · subst hId
      simp only [if_true]
      linarith
    · simpa [hId] using hRoomMax userId

/-- A commit whose proceeds fit keeps every balance under the ceiling. -/
theorem Ceiling.commit {held : Held market} {d d' : Db} (h : Ceiling d) (hWell : WellFormed A d)
    (hCommit : Commit percent A request held d d') (hFits : ProceedsFit percent d request) :
    Ceiling d' := by
  cases hCommit with
  | idle => exact h
  | observe => exact h.congr rfl rfl
  | create => exact h.congr rfl rfl
  | illustrate => exact h.congr rfl rfl
  | revise => exact h.congr rfl rfl
  | bid => exact h.congr rfl rfl
  | close => exact h.congr rfl rfl
  | register =>
      refine ⟨fun userId row hRow => ?_, h.ledger⟩
      rcases Table.of_get_add hRow with ⟨_, rfl⟩ | hRow
      · show openingBalance ≤ maxUserBalance
        decide
      · exact h.balances userId row hRow
  | remove auctionId =>
      refine ⟨h.balances, fun tx hTx => ?_⟩
      obtain ⟨before, hBefore, rfl⟩ := List.mem_map.mp hTx
      exact h.ledger before hBefore
  | deposit userId user amount description _ hUser hPos hCap =>
      apply Ceiling.of_below
      refine ⟨fun id row hRow => ?_, fun tx hTx => ?_⟩
      · by_cases hId : id = userId
        · subst hId
          rw [Db.get_post_self (p := ⟨id, amount, .deposit, description, none⟩) hUser,
            Option.some.injEq] at hRow
          rw [← hRow]
          exact hCap
        · rw [Db.get_post_other d (p := ⟨userId, amount, .deposit, description, none⟩) hId] at hRow
          exact h.balances id row hRow
      · rw [Db.post_some hUser, List.mem_append, List.mem_singleton] at hTx
        rcases hTx with hOld | rfl
        · exact h.ledger tx hOld
        · have hLimit : maxUserBalance < numericLimit := by decide
          exact hCap.trans_lt hLimit
  | withdraw userId user amount description _ _ hPos => exact h.debit (neg_nonpos.mpr hPos.le)
  | purchase auctionId old buyer user price now bought sold hRequest _ _ _ hRow _ _ _ hPrice =>
      obtain ⟨hPos, hMax⟩ := hWell.binPrices _ _ price hRow hPrice
      have hSet : Ceiling (d.setAuction auctionId (soldTo old price buyer now)) := h.congr rfl rfl
      apply hSet.sale hPos hMax
      intro row hSeller
      apply hFits (auctionId, price) _ old hRow row hSeller
      simp [hRequest, Db.saleFor, hRow, hPrice]
  | settle auctionId old new lastBid seller bought sold settlement hRequest _ _ _ hRow hLast _ hOwner =>
      obtain ⟨_, _, hPos, hMax⟩ := hWell.bidRows lastBid (Db.lastBid_mem hLast).1
      have hSet : Ceiling (d.setAuction auctionId new) := h.congr rfl rfl
      have hSold : Ceiling ((d.setAuction auctionId new).postAll (settlementOf percent .bidWin
          lastBid.userId seller lastBid.amount auctionId bought sold)) := by
        apply hSet.sale hPos hMax
        intro row hSeller
        apply hFits (auctionId, lastBid.amount) _ old hRow row (hOwner ▸ hSeller)
        rcases hRequest with rfl | rfl <;> simp [Db.saleFor, hLast]
      exact hSold.congr rfl rfl

/-- While the proceeds of every sale fit, no balance is ever above the ceiling;
and a commit whose proceeds fit overflows no column. -/
theorem balance_ceiling (percent : CommissionPercent) (categories : List Nat) {s : Served}
    (run : Runs.Reaches (serve percent) (Served.WritesMeet (ProceedsFit percent))
      (.initial categories) s) :
    Ceiling s.1.db ∧ ∀ sid note write next request,
      s.1.sessions sid = some (.commit note write next) → s.requests sid = some request →
        ProceedsFit percent s.1.db request → Ceiling (write s.1.db) := by
  have hInit : Ceiling (Db.initial categories) := by
    constructor <;> simp [Db.initial]
  have hBoth := Served.Underway.of_writes hInit (fun h => h.congr rfl rfl)
    (fun hWell h hCommit hFits => Ceiling.commit h hWell hCommit hFits) run
  obtain ⟨hUnderway, hCeiling⟩ := hBoth
  refine ⟨hCeiling, fun sid note write next request hSession hRequest hFits => ?_⟩
  obtain ⟨served, hServed, hSafe⟩ := hUnderway.valid.safe sid _ hSession
  obtain rfl : served = request := Option.some.inj (hServed.symm.trans hRequest)
  have hCommit : Commit percent .none served (s.1.held sid) s.1.db (write s.1.db) :=
    ((hSafe s.1.db .refl hUnderway.valid.inv).1 (Assumptions.none_ok _ _ _)).1
  exact hCeiling.commit hUnderway.valid.inv hCommit hFits

/-- A lot sold for 200.00 leaves the seller 186.00 richer. -/
theorem balance_ceiling_firstSale : ∃ s : Served, s.1.db.users.get 0 = some ⟨0, 118600⟩ ∧
    Ceiling s.1.db := by
  obtain ⟨s, run, hSeller⟩ := Runs.exists_reaches (serve defaultCommission)
    (Served.WritesMeet (ProceedsFit defaultCommission)) (.initial []) firstSale
    (fun s => s.1.db.users.get 0 = some ⟨0, 118600⟩) (by decide +kernel)
  exact ⟨s, hSeller, (balance_ceiling defaultCommission [] run).1⟩

def pricedChair : AuctionCreate :=
  { chair with auctionType := .bin, binPrice := some chair.startingPrice }

/-- User 0 deposits the amount a number of times. -/
def deposits (amount : TransferAmount) (n : Nat) : List (Action market Request) :=
  (List.replicate n [.start 0 (.deposit 0 ⟨amount⟩), .step 0, .step 0, .step 0, .close 0]).flatten

/-- User 0 deposits up to the ceiling and lists a chair for 100.00, which user 1
buys. -/
def richSeller : List (Action market Request) :=
  [.start 0 .register, .step 0, .close 0, .start 1 .register, .step 1] ++
  deposits ⟨10000000, by decide⟩ 99 ++ deposits ⟨9900000, by decide⟩ 1 ++
  [.start 2 (.createAuction 0 pricedChair), .step 2, .clock 2 0, .step 2] ++
  [.start 3 (.buyNow 1 0)] ++ steps 3 2 ++ [.clock 3 (seconds 1)] ++ steps 3 3 ++
  [.clock 3 (seconds 1), .step 3]

/-- A sale lifts the balance of a rich seller above the ceiling. -/
theorem sale_above_ceiling : ¬∀ (percent : CommissionPercent) (categories : List Nat) (s : Served),
    Runs.Reaches (serve percent) (fun _ _ => True) (.initial categories) s →
      ∀ userId row, s.1.db.users.get userId = some row → row.balance ≤ maxUserBalance := by
  intro hCeiling
  obtain ⟨s, run, hSeller⟩ := Runs.exists_reaches (serve defaultCommission) (fun _ _ => True)
    (.initial []) richSeller (fun s => s.1.db.users.get 0 = some ⟨0, 1000009300⟩)
    (by decide +kernel)
  have hAbove := hCeiling defaultCommission [] s run 0 _ hSeller
  exact absurd hAbove (by decide)

end OnlineAuction
