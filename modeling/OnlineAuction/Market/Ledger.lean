import OnlineAuction.Library.RunningBalance
import OnlineAuction.Market.HandlerContracts

/-! The ledger agrees with the balances, and money is only created by deposits
and destroyed by withdrawals and commissions. -/

namespace OnlineAuction

open RowLocks RunningBalance

/-- The sign that a transaction type implies. -/
def TransactionType.signed (type : TransactionType) (amount : Money) : Money :=
  match type with
  | .deposit | .auctionSale => amount
  | .withdrawal | .bidWin | .binPurchase | .commission => -amount

def Transaction.signed (tx : Transaction) : Money := tx.type.signed tx.amount

/-- What a transaction adds to the money of all users: purchases and sales
only move it. -/
def TransactionType.flow (type : TransactionType) (amount : Money) : Money :=
  match type with
  | .deposit => amount
  | .withdrawal | .commission => -amount
  | .auctionSale | .bidWin | .binPurchase => 0

def Db.sumOf (d : Db) (type : TransactionType) : Money :=
  ((d.transactions.filter fun tx => tx.type = type).map Transaction.amount).sum

def Db.imbalance (d : Db) : Money :=
  d.users.total User.balance - openingBalance * d.users.total (fun _ => 1) -
    (d.transactions.map fun tx => tx.type.flow tx.amount).sum

structure Posting.Proper (p : Posting) : Prop where
  nonzero : p.delta ≠ 0
  sign : p.type.signed |p.delta| = p.delta

/-- Every user's rows record a running balance that ends in the stored one. -/
structure LedgerKept (d : Db) : Prop where
  ids : d.transactions.Pairwise fun a b => a.id < b.id
  serial : ∀ tx ∈ d.transactions, tx.id < d.transactionSerial
  owners : ∀ tx ∈ d.transactions, (d.users.get tx.userId).isSome
  positive : ∀ tx ∈ d.transactions, 0 < tx.amount
  runs : ∀ userId row, d.users.get userId = some row →
    Runs Transaction.signed Transaction.balanceAfter openingBalance
      (d.transactions.filter fun tx => tx.userId = userId) row.balance

namespace LedgerKept

variable {d : Db}

theorem of_initial (categories : List Nat) : LedgerKept (Db.initial categories) := by
  constructor <;> simp [Db.initial]

/-- The ledger is read off the users and the transactions. -/
theorem congr {d' : Db} (h : LedgerKept d) (hUsers : d'.users = d.users)
    (hTransactions : d'.transactions = d.transactions)
    (hSerial : d'.transactionSerial = d.transactionSerial) : LedgerKept d' := by
  constructor
  all_goals simp only [hUsers, hTransactions, hSerial]
  · exact h.ids
  · exact h.serial
  · exact h.owners
  · exact h.positive
  · exact h.runs

/-- A proper posting continues its user's running balance. -/
theorem post (h : LedgerKept d) {p : Posting} (hProper : p.Proper) : LedgerKept (d.post p) := by
  have hSome (id : UserId) := Db.isSome_postAll d [p] id
  simp only [Db.postAll_cons, Db.postAll_nil] at hSome
  cases hUser : d.users.get p.userId with
  | none => rwa [Db.post_none hUser]
  | some user =>
      have hNew : (d.post p).transactions =
          d.transactions ++ [p.entry d.transactionSerial user.balance] := by
        rw [Db.post_some hUser]
      have hSerial : (d.post p).transactionSerial = d.transactionSerial + 1 := by
        rw [Db.post_some hUser]
      constructor
      case ids =>
        rw [hNew]
        refine List.pairwise_append.mpr ⟨h.ids, by simp, fun tx hTx new hMem => ?_⟩
        obtain rfl := List.mem_singleton.mp hMem
        exact h.serial tx hTx
      case runs =>
        intro userId row hRow
        rw [hNew, List.filter_append]
        by_cases hId : userId = p.userId
        · subst hId
          rw [Db.get_post_self hUser, Option.some.injEq] at hRow
          subst hRow
          have hContinues : (p.entry d.transactionSerial user.balance).balanceAfter =
              user.balance + (p.entry d.transactionSerial user.balance).signed := by
            simp only [Posting.entry, Transaction.signed, hProper.sign]
          have hOwn : [p.entry d.transactionSerial user.balance].filter
              (fun tx => tx.userId = p.userId) = [p.entry d.transactionSerial user.balance] := by
            simp [Posting.entry]
          rw [hOwn]
          exact (h.runs p.userId user hUser).snoc hContinues
        · have hOther : [p.entry d.transactionSerial user.balance].filter
              (fun tx => tx.userId = userId) = [] := by
            simp [Posting.entry, Ne.symm hId]
          rw [hOther, List.append_nil]
          rw [Db.get_post_other d hId] at hRow
          exact h.runs userId row hRow
      all_goals
        intro tx hTx
        rw [hNew, List.mem_append, List.mem_singleton] at hTx
        rcases hTx with hOld | rfl
      · exact hSerial ▸ (h.serial tx hOld).trans (Nat.lt_succ_self _)
      · exact hSerial ▸ Nat.lt_succ_self _
      · exact (hSome tx.userId).trans (h.owners tx hOld)
      · exact (hSome p.userId).trans (by simp [hUser])
      · exact h.positive tx hOld
      · exact abs_pos.mpr hProper.nonzero

theorem postAll (h : LedgerKept d) {postings : List Posting}
    (hProper : ∀ p ∈ postings, p.Proper) : LedgerKept (d.postAll postings) :=
  Db.postAll_induction (fun _ p hp hKept => hKept.post (hProper p hp)) h

/-- A new account opens at the balance its empty ledger starts from. -/
theorem addUser (h : LedgerKept d) : LedgerKept d.addUser where
  ids := h.ids
  serial := h.serial
  owners tx hTx := by
    obtain ⟨row, hRow⟩ := Option.isSome_iff_exists.mp (h.owners tx hTx)
    exact Option.isSome_iff_exists.mpr ⟨row, Table.get_add_old hRow _⟩
  positive := h.positive
  runs userId row hRow := by
    simp only [Db.addUser, Table.get_add] at hRow
    split_ifs at hRow with hId
    · have hNone : (d.transactions.filter fun tx => tx.userId = userId) = [] := by
        rw [List.filter_eq_nil_iff]
        intro tx hTx hOwner
        have hExists := h.owners tx hTx
        rw [of_decide_eq_true hOwner, hId, d.users.unused _ le_rfl] at hExists
        simp at hExists
      obtain rfl := Option.some.inj hRow
      show Runs _ _ _ (d.transactions.filter _) _
      rw [hNone]
      rfl
    · exact h.runs userId row hRow

/-- Deleting a lot only clears it from the rows that mention it. -/
theorem deleteAuction (h : LedgerKept d) (auctionId : LotId) :
    LedgerKept (d.deleteAuction auctionId) where
  ids := List.pairwise_map.mpr h.ids
  serial tx hTx := by
    obtain ⟨old, hOld, rfl⟩ := List.mem_map.mp hTx
    exact h.serial old hOld
  owners tx hTx := by
    obtain ⟨old, hOld, rfl⟩ := List.mem_map.mp hTx
    exact h.owners old hOld
  positive tx hTx := by
    obtain ⟨old, hOld, rfl⟩ := List.mem_map.mp hTx
    exact h.positive old hOld
  runs userId row hRow := by
    have hMapped := (h.runs userId row hRow).map (fun tx => { tx with
      auctionId := if tx.auctionId = some auctionId then none else tx.auctionId })
      (fun _ => rfl) fun _ => rfl
    simpa [Db.deleteAuction, List.filter_map, Function.comp_def] using hMapped

end LedgerKept

/-- What a posting moves rather than creates. -/
def Posting.transfer (p : Posting) : Money := p.delta - p.type.flow |p.delta|

/-- A posting shifts the imbalance by what it transfers. -/
theorem imbalance_post {d : Db} {p : Posting} (h : (d.users.get p.userId).isSome) :
    (d.post p).imbalance = d.imbalance + p.transfer := by
  obtain ⟨user, hUser⟩ := Option.isSome_iff_exists.mp h
  rw [Db.post_some hUser]
  simp only [Db.imbalance, Table.total_modify hUser, List.map_append, List.sum_append,
    List.map_cons, List.map_nil, List.sum_cons, List.sum_nil, Posting.entry, Posting.transfer]
  ring

/-- Postings shift the imbalance by the sum of what they transfer. -/
theorem imbalance_postAll {d : Db} {postings : List Posting}
    (h : ∀ p ∈ postings, (d.users.get p.userId).isSome) :
    (d.postAll postings).imbalance = d.imbalance + (postings.map Posting.transfer).sum := by
  induction postings generalizing d with
  | nil => simp
  | cons p rest ih =>
      have hRest : ∀ q ∈ rest, ((d.post p).users.get q.userId).isSome := fun q hq =>
        (Db.isSome_postAll d [p] q.userId).trans (h q (List.mem_cons_of_mem _ hq))
      rw [Db.postAll_cons, ih hRest, imbalance_post (h p (by simp)), List.map_cons, List.sum_cons]
      ring

/-- The two sides of a sale cancel; the commission is accounted for. -/
theorem settlementOf_transfer (percent : CommissionPercent) {payment : TransactionType}
    (hPayment : ∀ amount, payment.flow amount = 0) (buyer seller : UserId) {price : Money}
    (auctionId : LotId) (bought sold : String) :
    ((settlementOf percent payment buyer seller price auctionId bought sold).map
      Posting.transfer).sum = 0 := by
  have hBuyer : (Posting.mk buyer (-price) payment bought (some auctionId)).transfer = -price := by
    simp only [Posting.transfer, hPayment, sub_zero]
  have hSale : ((saleOf percent seller price auctionId sold).map Posting.transfer).sum = price := by
    unfold saleOf
    split_ifs with hCommission
    · simp [Posting.transfer, TransactionType.flow, abs_of_pos hCommission]
    · simp [Posting.transfer, TransactionType.flow]
  rw [settlementOf, List.map_cons, List.sum_cons, hBuyer, hSale]
  ring

/-- The rows of a settlement are proper: amounts are positive and balances run. -/
theorem settlementOf_proper (percent : CommissionPercent) {payment : TransactionType}
    (hPayment : ∀ amount, payment.signed amount = -amount) (buyer seller : UserId) {price : Money}
    (hPrice : 0 < price) (auctionId : LotId) (bought sold : String) :
    ∀ p ∈ settlementOf percent payment buyer seller price auctionId bought sold, p.Proper := by
  intro p hp
  unfold settlementOf saleOf at hp
  simp only [List.mem_cons] at hp
  rcases hp with rfl | rfl | hp
  · exact ⟨by simpa using hPrice.ne', by simp [hPayment, abs_of_pos hPrice]⟩
  · exact ⟨hPrice.ne', by simp [TransactionType.signed, abs_of_pos hPrice]⟩
  · split_ifs at hp with hCommission
    · obtain rfl := List.mem_singleton.mp hp
      exact ⟨by simpa using hCommission.ne', by
        simp [TransactionType.signed, abs_of_pos hCommission]⟩
    · simp at hp

theorem LedgerKept.commit {percent : CommissionPercent} {A : Assumptions} {request : Request}
    {held : Held market} {d d' : Db} (hWell : WellFormed A d) (h : LedgerKept d)
    (hCommit : Commit percent A request held d d') : LedgerKept d' := by
  cases hCommit with
  | idle => exact h
  | observe => exact h.congr rfl rfl rfl
  | register => exact h.addUser
  | deposit _ _ amount _ _ _ hPos =>
      exact h.post ⟨hPos.ne', by simp [TransactionType.signed, abs_of_pos hPos]⟩
  | withdraw _ _ amount _ _ _ hPos =>
      exact h.post ⟨by simpa using hPos.ne', by simp [TransactionType.signed, abs_of_pos hPos]⟩
  | create => exact h.congr rfl rfl rfl
  | illustrate => exact h.congr rfl rfl rfl
  | revise => exact h.congr rfl rfl rfl
  | remove auctionId => exact h.deleteAuction auctionId
  | bid => exact h.congr rfl rfl rfl
  | purchase auctionId old buyer user price now bought sold _ _ _ _ hRow _ _ _ hPrice =>
      have hPos := (hWell.binPrices _ _ price hRow hPrice).1
      have hSet : LedgerKept (d.setAuction auctionId (soldTo old price buyer now)) :=
        h.congr rfl rfl rfl
      exact hSet.postAll
        (settlementOf_proper percent (fun _ => rfl) buyer _ hPos auctionId bought sold)
  | close => exact h.congr rfl rfl rfl
  | settle auctionId old new lastBid seller bought sold settlement _ _ _ _ _ hLast =>
      have hPos := (hWell.bidRows lastBid (Db.lastBid_mem hLast).1).2.2.1
      have hSet : LedgerKept (d.setAuction auctionId new) := h.congr rfl rfl rfl
      exact (hSet.postAll (settlementOf_proper percent (fun _ => rfl) lastBid.userId seller hPos
        auctionId bought sold)).congr rfl rfl rfl

/-- Every transaction keeps the books balanced. -/
theorem imbalance_commit {percent : CommissionPercent} {A : Assumptions} {request : Request}
    {held : Held market} {d d' : Db} (hWell : WellFormed A d) (hCommit : Commit percent A request held d d') :
    d'.imbalance = d.imbalance := by
  have hSale : ∀ {payment : TransactionType}, (∀ amount, payment.flow amount = 0) →
      ∀ {e : Db} {buyer seller : UserId} {price : Money} {auctionId : LotId} {bought sold : String},
      (e.users.get buyer).isSome → (e.users.get seller).isSome →
      (e.postAll (settlementOf percent payment buyer seller price auctionId bought
        sold)).imbalance = e.imbalance := by
    intro payment hPayment e buyer seller price auctionId bought sold hBuyer hSeller
    rw [imbalance_postAll, settlementOf_transfer percent hPayment, add_zero]
    intro p hp
    rcases settlementOf_users hp with hUser | hUser
    · rwa [hUser]
    · rwa [hUser]
  cases hCommit with
  | idle => rfl
  | observe => rfl
  | register =>
      simp only [Db.imbalance, Db.addUser, Table.total_add]
      ring
  | deposit userId user amount description _ hUser hPos =>
      rw [imbalance_post (by simp [hUser])]
      simp [Posting.transfer, TransactionType.flow, abs_of_pos hPos]
  | withdraw userId user amount description _ hUser hPos =>
      rw [imbalance_post (by simp [hUser])]
      simp [Posting.transfer, TransactionType.flow, abs_of_pos hPos]
  | create => rfl
  | illustrate => rfl
  | revise => rfl
  | remove auctionId =>
      simp [Db.imbalance, Db.deleteAuction, Function.comp_def]
  | bid => rfl
  | purchase auctionId old buyer user price now bought sold _ _ _ _ hRow hUser =>
      rw [hSale (fun _ => rfl) (e := d.setAuction auctionId (soldTo old price buyer now))]
      · rfl
      · simp [Db.setAuction, hUser]
      · exact hWell.creators _ _ hRow
  | close => rfl
  | settle auctionId old new lastBid seller bought sold settlement _ _ _ _ _ hLast hSeller =>
      have hWinner := (hWell.bidRows lastBid (Db.lastBid_mem hLast).1).1
      exact hSale (fun _ => rfl) (e := d.setAuction auctionId new) hWinner hSeller

/-- The rows of a user, listed by id, are the rows as they were written. -/
theorem LedgerKept.transactionsOf {d : Db} (h : LedgerKept d) (userId : UserId) :
    d.transactionsOf userId = d.transactions.filter fun tx => tx.userId = userId := by
  apply List.Pairwise.insertionSort_eq
  exact (h.ids.filter _).imp fun hLt => hLt.le

/-- The types that change the money of all users account for it. -/
theorem sum_flow (transactions : List Transaction) :
    (transactions.map fun tx => tx.type.flow tx.amount).sum =
      ((transactions.filter fun tx => tx.type = .deposit).map Transaction.amount).sum -
        ((transactions.filter fun tx => tx.type = .withdrawal).map Transaction.amount).sum -
        ((transactions.filter fun tx => tx.type = .commission).map Transaction.amount).sum := by
  induction transactions with
  | nil => rfl
  | cons tx rest ih =>
      have hCons (type : TransactionType) :
          (((tx :: rest).filter fun tx => tx.type = type).map Transaction.amount).sum =
            (if tx.type = type then tx.amount else 0) +
              ((rest.filter fun tx => tx.type = type).map Transaction.amount).sum := by
        by_cases hType : tx.type = type <;> simp [hType]
      have hHead : tx.type.flow tx.amount = (if tx.type = .deposit then tx.amount else 0) -
          (if tx.type = .withdrawal then tx.amount else 0) -
          (if tx.type = .commission then tx.amount else 0) := by
        cases tx.type <;> simp [TransactionType.flow]
      rw [List.map_cons, List.sum_cons, ih, hCons, hCons, hCons, hHead]
      ring

/-- In every interleaving the ledger of each user, listed by id, starts at the
opening balance, adds or subtracts each amount according to its type and ends
at the stored balance; every amount is a positive number of cents; and the
balances add up to the opening balances plus deposits, less withdrawals and
commissions. -/
theorem ledger_consistent {percent : CommissionPercent} {categories : List Nat}
    {c : Config market}
    (run : Reaches (handle percent) (fun _ _ _ => True) (Db.initial categories) c) :
    (∀ userId row, c.db.users.get userId = some row →
      Runs Transaction.signed Transaction.balanceAfter openingBalance
        (c.db.transactionsOf userId) row.balance) ∧
    (∀ tx ∈ c.db.transactions, 0 < tx.amount) ∧
    c.db.users.total User.balance =
      openingBalance * c.db.users.total (fun _ => 1) + c.db.sumOf .deposit -
        c.db.sumOf .withdrawal - c.db.sumOf .commission := by
  have run' : Reaches (handle percent) (Assumptions.ok ⟨False, False, False⟩)
      (Db.initial categories) c := run.weaken fun _ _ _ _ => ⟨nofun, nofun, nofun⟩
  have hKept : LedgerKept c.db := invariant_of_commits (.of_initial categories)
    (fun hWell hKept hCommit => hKept.commit hWell hCommit) run'
  have hBalanced : c.db.imbalance = 0 := invariant_of_commits (I := fun d => d.imbalance = 0)
    (by simp [Db.imbalance, Db.initial, Table.total, Table.empty])
    (fun hWell hZero hCommit => (imbalance_commit hWell hCommit).trans hZero) run'
  refine ⟨fun userId row hRow => ?_, hKept.positive, ?_⟩
  · rw [hKept.transactionsOf]
    exact hKept.runs userId row hRow
  · rw [Db.imbalance, sum_flow] at hBalanced
    simp only [Db.sumOf]
    linarith

/-- The seller of a lot at 200.00 holds the price less 7%. -/
theorem ledger_consistent_firstSale :
    ∃ c : Config market, c.db.users.get 0 = some ⟨0, 118600⟩ ∧
      Runs Transaction.signed Transaction.balanceAfter openingBalance (c.db.transactionsOf 0)
        118600 := by
  obtain ⟨c, run, hSeller⟩ := exists_reaches (handle defaultCommission) (fun _ _ _ => True)
    (Db.initial []) firstSale (fun c => c.db.users.get 0 = some ⟨0, 118600⟩) (by decide +kernel)
  exact ⟨c, hSeller, (ledger_consistent run).1 0 _ hSeller⟩

end OnlineAuction
