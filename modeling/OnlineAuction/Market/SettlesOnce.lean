import OnlineAuction.Market.Ledger

/-! Exactly-once settlement. The guard of `complete_auction` reads the copy its
session loaded before the lock, so a second tick that loaded the lot while it
was active settles it again; without such a grant no lot is paid for twice. -/

namespace OnlineAuction

open RowLocks

def Db.countRows (d : Db) (auctionId : LotId) (types : List TransactionType) : Nat :=
  d.transactions.countP fun tx => decide (tx.auctionId = some auctionId ∧ tx.type ∈ types)

def buyerDebits : List TransactionType := [.bidWin, .binPurchase]

/-- At most one debit of a buyer, one credit of the seller and one commission. -/
def SettledOnce (d : Db) (auctionId : LotId) : Prop :=
  d.countRows auctionId buyerDebits ≤ 1 ∧ d.countRows auctionId [.auctionSale] ≤ 1 ∧
    d.countRows auctionId [.commission] ≤ 1

instance (d : Db) (auctionId : LotId) : Decidable (SettledOnce d auctionId) := by
  unfold SettledOnce
  infer_instance

namespace Db

/-- Postings append at most one row each, with their own columns. -/
theorem postAll_transactions (d : Db) (postings : List Posting) :
    ∃ new, (d.postAll postings).transactions = d.transactions ++ new ∧
      (new.map fun tx => (tx.auctionId, tx.type, tx.userId, tx.amount)).Sublist
        (postings.map fun p => (p.auctionId, p.type, p.userId, |p.delta|)) := by
  induction postings generalizing d with
  | nil => exact ⟨[], by simp⟩
  | cons p rest ih =>
      obtain ⟨new, hNew, hSub⟩ := ih (d.post p)
      cases hUser : d.users.get p.userId with
      | none =>
          rw [post_none hUser] at hNew
          refine ⟨new, ?_, hSub.trans (List.sublist_cons_self _ _)⟩
          rw [postAll_cons, post_none hUser, hNew]
      | some user =>
          have hFirst : (d.post p).transactions =
              d.transactions ++ [p.entry d.transactionSerial user.balance] := by
            rw [post_some hUser]
          refine ⟨p.entry d.transactionSerial user.balance :: new, ?_, ?_⟩
          · rw [postAll_cons, hNew, hFirst, List.append_assoc]
            rfl
          · exact hSub.cons_cons _

/-- A row after some postings was there before or is one of theirs. -/
theorem mem_postAll {d : Db} {postings : List Posting} {tx : Transaction}
    (h : tx ∈ (d.postAll postings).transactions) :
    tx ∈ d.transactions ∨ ∃ p ∈ postings, tx.auctionId = p.auctionId ∧ tx.type = p.type ∧
      tx.userId = p.userId ∧ tx.amount = |p.delta| := by
  obtain ⟨new, hNew, hSub⟩ := d.postAll_transactions postings
  rw [hNew, List.mem_append] at h
  apply h.imp_right
  intro hMem
  obtain ⟨p, hp, hSame⟩ := List.mem_map.mp (hSub.subset (List.mem_map_of_mem hMem))
  simp only [Prod.mk.injEq] at hSame
  exact ⟨p, hp, hSame.1.symm, hSame.2.1.symm, hSame.2.2.1.symm, hSame.2.2.2.symm⟩

/-- The rows of a settled lot are those there were and at most those posted. -/
theorem countRows_postAll (d : Db) (postings : List Posting) (auctionId : LotId)
    (types : List TransactionType) :
    (d.postAll postings).countRows auctionId types ≤ d.countRows auctionId types +
      postings.countP fun p => decide (p.auctionId = some auctionId ∧ p.type ∈ types) := by
  obtain ⟨new, hNew, hSub⟩ := d.postAll_transactions postings
  have hLe := hSub.countP_le (p := fun x => decide (x.1 = some auctionId ∧ x.2.1 ∈ types))
  rw [List.countP_map, List.countP_map] at hLe
  unfold countRows
  rw [hNew, List.countP_append]
  exact Nat.add_le_add_left hLe _

end Db

/-- All postings of a settlement name the lot they settle. -/
theorem settlementOf_lot {percent : CommissionPercent} {payment : TransactionType}
    {buyer seller : UserId} {price : Money} {auctionId : LotId} {bought sold : String}
    {p : Posting} (h : p ∈ settlementOf percent payment buyer seller price auctionId bought sold) :
    p.auctionId = some auctionId := by
  unfold settlementOf saleOf at h
  split_ifs at h <;> simp only [List.mem_cons, List.not_mem_nil, or_false] at h
  · rcases h with rfl | rfl | rfl <;> rfl
  · rcases h with rfl | rfl <;> rfl

theorem settlementOf_other (percent : CommissionPercent) (payment : TransactionType)
    (buyer seller : UserId) (price : Money) {auctionId other : LotId} (h : other ≠ auctionId)
    (bought sold : String) (types : List TransactionType) :
    (settlementOf percent payment buyer seller price auctionId bought sold).countP
      (fun p => decide (p.auctionId = some other ∧ p.type ∈ types)) = 0 := by
  unfold settlementOf saleOf
  split_ifs <;> simp [Ne.symm h]

/-- A sale posts one debit, one credit and at most one commission. -/
theorem settlementOf_once (percent : CommissionPercent) {payment : TransactionType}
    (hPayment : payment ∈ buyerDebits) (buyer seller : UserId) (price : Money) (auctionId : LotId)
    (bought sold : String) {types : List TransactionType}
    (hTypes : types ∈ [buyerDebits, [.auctionSale], [.commission]]) :
    (settlementOf percent payment buyer seller price auctionId bought sold).countP
      (fun p => decide (p.auctionId = some auctionId ∧ p.type ∈ types)) ≤ 1 := by
  have hNotSale : payment ≠ .auctionSale ∧ payment ≠ .commission := by
    constructor <;> rintro rfl <;> simp [buyerDebits] at hPayment
  simp only [List.mem_cons, List.not_mem_nil, or_false] at hTypes
  unfold settlementOf saleOf
  rcases hTypes with rfl | rfl | rfl
  · simp only [buyerDebits, List.mem_cons, List.not_mem_nil, or_false] at hPayment ⊢
    split_ifs <;> simp [hPayment]
  · split_ifs <;> simp [hNotSale.1]
  · split_ifs <;> simp [hNotSale.2]

/-- Rows of the ledger belong to lots that are closed, and to none of them
does a kind of row belong twice. -/
structure OnceKept (d : Db) : Prop where
  closed : ∀ tx ∈ d.transactions, ∀ auctionId, tx.auctionId = some auctionId →
    ∃ row, d.auctions.get auctionId = some row ∧ row.isActive = false
  once : ∀ auctionId, SettledOnce d auctionId

namespace OnceKept

variable {d : Db}

theorem of_initial (categories : List Nat) : OnceKept (Db.initial categories) := by
  constructor <;> simp [Db.initial, SettledOnce, Db.countRows]

/-- A lot without rows: each kind is counted zero times. -/
theorem countRows_of_active (h : OnceKept d) {auctionId : LotId} {row : Auction}
    (hRow : d.auctions.get auctionId = some row) (hActive : row.isActive = true)
    (types : List TransactionType) : d.countRows auctionId types = 0 := by
  unfold Db.countRows
  rw [List.countP_eq_zero]
  intro tx hTx hLot
  obtain ⟨closed, hClosed, hInactive⟩ := h.closed tx hTx auctionId (of_decide_eq_true hLot).1
  rw [hRow, Option.some.injEq] at hClosed
  simp [← hClosed, hActive] at hInactive

/-- The same ledger over lots of which the closed ones stay closed. -/
theorem withAuctions {d' : Db} (h : OnceKept d) (hTransactions : d'.transactions = d.transactions)
    (hAuctions : ∀ id row, d.auctions.get id = some row → row.isActive = false →
      ∃ row', d'.auctions.get id = some row' ∧ row'.isActive = false) : OnceKept d' where
  closed tx hTx auctionId hLot := by
    rw [hTransactions] at hTx
    obtain ⟨row, hRow, hInactive⟩ := h.closed tx hTx auctionId hLot
    exact hAuctions auctionId row hRow hInactive
  once auctionId := by
    unfold SettledOnce Db.countRows
    rw [hTransactions]
    exact h.once auctionId

/-- Replacing a lot that was active, or by one that is closed. -/
theorem setAuction (h : OnceKept d) {auctionId : LotId} {old new : Auction}
    (hRow : d.auctions.get auctionId = some old)
    (hState : old.isActive = true ∨ new.isActive = false) :
    OnceKept (d.setAuction auctionId new) := by
  refine h.withAuctions rfl fun id row hOther hInactive => ?_
  by_cases hId : id = auctionId
  · subst hId
    rw [hRow, Option.some.injEq] at hOther
    subst hOther
    rcases hState with hActive | hClosed
    · simp [hActive] at hInactive
    · exact ⟨new, Db.get_setAuction_self hRow new, hClosed⟩
  · exact ⟨row, (Db.get_setAuction_other d new hId).trans hOther, hInactive⟩

/-- A posting that mentions no lot. -/
theorem post_balance (h : OnceKept d) {p : Posting} (hLot : p.auctionId = none) :
    OnceKept (d.post p) := by
  cases hUser : d.users.get p.userId with
  | none => rwa [Db.post_none hUser]
  | some user =>
      have hNew : (d.post p).transactions =
          d.transactions ++ [p.entry d.transactionSerial user.balance] := by
        rw [Db.post_some hUser]
      refine ⟨fun tx hTx auctionId hTxLot => ?_, fun auctionId => ?_⟩
      · rw [hNew, List.mem_append, List.mem_singleton] at hTx
        rcases hTx with hOld | rfl
        · rw [Db.post_auctions]
          exact h.closed tx hOld auctionId hTxLot
        · simp [Posting.entry, hLot] at hTxLot
      · have hSame (types : List TransactionType) :
            (d.post p).countRows auctionId types = d.countRows auctionId types := by
          simp [Db.countRows, hNew, Posting.entry, hLot]
        simpa only [SettledOnce, hSame] using h.once auctionId

/-- The sale of a lot that was active: its first and only rows. -/
theorem sale (h : OnceKept d) (percent : CommissionPercent) {payment : TransactionType}
    (hPayment : payment ∈ buyerDebits) {buyer seller : UserId} {price : Money} {auctionId : LotId}
    {bought sold : String} {old new : Auction} (hRow : d.auctions.get auctionId = some old)
    (hActive : old.isActive = true) (hClosed : new.isActive = false) :
    OnceKept ((d.setAuction auctionId new).postAll
      (settlementOf percent payment buyer seller price auctionId bought sold)) := by
  set postings := settlementOf percent payment buyer seller price auctionId bought sold
  have hSet : OnceKept (d.setAuction auctionId new) := h.setAuction hRow (.inl hActive)
  refine ⟨fun tx hTx id hLot => ?_, fun id => ?_⟩
  · rw [Db.postAll_auctions]
    rcases Db.mem_postAll hTx with hOld | ⟨p, hp, hTxLot, _⟩
    · exact hSet.closed tx hOld id hLot
    · rw [settlementOf_lot hp, hLot, Option.some.injEq] at hTxLot
      subst hTxLot
      exact ⟨new, Db.get_setAuction_self hRow new, hClosed⟩
  · have hCount (types : List TransactionType) :=
      (d.setAuction auctionId new).countRows_postAll postings id types
    by_cases hId : id = auctionId
    · subst hId
      have hNone (types : List TransactionType) :
          (d.setAuction id new).countRows id types = 0 :=
        h.countRows_of_active hRow hActive types
      have hOne {types : List TransactionType}
          (hTypes : types ∈ [buyerDebits, [.auctionSale], [.commission]]) :
          ((d.setAuction id new).postAll postings).countRows id types ≤ 1 := by
        have hBound := hCount types
        rw [hNone, Nat.zero_add] at hBound
        exact hBound.trans (settlementOf_once percent hPayment buyer seller price id bought sold hTypes)
      exact ⟨hOne (by simp), hOne (by simp), hOne (by simp)⟩
    · have hLe (types : List TransactionType) : ((d.setAuction auctionId new).postAll
          postings).countRows id types ≤ (d.setAuction auctionId new).countRows id types := by
        have hBound := hCount types
        rwa [settlementOf_other percent payment buyer seller price hId] at hBound
      obtain ⟨hDebits, hSales, hCommissions⟩ := hSet.once id
      exact ⟨(hLe _).trans hDebits, (hLe _).trans hSales, (hLe _).trans hCommissions⟩

/-- Deleting a lot clears it from the rows and counts no other lot's again. -/
theorem deleteAuction (h : OnceKept d) (auctionId : LotId) :
    OnceKept (d.deleteAuction auctionId) := by
  refine ⟨fun tx hTx id hLot => ?_, fun id => ?_⟩
  · obtain ⟨old, hOld, rfl⟩ := List.mem_map.mp hTx
    dsimp only at hLot
    split_ifs at hLot with hDeleted
    obtain ⟨row, hRow, hInactive⟩ := h.closed old hOld id hLot
    have hId : id ≠ auctionId := by
      rintro rfl
      exact hDeleted hLot
    exact ⟨row, by simp [Db.deleteAuction, hId, hRow], hInactive⟩
  · have hLe (types : List TransactionType) :
        (d.deleteAuction auctionId).countRows id types ≤ d.countRows id types := by
      unfold Db.countRows Db.deleteAuction
      rw [List.countP_map]
      apply List.countP_mono_left
      intro tx _ hCounted
      simp only [Function.comp_apply, decide_eq_true_eq] at hCounted ⊢
      split_ifs at hCounted
      · simp at hCounted
      · exact hCounted
    obtain ⟨hDebits, hSales, hCommissions⟩ := h.once id
    exact ⟨(hLe _).trans hDebits, (hLe _).trans hSales, (hLe _).trans hCommissions⟩

theorem commit {percent : CommissionPercent} {A : Assumptions} {request : Request}
    {held : Held market} {d' : Db} (hSettlesOnce : A.settlesOnce) (h : OnceKept d)
    (hCommit : Commit percent A request held d d') : OnceKept d' := by
  cases hCommit with
  | idle => exact h
  | observe => exact h.withAuctions rfl fun id row hRow hInactive => ⟨row, hRow, hInactive⟩
  | register => exact h.withAuctions rfl fun id row hRow hInactive => ⟨row, hRow, hInactive⟩
  | deposit => exact h.post_balance rfl
  | withdraw => exact h.post_balance rfl
  | create row =>
      exact h.withAuctions rfl fun id old hRow hInactive =>
        ⟨old, Table.get_add_old hRow _, hInactive⟩
  | illustrate =>
      exact h.withAuctions rfl fun id row hRow hInactive => ⟨row, hRow, hInactive⟩
  | revise auctionId old new _ _ _ _ hRow _ hActive =>
      have hSet : OnceKept (d.setAuction auctionId new) := h.setAuction hRow (.inl hActive)
      exact hSet.withAuctions rfl fun id row hRow hInactive => ⟨row, hRow, hInactive⟩
  | remove auctionId => exact h.deleteAuction auctionId
  | bid auctionId old userId user amount now t _ _ hRow _ hActive =>
      have hSet : OnceKept (d.setAuction auctionId (acceptBid old amount now).1) :=
        h.setAuction hRow (.inl hActive)
      exact hSet.withAuctions rfl fun id row hRow hInactive => ⟨row, hRow, hInactive⟩
  | purchase auctionId old buyer user price now bought sold _ _ _ _ hRow _ hActive =>
      exact h.sale percent (by simp [buyerDebits]) hRow hActive rfl
  | close auctionId old new settlement _ hRow _ hClosed =>
      exact (h.setAuction hRow (.inr hClosed.inactive)).withAuctions rfl
        fun id row hRow hInactive => ⟨row, hRow, hInactive⟩
  | settle auctionId old new lastBid seller bought sold settlement _ _ _ _ hRow _ _ _ hClosed hOnce =>
      have hSold : OnceKept ((d.setAuction auctionId new).postAll (settlementOf percent .bidWin
          lastBid.userId seller lastBid.amount auctionId bought sold)) :=
        h.sale percent (by simp [buyerDebits]) hRow (hOnce hSettlesOnce) hClosed.inactive
      exact hSold.withAuctions rfl fun id row hRow hInactive => ⟨row, hRow, hInactive⟩

end OnceKept

/-- As long as no session that loaded an active lot is granted its lock after
the lot was settled, no lot is paid for, credited or charged commission for
more than once. -/
theorem settles_once {percent : CommissionPercent} {categories : List Nat} {c : Config market}
    (run : Reaches (handle percent) SettlesOnce (Db.initial categories) c) (auctionId : LotId) :
    SettledOnce c.db auctionId := by
  have run' : Reaches (handle percent) (Assumptions.ok ⟨False, True, False⟩)
      (Db.initial categories) c := run.weaken fun _ _ _ h => ⟨nofun, fun _ => h, nofun⟩
  have hKept : OnceKept c.db := invariant_of_commits (.of_initial categories)
    (fun _ hKept hCommit => hKept.commit trivial hCommit) run'
  exact hKept.once auctionId

theorem settles_once_firstSale : ∃ c : Config market,
    c.db.countRows 0 buyerDebits = 1 ∧ SettledOnce c.db 0 := by
  obtain ⟨c, run, hSold⟩ := exists_reaches (handle defaultCommission) SettlesOnce (Db.initial [])
    firstSale (fun c => c.db.countRows 0 buyerDebits = 1) (by decide +kernel)
  exact ⟨c, hSold, settles_once run 0⟩

/-- Two ticks load the lot before either has locked it. -/
def twoTicks : List (Action market Request) :=
  firstBid ++
    [.start 4 (.tick 0), .step 4, .clock 4 (minutes 10), .start 5 (.tick 0), .step 5,
      .clock 5 (minutes 10), .step 4, .clock 4 (minutes 10)] ++ steps 4 4 ++
    [.step 5, .clock 5 (minutes 10)] ++ steps 5 4

/-- The second tick charges the winner, credits the seller and withholds the
commission again. -/
theorem settles_twice : ¬∀ c : Config market,
    Reaches (handle defaultCommission) (fun _ _ _ => True) (Db.initial []) c →
      ∀ auctionId, SettledOnce c.db auctionId := by
  intro hOnce
  obtain ⟨c, run, hTwice⟩ := exists_reaches (handle defaultCommission) (fun _ _ _ => True)
    (Db.initial []) twoTicks (fun c => c.db.countRows 0 buyerDebits = 2) (by decide +kernel)
  have hDebits := (hOnce c run 0).1
  omega

end OnlineAuction
