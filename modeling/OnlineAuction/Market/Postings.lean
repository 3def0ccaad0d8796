import OnlineAuction.Market.Handlers

/-! The ledger as it is meant: a posting adds a signed amount to the committed
balance and records the balance after it. The absolute balances a session
writes from its locked copies amount to the same postings. -/

namespace OnlineAuction

structure Posting where
  userId : UserId
  delta : Money
  type : TransactionType
  description : String
  auctionId : Option LotId

def Posting.entry (p : Posting) (id : Nat) (balance : Money) : Transaction :=
  ⟨id, p.userId, p.type, |p.delta|, balance + p.delta, p.description, p.auctionId⟩

namespace Db

/-- Add the amount to the stored balance and append the ledger row. -/
def post (d : Db) (p : Posting) : Db :=
  match d.users.get p.userId with
  | none => d
  | some user =>
      { d with
        users := d.users.modify p.userId fun row => { row with balance := row.balance + p.delta }
        transactions := d.transactions ++ [p.entry d.transactionSerial user.balance]
        transactionSerial := d.transactionSerial + 1 }

def postAll (d : Db) (postings : List Posting) : Db := postings.foldl post d

@[simp] theorem postAll_nil (d : Db) : d.postAll [] = d := rfl

@[simp] theorem postAll_cons (d : Db) (p : Posting) (rest : List Posting) :
    d.postAll (p :: rest) = (d.post p).postAll rest := rfl

/-- A posting for a user who does not exist does nothing. -/
theorem post_none {d : Db} {p : Posting} (h : d.users.get p.userId = none) : d.post p = d := by
  simp [post, h]

/-- A posting writes the new balance and one row of the ledger. -/
theorem post_some {d : Db} {p : Posting} {user : User} (h : d.users.get p.userId = some user) :
    d.post p =
      { d with
        users := d.users.modify p.userId fun row => { row with balance := row.balance + p.delta }
        transactions := d.transactions ++ [p.entry d.transactionSerial user.balance]
        transactionSerial := d.transactionSerial + 1 } := by
  simp [post, h]

@[simp] theorem post_auctions (d : Db) (p : Posting) : (d.post p).auctions = d.auctions := by
  unfold post
  split <;> rfl

@[simp] theorem post_images (d : Db) (p : Posting) : (d.post p).images = d.images := by
  unfold post
  split <;> rfl

@[simp] theorem post_bids (d : Db) (p : Posting) : (d.post p).bids = d.bids := by
  unfold post
  split <;> rfl

@[simp] theorem post_bidSerial (d : Db) (p : Posting) : (d.post p).bidSerial = d.bidSerial := by
  unfold post
  split <;> rfl

@[simp] theorem post_lastReading (d : Db) (p : Posting) :
    (d.post p).lastReading = d.lastReading := by
  unfold post
  split <;> rfl

@[simp] theorem post_settlements (d : Db) (p : Posting) :
    (d.post p).settlements = d.settlements := by
  unfold post
  split <;> rfl

theorem get_post_self {d : Db} {p : Posting} {user : User} (h : d.users.get p.userId = some user) :
    (d.post p).users.get p.userId = some { user with balance := user.balance + p.delta } := by
  simp [post_some h, h]

theorem get_post_other (d : Db) {p : Posting} {id : UserId} (h : id ≠ p.userId) :
    (d.post p).users.get id = d.users.get id := by
  unfold post
  split
  · rfl
  · exact Table.get_modify_other _ _ h

/-- A property of databases that single postings keep. -/
theorem postAll_induction {I : Db → Prop} {postings : List Posting}
    (hStep : ∀ d, ∀ p ∈ postings, I d → I (d.post p)) {d : Db} (h : I d) :
    I (d.postAll postings) := by
  induction postings generalizing d with
  | nil => exact h
  | cons p rest ih =>
      exact ih (fun d q hq => hStep d q (List.mem_cons_of_mem _ hq)) (hStep d p (by simp) h)

/-- What single postings leave alone, any number of them does. -/
theorem postAll_same {α : Type} (f : Db → α) (hStep : ∀ d p, f (d.post p) = f d) (d : Db)
    (postings : List Posting) : f (d.postAll postings) = f d :=
  postAll_induction (I := fun e => f e = f d) (fun e p _ h => (hStep e p).trans h) rfl

@[simp] theorem postAll_auctions (d : Db) (postings : List Posting) :
    (d.postAll postings).auctions = d.auctions := postAll_same (·.auctions) (by simp) d postings

@[simp] theorem postAll_images (d : Db) (postings : List Posting) :
    (d.postAll postings).images = d.images := postAll_same (·.images) (by simp) d postings

@[simp] theorem postAll_bids (d : Db) (postings : List Posting) :
    (d.postAll postings).bids = d.bids := postAll_same (·.bids) (by simp) d postings

@[simp] theorem postAll_lastReading (d : Db) (postings : List Posting) :
    (d.postAll postings).lastReading = d.lastReading :=
  postAll_same (·.lastReading) (by simp) d postings

@[simp] theorem postAll_settlements (d : Db) (postings : List Posting) :
    (d.postAll postings).settlements = d.settlements :=
  postAll_same (·.settlements) (by simp) d postings

theorem get_postAll_other {d : Db} {postings : List Posting} {id : UserId}
    (h : ∀ p ∈ postings, id ≠ p.userId) : (d.postAll postings).users.get id = d.users.get id :=
  postAll_induction (I := fun e => e.users.get id = d.users.get id)
    (fun e p hp he => (get_post_other e (h p hp)).trans he) rfl

theorem isSome_postAll (d : Db) (postings : List Posting) (id : UserId) :
    ((d.postAll postings).users.get id).isSome = (d.users.get id).isSome := by
  refine postAll_same (fun e => (e.users.get id).isSome) (fun e p => ?_) d postings
  by_cases hId : id = p.userId
  · subst hId
    cases hRow : e.users.get p.userId with
    | none => rw [post_none hRow, hRow]
    | some row => rw [get_post_self hRow]; rfl
  · rw [get_post_other e hId]

end Db

namespace UnitOfWork

def apply (work : UnitOfWork) (p : Posting) : UnitOfWork :=
  work.applyBalanceDelta p.userId p.delta.toDecimal p.type p.description p.auctionId

/-- A unit of work does nothing for a user it has not loaded. -/
theorem apply_none {work : UnitOfWork} {p : Posting} (h : work.users p.userId = none) :
    work.apply p = work := by
  simp [apply, applyBalanceDelta, h]

/-- A unit of work changes the loaded copy and keeps the row to insert. -/
theorem apply_some {work : UnitOfWork} {p : Posting} {user : User}
    (h : work.users p.userId = some user) :
    work.apply p =
      { users := Function.update work.users p.userId
          (some { user with balance := user.balance + p.delta })
        added := work.added ++ [⟨p.userId, p.type, p.delta.toDecimal.abs, user.balance + p.delta,
          p.description, p.auctionId⟩] } := by
  simp [apply, applyBalanceDelta, h, quantizeMoney_add]

@[simp] theorem isSome_apply (work : UnitOfWork) (p : Posting) (id : UserId) :
    ((work.apply p).users id).isSome = (work.users id).isSome := by
  cases h : work.users p.userId with
  | none => rw [apply_none h]
  | some user =>
      rw [apply_some h]
      by_cases hId : id = p.userId
      · subst hId
        simp [h]
      · simp [hId]

end UnitOfWork

namespace Db

/-- Applying a delta to the session's copy and flushing it is the posting on
what was flushed before. -/
theorem flushWork_apply {d : Db} {work : UnitOfWork} {p : Posting}
    (h : (work.users p.userId).isSome = (d.users.get p.userId).isSome) :
    d.flushWork (work.apply p) = (d.flushWork work).post p := by
  cases hUser : work.users p.userId with
  | none =>
      have hRow : d.users.get p.userId = none := by simpa [hUser] using h.symm
      rw [UnitOfWork.apply_none hUser, post_none (by simp [flushWork, hRow])]
  | some user =>
      obtain ⟨row, hRow⟩ := Option.isSome_iff_exists.mp (by simpa [hUser] using h.symm)
      have hFlushed : (d.flushWork work).users.get p.userId =
          some { row with balance := user.balance } := by
        simp [flushWork, hRow, hUser]
      rw [UnitOfWork.apply_some hUser, post_some hFlushed]
      ext1
      · apply Table.ext
        · funext id
          by_cases hId : id = p.userId
          · subst hId
            simp [flushWork, hRow, hUser]
          · rw [Table.get_modify_other _ _ hId]
            simp [flushWork, hId]
        · rfl
      all_goals simp [flushWork, NewTransaction.row, Posting.entry, List.mapIdx_append, Nat.add_assoc]

/-- Flushing a unit of work is posting what was applied to it, when it has
loaded the users concerned. -/
theorem flushWork_postings {d : Db} {postings : List Posting} {work : UnitOfWork}
    (h : ∀ p ∈ postings, (work.users p.userId).isSome = (d.users.get p.userId).isSome) :
    d.flushWork (postings.foldl UnitOfWork.apply work) = (d.flushWork work).postAll postings := by
  induction postings generalizing work with
  | nil => rfl
  | cons p rest ih =>
      rw [List.foldl_cons, postAll_cons, ← flushWork_apply (h p (by simp))]
      exact ih fun q hq => by simpa using h q (List.mem_cons_of_mem _ hq)

/-- Flushing copies that equal their rows changes nothing. -/
theorem flushWork_fresh {d : Db} {users : UserId → Option User}
    (h : ∀ uid user, users uid = some user → d.users.get uid = some user) :
    d.flushWork ⟨users, []⟩ = d := by
  ext1
  · apply Table.ext
    · funext id
      simp only [flushWork, Table.get_mapRows]
      cases hRow : d.users.get id with
      | none => rfl
      | some row =>
          cases hUser : users id with
          | none => rfl
          | some user =>
              have hSame := h id user hUser
              rw [hRow, Option.some.injEq] at hSame
              simp [hSame]
    · rfl
  all_goals simp [flushWork]

end Db

/-- The seller's two postings: the gross price, and the commission if any. -/
def saleOf (percent : CommissionPercent) (seller : UserId) (gross : Money) (auctionId : LotId)
    (description : String) : List Posting :=
  ⟨seller, gross, .auctionSale, description, some auctionId⟩ ::
    if 0 < sellerCommission percent gross then
      [⟨seller, -sellerCommission percent gross, .commission,
        "Комиссия платформы " ++ percent.text ++ "%", some auctionId⟩]
    else []

/-- The buyer pays the price, the seller receives it. -/
def settlementOf (percent : CommissionPercent) (payment : TransactionType) (buyer seller : UserId)
    (price : Money) (auctionId : LotId) (bought sold : String) : List Posting :=
  ⟨buyer, -price, payment, bought, some auctionId⟩ :: saleOf percent seller price auctionId sold

/-- Crediting the seller is applying two postings: the price and the
commission. -/
theorem creditSeller_eq (percent : CommissionPercent) (work : UnitOfWork) (seller : UserId)
    (gross : Money) (auction : Auction) (description : String) :
    creditSeller percent work seller gross auction description =
      (saleOf percent seller gross auction.id description).foldl UnitOfWork.apply work := by
  unfold creditSeller saleOf
  simp only [quantizeMoney_toDecimal]
  split_ifs <;> rfl

end OnlineAuction
