import OnlineAuction.Library.Extension
import OnlineAuction.Library.Typestate
import OnlineAuction.Market.FrozenLots

/-! Reviews of sellers: `app/routers/reviews.py`. `create_review` checks the sale
in an unlocked read and inserts later, while the lots go on. -/

namespace OnlineAuction

open RowLocks

variable {percent : CommissionPercent}

structure Review where
  id : Nat
  sellerId : UserId
  reviewerId : UserId
  auctionId : LotId
  rating : Nat
  comment : Option String
  createdAt : Time
  deriving DecidableEq

/-- `Field(ge=1, le=5)` and `Field(default=None, max_length=REVIEW_COMMENT_MAX)`. -/
structure ReviewCreate where
  sellerId : UserId
  auctionId : LotId
  rating : {n : Nat // 1 ≤ n ∧ n ≤ 5}
  comment : Option {comment : String // comment.length ≤ 1000}

/-- The foreign keys of `reviews` and `ck_reviews_rating_range`. -/
def Review.admits (d : Db) (review : Review) : Bool :=
  (d.users.get review.sellerId).isSome && (d.users.get review.reviewerId).isSome &&
    (d.auctions.get review.auctionId).isSome && decide (1 ≤ review.rating ∧ review.rating ≤ 5)

/-- `uq_reviews_one_per_auction`. -/
def Review.conflicts (review other : Review) : Bool :=
  decide (review.reviewerId = other.reviewerId ∧ review.auctionId = other.auctionId)

def reviewsAdmit (d : Db) (reviews : Table Review) : Bool :=
  ((List.range reviews.serial).all fun id => (reviews.get id).all (Review.admits d)) &&
    (List.range reviews.serial).all fun id => (List.range reviews.serial).all fun id' =>
      decide (id = id') || (reviews.get id).all fun review =>
        (reviews.get id').all fun other => !review.conflicts other

abbrev shop : Store := market.extend (Table Review) reviewsAdmit

/-- `commit_or_409`. -/
def commitOr409 (write : Db × Table Review → Db × Table Review) (detail : String) :
    Prog shop (Db × Table Review) :=
  .commit none write fun done => Prog.orRaise done ⟨400, detail⟩

/-- `ensure_seller_exists`. -/
def ensureSellerExists (sellerId : UserId) : Prog market Unit := do
  Prog.raiseIf ((← query fun d => d.users.get sellerId) = none) ⟨404, "Продавец не найден"⟩

/-- The lot that the user has bought of the seller. -/
def qualifying (userId : UserId) (data : ReviewCreate) (d : Db) : Option Auction :=
  (d.auctions.get data.auctionId).filter fun row =>
    row.createdBy = data.sellerId ∧ row.winnerId = some userId ∧ row.isCompleted

def reviewedAlready : String := "Вы уже оставили отзыв на этот аукцион"

def findReview (reviews : Table Review) (userId : UserId) (auctionId : LotId) : Option Review :=
  ((List.range reviews.serial).filterMap reviews.get).find? fun review =>
    review.reviewerId = userId ∧ review.auctionId = auctionId

def newReview (userId : UserId) (data : ReviewCreate) (createdAt : Time) (id : Nat) : Review where
  id := id
  sellerId := data.sellerId
  reviewerId := userId
  auctionId := data.auctionId
  rating := data.rating.val
  comment := data.comment.map (·.val)
  createdAt := createdAt

/-- `POST /api/reviews`; returns the id of the review. The default of `Review.created_at`
is evaluated when the insert is flushed. -/
def createReview (userId : UserId) (data : ReviewCreate) : Prog shop Nat := do
  let _ ← (getCurrentUser userId).extend
  Prog.raiseIf (data.sellerId = userId) ⟨400, "Нельзя оставить отзыв о себе"⟩
  (ensureSellerExists data.sellerId).extend
  let sale ← (query (qualifying userId data)).extend
  Prog.raiseIf (sale = none)
    ⟨403, "Можно оставить отзыв только продавцу, у которого вы что-то выиграли"⟩
  let written ← Prog.read none fun s : Db × Table Review =>
    .pure (findReview s.2 userId data.auctionId)
  Prog.raiseIf (written ≠ none) ⟨400, reviewedAlready⟩
  let createdAt ← utcnow.extend
  let inserted ← commitOr409 (fun s => (s.1, s.2.add (newReview userId data createdAt)))
    reviewedAlready
  pure (inserted.2.serial - 1)

def reviewEditWindow : Time := hours 24

/-- `DELETE /api/reviews/{review_id}`. -/
def deleteReview (userId : UserId) (reviewId : Nat) : Prog shop Unit := do
  let _ ← (getCurrentUser userId).extend
  let found ← Prog.read none fun s : Db × Table Review => .pure (s.2.get reviewId)
  let review ← Prog.orRaise found ⟨404, "Отзыв не найден"⟩
  Prog.raiseIf (review.reviewerId ≠ userId) ⟨403, "Это не ваш отзыв"⟩
  Prog.raiseIf (reviewEditWindow < (← utcnow.extend) - review.createdAt)
    ⟨400, "Отзыв нельзя удалить - окно редактирования истекло"⟩
  let _ ← Prog.commit none (fun s => (s.1, s.2.erase reviewId)) fun done =>
    Prog.orRaise done internalServerError

inductive ShopRequest where
  | market (request : Request)
  | createReview (userId : UserId) (data : ReviewCreate)
  | deleteReview (userId : UserId) (reviewId : Nat)

def handleShop (percent : CommissionPercent) : ShopRequest → Prog shop Unit
  | .market request => (handle percent request).extend
  | .createReview userId data => do let _ ← createReview userId data
  | .deleteReview userId reviewId => deleteReview userId reviewId

def Sale (d : Db) (id : LotId) (seller buyer : UserId) : Prop :=
  ∃ row, d.auctions.get id = some row ∧ row.isCompleted = true ∧ row.winnerId = some buyer ∧
    row.createdBy = seller

/-- No transaction undoes a sale. -/
theorem Sale.commit {request : Request} {held : Held market} {d d' : Db} {id : LotId}
    {seller buyer : UserId} (h : Sale d id seller buyer) (hWell : WellFormed .none d)
    (hStanding : Standing d) (hCommit : Commit percent .none request held d d') :
    Sale d' id seller buyer := by
  obtain ⟨row, hRow, hCompleted, hWinner, hCreator⟩ := h
  have hChange := LotChange.of_commit hWell hCommit id
  have hStands := hStanding id
  rw [hRow] at hChange hStands
  obtain ⟨row', hRow', hSame⟩ := (hChange.final hStands hCompleted).some
  obtain ⟨old, hOld, hCreator'⟩ :=
    (SameCreators.of_commit hCommit).2 id (Table.lt_serial hRow) row' hRow'
  obtain rfl := Option.some.inj (hRow.symm.trans hOld)
  exact ⟨row', hRow', hSame.isCompleted.trans hCompleted, hSame.winnerId.trans hWinner,
    hCreator'.trans hCreator⟩

def Review.Grounded (d : Db) (review : Review) : Prop :=
  Sale d review.auctionId review.sellerId review.reviewerId

/-- Every review is of a sale. A session may add a review of a sale, or take one
away. -/
def reviewing (percent : CommissionPercent) : (rules percent .none).Extension (Table Review) where
  inv d reviews := Standing d ∧ ∀ id review, reviews.get id = some review → review.Grounded d
  may d reviews reviews' :=
    (∃ row : Nat → Review, reviews' = reviews.add row ∧ (row reviews.serial).Grounded d) ∨
      ∃ id, reviews' = reviews.erase id
  inv_base hWell hMay hInv := by
    obtain ⟨request, hCommit⟩ := hMay
    exact ⟨hInv.1.commit hWell hCommit, fun id review hReview =>
      (hInv.2 id review hReview).commit hWell hInv.1 hCommit⟩
  inv_may hWell hInv hMay := by
    refine ⟨hInv.1, fun id review hReview => ?_⟩
    rcases hMay with ⟨row, rfl, hSale⟩ | ⟨other, rfl⟩
    · rcases Table.of_get_add hReview with ⟨hId, rfl⟩ | hReview
      · exact hId ▸ hSale
      · exact hInv.2 id review hReview
    · rw [Table.get_erase, Option.ite_none_left_eq_some] at hReview
      exact hInv.2 id review hReview.2

def shopRules (percent : CommissionPercent) : Discipline shop :=
  (rules percent .none).extend (reviewing percent) reviewsAdmit

/-- The reviews are written in commits alone. -/
def shopPromise (percent : CommissionPercent) : ShopRequest → (shopRules percent).Promise
  | .market request => (promise percent .none request).extend
  | _ =>
      { does := fun e _ s s' => (∃ note, e = .commit note) ∧ s'.1 = s.1 ∧
          (reviewing percent).may s.1 s.2 s'.2
        may_of_does := fun hDoes => .inr hDoes.2 }

section Contracts

variable {α : Type} {request : ShopRequest} {held : Held shop} {s : Db × Table Review}

/-- A sale stands whatever the other sessions do. -/
theorem Sale.rely {s' : Db × Table Review} {id : LotId} {seller buyer : UserId}
    (h : Sale s.1 id seller buyer) (hRely : (shopRules percent).Rely held s s') :
    Sale s'.1 id seller buyer := by
  have hKept : Sale s.1 id seller buyer → Sale s'.1 id seller buyer := by
    apply hRely.lift (r := fun s s' : Db × Table Review =>
      Sale s.1 id seller buyer → Sale s'.1 id seller buyer)
    · exact fun _ h => h
    · exact fun h h' hSale => h' (h hSale)
    · intro s s' hStep hSale
      obtain ⟨other, _, hInv, hMay⟩ := hStep
      rcases hMay with ⟨⟨request, hCommit⟩, _⟩ | ⟨hSame, _⟩
      · exact hSale.commit hInv.1 hInv.2.1 hCommit
      · rw [hSame]
        exact hSale
  exact hKept h

/-- The token check reads the market half of the state. -/
theorem extend_getCurrentUser (userId : UserId) :
    ((getCurrentUser userId).extend : Prog shop User) = Prog.read (S := shop) none fun s =>
      Prog.orRaise (S := shop) (s.1.users.get userId) ⟨401, "User not found"⟩ := by
  show Prog.read (S := shop) none (fun s => (Prog.orRaise (s.1.users.get userId) _).extend) = _
  simp only [Prog.extend_orRaise]

/-- The lookup of the seller reads the market half of the state. -/
theorem extend_ensureSellerExists (sellerId : UserId) :
    ((ensureSellerExists sellerId).extend : Prog shop Unit) = Prog.read (S := shop) none fun s =>
      Prog.raiseIf (S := shop) (s.1.users.get sellerId = none) ⟨404, "Продавец не найден"⟩ := by
  show Prog.read (S := shop) none (fun s =>
    (Prog.raiseIf (s.1.users.get sellerId = none) _).extend) = _
  simp only [Prog.extend_raiseIf]

/-- The lot that qualifies for a review was sold by the seller to the reviewer. -/
theorem qualifying_sale {userId : UserId} {data : ReviewCreate} {d : Db}
    (h : qualifying userId data d ≠ none) : Sale d data.auctionId data.sellerId userId := by
  obtain ⟨row, hRow⟩ := Option.ne_none_iff_exists'.mp h
  obtain ⟨hStored, hSold⟩ := Option.filter_eq_some_iff.mp hRow
  obtain ⟨hCreator, hWinner, hCompleted⟩ := of_decide_eq_true hSold
  exact ⟨row, hStored, hCompleted, hWinner, hCreator⟩

/-- A review is written only on a sale that was found. -/
theorem createReview_safe (userId : UserId) (data : ReviewCreate) :
    ((shopRules percent).promising (shopPromise percent (.createReview userId data))).wp
      (createReview userId data) Held.none (fun _ _ _ => True) s := by
  unfold createReview
  rw [Discipline.wp_bind, extend_getCurrentUser]
  intro s₁ _ _ _
  rw [Discipline.wp_orRaise]
  intro user _
  rw [Discipline.wp_bind, Discipline.wp_raiseIf]
  intro _
  rw [Discipline.wp_bind, extend_ensureSellerExists]
  intro s₂ _ _ _
  rw [Discipline.wp_raiseIf]
  intro _
  rw [Discipline.wp_bind]
  intro s₃ _ _ _
  show Discipline.wp _ (Prog.raiseIf (qualifying userId data s₃.1 = none) _ >>= _) _ _ _
  rw [Discipline.wp_bind, Discipline.wp_raiseIf]
  intro hSale
  have hSale₃ := qualifying_sale hSale
  rw [Discipline.wp_bind]
  intro s₄ hRely₄ _ _
  show Discipline.wp _ (Prog.raiseIf (findReview s₄.2 userId data.auctionId ≠ none) _ >>= _) _ _ _
  rw [Discipline.wp_bind, Discipline.wp_raiseIf]
  intro _
  rw [Discipline.wp_bind]
  intro s₅ createdAt hRely₅ _ _ _
  show Discipline.wp _ (commitOr409 _ _ >>= _) _ _ _
  rw [Discipline.wp_bind]
  intro s₆ hRely₆ _
  refine ⟨fun _ => ⟨⟨⟨none, rfl⟩, rfl, .inl ⟨_, rfl, ?_⟩⟩, trivial⟩, trivial⟩
  exact ((hSale₃.rely hRely₄).rely hRely₅).rely (s := (s₅.1, s₅.2)) hRely₆

/-- A deletion leaves the other reviews on their sales. -/
theorem deleteReview_safe (userId : UserId) (reviewId : Nat) :
    ((shopRules percent).promising (shopPromise percent (.deleteReview userId reviewId))).wp
      (deleteReview userId reviewId) Held.none (fun _ _ _ => True) s := by
  unfold deleteReview
  rw [Discipline.wp_bind, extend_getCurrentUser]
  intro s₁ _ _ _
  rw [Discipline.wp_orRaise]
  intro user _
  rw [Discipline.wp_bind]
  intro s₂ _ _ _
  show Discipline.wp _ (Prog.orRaise (s₂.2.get reviewId) _ >>= _) _ _ _
  rw [Discipline.wp_bind, Discipline.wp_orRaise]
  intro review _
  rw [Discipline.wp_bind, Discipline.wp_raiseIf]
  intro _
  rw [Discipline.wp_bind]
  intro s₃ now _ _ _ _
  show Discipline.wp _ (Prog.raiseIf (reviewEditWindow < now - review.createdAt) _ >>= _) _ _ _
  rw [Discipline.wp_bind, Discipline.wp_raiseIf]
  intro _ s₄ _ _
  exact ⟨fun _ => ⟨⟨⟨none, rfl⟩, rfl, .inr ⟨reviewId, rfl⟩⟩, trivial⟩, trivial⟩

theorem handleShop_safe (request : ShopRequest) :
    ((shopRules percent).promising (shopPromise percent request)).Safe (handleShop percent request)
      Held.none s := by
  cases request with
  | market request =>
      have hSafe : ((rules percent .none).promising (promise percent .none request)).Safe
          (handle percent request) Held.none s.1 := handle_safe request
      exact Discipline.wp_extend hSafe s.2
  | createReview userId data =>
      exact (Discipline.wp_bind _ _ _ _ _ _).mpr (createReview_safe userId data)
  | deleteReview userId reviewId => exact deleteReview_safe userId reviewId

end Contracts

/-- `uq_reviews_one_per_auction`, of the stored rows. -/
def Unique (reviews : Table Review) : Prop :=
  ∀ id id' review other, reviews.get id = some review → reviews.get id' = some other →
    review.conflicts other = true → id = id'

/-- The unique constraint allows one review for each reviewer and lot. -/
theorem unique_of_admits {d : Db} {reviews : Table Review} (h : reviewsAdmit d reviews = true) :
    Unique reviews := by
  intro id id' review other hReview hOther hConflict
  have hPair := List.all_eq_true.mp (Bool.and_eq_true_iff.mp h).2 id
    (List.mem_range.mpr (Table.lt_serial hReview))
  have hBoth := List.all_eq_true.mp hPair id' (List.mem_range.mpr (Table.lt_serial hOther))
  simpa [hReview, hOther, hConflict] using hBoth

/-- Reviews come and go in commits alone, each of which the constraint admits. -/
theorem Unique.advance {requests : Nat → Option ShopRequest} {c c' : Config shop}
    {a : Action shop ShopRequest} (h : Unique c.db.2)
    (moves : advance (handleShop percent) c a = some c')
    (hOutcome : (shopRules percent).Outcome (shopPromise percent) requests c c' a) :
    Unique c'.db.2 := by
  cases hOutcome with
  | quiet hSame => exact hSame ▸ h
  | observed _ hDb => exact hDb ▸ h
  | committed hWritten =>
      exact unique_of_admits (Bool.and_eq_true_iff.mp (admits_of_written hWritten moves)).2
  | @updated sid note request _ _ hDoes =>
      cases request with
      | market request => exact hDoes.2 ▸ h
      | createReview => cases hDoes.1.choose_spec
      | deleteReview => cases hDoes.1.choose_spec

/-- In every reachable state each review is of a completed lot that the seller
has sold to the reviewer, and no lot has two. -/
theorem reviews_rest_on_sales (percent : CommissionPercent) (categories : List Nat)
    {c : Config shop} (run : Reaches (handleShop percent) (fun _ _ _ => True)
      ((Db.initial categories, Table.empty) : Db × Table Review) c) :
    (∀ id review, c.db.2.get id = some review → review.reviewerId ≠ review.sellerId ∧
      ∃ row, c.db.1.auctions.get review.auctionId = some row ∧ row.isCompleted = true ∧
        row.winnerId = some review.reviewerId ∧ row.createdBy = review.sellerId) ∧
    ∀ id id' review other, c.db.2.get id = some review → c.db.2.get id' = some other →
      review.auctionId = other.auctionId → id = id' := by
  have hReached : (∃ requests, (shopRules percent).Valid (shopPromise percent) requests c) ∧
      Unique c.db.2 := by
    apply run.invariant (I := fun c =>
      (∃ requests, (shopRules percent).Valid (shopPromise percent) requests c) ∧ Unique c.db.2)
    · refine ⟨⟨fun _ => none, .initial ⟨.of_initial .none categories, .initial categories, ?_⟩⟩, ?_⟩
      · intro id review hReview
        cases hReview
      · intro id id' review other hReview
        cases hReview
    · intro c c' a hBoth moves _
      obtain ⟨⟨requests, hValid⟩, hUnique⟩ := hBoth
      obtain ⟨hValid', hOutcome⟩ := hValid.advance (fun request _ _ => handleShop_safe request) moves
        fun sid e _ => Assumptions.none_ok _ _ e.base
      exact ⟨⟨_, hValid'⟩, hUnique.advance moves hOutcome⟩
  obtain ⟨⟨requests, hValid⟩, hUnique⟩ := hReached
  obtain ⟨_, hStanding, hGrounded⟩ := hValid.inv
  refine ⟨fun id review hReview => ?_, fun id id' review other hReview hOther hLot => ?_⟩
  · obtain ⟨row, hRow, hCompleted, hWinner, hCreator⟩ := hGrounded id review hReview
    refine ⟨?_, row, hRow, hCompleted, hWinner, hCreator⟩
    have hStands := hStanding review.auctionId
    rw [hRow] at hStands
    exact hCreator ▸ (hStands.decided.winner review.reviewerId hWinner).2
  · obtain ⟨row, hRow, _, hWinner, _⟩ := hGrounded id review hReview
    obtain ⟨row', hRow', _, hWinner', _⟩ := hGrounded id' other hOther
    rw [← hLot, hRow, Option.some.injEq] at hRow'
    subst hRow'
    have hReviewer := Option.some.inj (hWinner.symm.trans hWinner')
    exact hUnique id id' review other hReview hOther (decide_eq_true ⟨hReviewer, hLot⟩)

def fiveStars : ReviewCreate where
  sellerId := 0
  auctionId := 0
  rating := ⟨5, by decide⟩
  comment := none

/-- The action of a session of the marketplace. -/
def Action.shop : Action market Request → Action shop ShopRequest
  | .start sid request => .start sid (.market request)
  | .step sid => .step sid
  | .clock sid t => .clock sid t
  | .reject sid => .reject sid
  | .close sid => .close sid

/-- User 1 reviews the chair once it has been settled. -/
def firstReview : List (Action shop ShopRequest) :=
  firstSale.map Action.shop ++
    [.start 5 (.createReview 1 fiveStars), .step 5, .step 5, .step 5, .step 5, .clock 5 (minutes 11),
      .step 5]

/-- The review of the chair was written by the one who won it. -/
theorem reviews_rest_on_sales_chair : ∃ c : Config shop, c.db.2.serial = 1 ∧
    ∀ review, c.db.2.get 0 = some review → ∃ row,
      c.db.1.auctions.get review.auctionId = some row ∧
        row.winnerId = some review.reviewerId := by
  obtain ⟨c, run, hSerial⟩ := exists_reaches (handleShop defaultCommission) (fun _ _ _ => True)
    ((Db.initial [], Table.empty) : Db × Table Review) firstReview (fun c => c.db.2.serial = 1)
    (by decide +kernel)
  refine ⟨c, hSerial, fun review hReview => ?_⟩
  obtain ⟨_, row, hRow, _, hWinner, _⟩ :=
    (reviews_rest_on_sales defaultCommission [] run).1 0 review hReview
  exact ⟨row, hRow, hWinner⟩

end OnlineAuction
