import OnlineAuction.Library.Journals
import OnlineAuction.Market.Reviews

/-! Whether a review freezes. A deletion holds the clock against the `created_at`
of the row it deletes, which a review written anew does not inherit: reviews
freeze a day after the first one where nobody writes a second review of a lot,
and in general only there. -/

namespace OnlineAuction

open RowLocks

variable {percent : CommissionPercent}

structure ReviewContent where
  rating : Nat
  comment : Option String
  deriving DecidableEq

def Review.content (review : Review) : ReviewContent := ⟨review.rating, review.comment⟩

abbrev ReviewKey := UserId × LotId

def Review.key (review : Review) : ReviewKey := (review.reviewerId, review.auctionId)

def shownReview (reviews : Table Review) (key : ReviewKey) : Option ReviewContent :=
  (findReview reviews key.1 key.2).map Review.content

/-- The review that is found is stored under its key. -/
theorem findReview_some {reviews : Table Review} {key : ReviewKey} {review : Review}
    (h : findReview reviews key.1 key.2 = some review) :
    ∃ id, reviews.get id = some review ∧ review.key = key := by
  unfold findReview at h
  obtain ⟨id, _, hGet⟩ := List.mem_filterMap.mp (List.mem_of_find?_eq_some h)
  have hKey : review.reviewerId = key.1 ∧ review.auctionId = key.2 := by
    simpa using List.find?_some h
  exact ⟨id, hGet, Prod.ext hKey.1 hKey.2⟩

/-- A key under which no review is stored shows none. -/
theorem shownReview_none {reviews : Table Review} {key : ReviewKey}
    (h : ∀ id review, reviews.get id = some review → review.key ≠ key) :
    shownReview reviews key = none := by
  unfold shownReview
  cases hFound : findReview reviews key.1 key.2 with
  | none => rfl
  | some review =>
      obtain ⟨id, hGet, hKey⟩ := findReview_some hFound
      exact absurd hKey (h id review hGet)

/-- A stored review is the one that is shown. -/
theorem shownReview_of_get {reviews : Table Review} (hUnique : Unique reviews) {id : Nat}
    {review : Review} (hGet : reviews.get id = some review) :
    shownReview reviews review.key = some review.content := by
  unfold shownReview
  cases hFound : findReview reviews review.key.1 review.key.2 with
  | none =>
      have hMem : review ∈ (List.range reviews.serial).filterMap reviews.get :=
        List.mem_filterMap.mpr ⟨id, List.mem_range.mpr (Table.lt_serial hGet), hGet⟩
      have hNot := List.find?_eq_none.mp hFound review hMem
      simp [Review.key] at hNot
  | some found =>
      obtain ⟨other, hOther, hKey⟩ := findReview_some hFound
      have hConflict : found.conflicts review = true :=
        decide_eq_true ⟨congrArg Prod.fst hKey, congrArg Prod.snd hKey⟩
      obtain rfl := hUnique other id found review hOther hGet hConflict
      rw [hOther, Option.some.injEq] at hGet
      rw [hGet, Option.map_some]

/-- What is shown under a key depends on the rows of that key alone. -/
theorem shownReview_congr {reviews reviews' : Table Review} {key : ReviewKey}
    (hUnique : Unique reviews) (hUnique' : Unique reviews')
    (h : ∀ id review, review.key = key →
      (reviews'.get id = some review ↔ reviews.get id = some review)) :
    shownReview reviews' key = shownReview reviews key := by
  by_cases hStored : ∃ id review, reviews.get id = some review ∧ review.key = key
  · obtain ⟨id, review, hGet, rfl⟩ := hStored
    rw [shownReview_of_get hUnique hGet, shownReview_of_get hUnique' ((h id review rfl).mpr hGet)]
  · have hNone (id : Nat) (review : Review) (hGet : reviews.get id = some review) :
        review.key ≠ key := fun hKey => hStored ⟨id, review, hGet, hKey⟩
    rw [shownReview_none hNone, shownReview_none]
    intro id review hGet hKey
    exact hNone id review ((h id review hKey).mp hGet) hKey

/-- How far a session has come with a review. A deletion reads the user first and
the review then; `other` is any other session. -/
inductive Reviewing where
  | creating (userId : UserId) (data : ReviewCreate)
  | dated (userId : UserId) (data : ReviewCreate) (createdAt : Time)
  | deleting (reviewId : Nat)
  | authenticated (reviewId : Nat)
  | found (reviewId : Nat) (review : Review)
  | aged (reviewId : Nat) (review : Review) (now : Time)
  | other

namespace Reviewing

def begin : ShopRequest → Reviewing
  | .market _ => .other
  | .createReview userId data => .creating userId data
  | .deleteReview _ reviewId => .deleting reviewId

def after : Reviewing → Answer shop → Reviewing
  | .creating userId data, .clock createdAt => .dated userId data createdAt
  | .deleting reviewId, .read _ _ => .authenticated reviewId
  | .authenticated reviewId, .read _ s => match s.2.get reviewId with
      | some review => .found reviewId review
      | none => .other
  | .found reviewId review, .clock now => .aged reviewId review now
  | _, .committed _ _ => .other
  | _, .failed _ => .other
  | state, _ => state

def typestate : Typestate shop Reviewing where
  update state _ write := state = .other ∧ ∀ s, (write s).2 = s.2
  commit state _ write := match state with
    | .dated userId data createdAt => ∀ s, (write s).2 = s.2.add (newReview userId data createdAt)
    | .aged reviewId review now =>
        now - review.createdAt ≤ reviewEditWindow ∧ ∀ s, (write s).2 = s.2.erase reviewId
    | .other => ∀ s, (write s).2 = s.2
    | _ => False
  after := after

end Reviewing

/-- A write of a review: the reading of the clock it went by, and what it left
to be shown. -/
structure ReviewWrite where
  time : Time
  content : Option ReviewContent
  deriving DecidableEq

def Reviewing.entry : Reviewing → Answer shop → Option (ReviewKey × ReviewWrite)
  | .dated userId data createdAt, .committed _ _ => some ((userId, data.auctionId),
      ⟨createdAt, some (newReview userId data createdAt 0).content⟩)
  | .aged _ review now, .committed _ _ => some (review.key, ⟨now, none⟩)
  | _, _ => none

namespace Reviewing

/-- The requests of the market do not touch the reviews. -/
theorem extend_follows {α : Type} (p : Prog market α) :
    typestate.Follows (p.extend : Prog shop α) (fun _ state => state = .other) .other := by
  induction p with
  | pure => rfl
  | fail => trivial
  | read note next ih => exact fun s => ih s.1
  | lock key note next ih => exact ⟨trivial, fun s => ih s.1⟩
  | tryLock key note next ih => exact ⟨fun s => ih (some s.1), ih none⟩
  | clock note next ih => exact fun t => ih t
  | update note write next ih => exact ⟨⟨rfl, fun _ => rfl⟩, ih⟩
  | commit note write next ih => exact ⟨fun _ => rfl, fun s => ih (some s.1), ih none⟩

/-- `create_review` writes at most one review, after its last read of the
clock. -/
theorem createReview_follows (userId : UserId) (data : ReviewCreate) :
    typestate.Follows (createReview userId data) (fun _ _ => True) (.creating userId data) := by
  unfold createReview
  rw [Typestate.follows_bind, extend_getCurrentUser]
  intro _
  rw [Typestate.follows_orRaise]
  intro _ _
  rw [Typestate.follows_bind, Typestate.follows_raiseIf]
  intro _
  rw [Typestate.follows_bind, extend_ensureSellerExists]
  intro _
  rw [Typestate.follows_raiseIf]
  intro _
  rw [Typestate.follows_bind]
  intro s₁
  show typestate.Follows (Prog.raiseIf (qualifying userId data s₁.1 = none) _ >>= _) _ _
  rw [Typestate.follows_bind, Typestate.follows_raiseIf]
  intro _
  rw [Typestate.follows_bind]
  intro s₂
  show typestate.Follows (Prog.raiseIf (findReview s₂.2 userId data.auctionId ≠ none) _ >>= _) _ _
  rw [Typestate.follows_bind, Typestate.follows_raiseIf]
  intro _
  rw [Typestate.follows_bind]
  intro createdAt
  show typestate.Follows (commitOr409 _ _ >>= _) _ (.dated userId data createdAt)
  rw [Typestate.follows_bind]
  exact ⟨fun _ => rfl, fun _ => trivial, trivial⟩

/-- `delete_review` deletes the review it looked up, within the window it
checked. -/
theorem deleteReview_follows (userId : UserId) (reviewId : Nat) :
    typestate.Follows (deleteReview userId reviewId) (fun _ _ => True) (.deleting reviewId) := by
  unfold deleteReview
  rw [Typestate.follows_bind, extend_getCurrentUser]
  intro _
  rw [Typestate.follows_orRaise]
  intro _ _
  rw [Typestate.follows_bind]
  intro s
  show typestate.Follows (Prog.orRaise (s.2.get reviewId) _ >>= _) _
    (match s.2.get reviewId with
      | some review => .found reviewId review
      | none => .other)
  rw [Typestate.follows_bind, Typestate.follows_orRaise]
  intro review hGet
  rw [hGet, Typestate.follows_bind, Typestate.follows_raiseIf]
  intro _
  rw [Typestate.follows_bind]
  intro now
  show typestate.Follows (Prog.raiseIf (reviewEditWindow < now - review.createdAt) _ >>= _) _
    (.aged reviewId review now)
  rw [Typestate.follows_bind, Typestate.follows_raiseIf]
  intro hWindow
  exact ⟨⟨not_lt.mp hWindow, fun _ => rfl⟩, fun _ => trivial, trivial⟩

/-- No request strays from the outline of reviewing. -/
theorem handleShop_follows (request : ShopRequest) :
    typestate.Follows (handleShop percent request) (fun _ _ => True) (begin request) := by
  cases request with
  | market request => exact (extend_follows (handle percent request)).weaken fun _ _ _ => trivial
  | createReview userId data =>
      show typestate.Follows (createReview userId data >>= fun _ => pure ()) _ _
      rw [Typestate.follows_bind]
      exact createReview_follows userId data
  | deleteReview userId reviewId => exact deleteReview_follows userId reviewId

end Reviewing

/-- No write comes later than a day after the first. -/
def WithinWindow (writes : List ReviewWrite) : Prop :=
  ∀ first ∈ writes.head?, ∀ write ∈ writes, write.time ≤ first.time + reviewEditWindow

theorem head?_snoc {writes : List ReviewWrite} {first : ReviewWrite}
    (h : writes.head? = some first) (write : ReviewWrite) :
    (writes ++ [write]).head? = some first := by
  rw [List.head?_append, h, Option.some_or]

theorem withinWindow_nil : WithinWindow [] := by
  intro first hFirst
  cases hFirst

theorem withinWindow_singleton (write : ReviewWrite) : WithinWindow [write] := by
  intro first hFirst other hOther
  obtain rfl := Option.some.inj hFirst
  obtain rfl := List.mem_singleton.mp hOther
  exact Int.le_add_of_nonneg_right (by decide)

/-- A write within the window of the first review keeps all writes within it. -/
theorem WithinWindow.snoc {writes : List ReviewWrite} {first write : ReviewWrite} (h : WithinWindow writes)
    (hFirst : writes.head? = some first) (hTime : write.time ≤ first.time + reviewEditWindow) :
    WithinWindow (writes ++ [write]) := by
  intro other hOther new hNew
  rw [head?_snoc hFirst] at hOther
  obtain rfl := Option.some.inj hOther
  rcases List.mem_append.mp hNew with hOld | hLast
  · exact h first hFirst new hOld
  · rw [List.mem_singleton.mp hLast]
    exact hTime

/-- The writes of a review so far: the first is that of the row, the last is what
is shown. -/
structure Filed (reviews : Table Review) (writes : ReviewKey → List ReviewWrite) : Prop where
  unique : Unique reviews
  stored : ∀ id review, reviews.get id = some review →
    (writes review.key).head? = some ⟨review.createdAt, some review.content⟩
  shown : ∀ key, shownReview reviews key = (writes key).getLast?.bind ReviewWrite.content
  frozen : ∀ key, WithinWindow (writes key)

theorem filed_empty : Filed Table.empty fun _ => [] where
  unique := by
    intro id id' review other hReview
    cases hReview
  stored := by
    intro id review hReview
    cases hReview
  shown _ := rfl
  frozen _ := withinWindow_nil

/-- The row is the only one of its key, or gone. -/
def Sole (id : Nat) (review : Review) (reviews : Table Review) : Prop :=
  id < reviews.serial ∧ ∀ other row, reviews.get other = some row →
    other = id ∨ row.key = review.key → other = id ∧ row = review

section Tables

variable {reviews : Table Review} {writes : ReviewKey → List ReviewWrite} {id : Nat}
  {review : Review}

theorem Filed.none_of_unwritten (h : Filed reviews writes) {key : ReviewKey}
    (hUnwritten : writes key = []) {other : Nat} {row : Review}
    (hRow : reviews.get other = some row) : row.key ≠ key := by
  rintro rfl
  have hHead := h.stored other row hRow
  rw [hUnwritten] at hHead
  cases hHead

theorem Filed.sole (h : Filed reviews writes) (hGet : reviews.get id = some review) :
    Sole id review reviews := by
  refine ⟨Table.lt_serial hGet, fun other row hRow hSame => ?_⟩
  have hId : other = id := by
    rcases hSame with hId | hKey
    · exact hId
    · exact h.unique other id row review hRow hGet
        (decide_eq_true ⟨congrArg Prod.fst hKey, congrArg Prod.snd hKey⟩)
  subst hId
  exact ⟨rfl, Option.some.inj (hRow.symm.trans hGet)⟩

/-- Erasing another review leaves this one the only one of its key. -/
theorem Sole.erase (h : Sole id review reviews) (gone : Nat) :
    Sole id review (reviews.erase gone) := by
  refine ⟨h.1, fun other row hRow hSame => ?_⟩
  rw [Table.get_erase, Option.ite_none_left_eq_some] at hRow
  exact h.2 other row hRow.2 hSame

theorem Sole.add (h : Sole id review reviews) {row : Nat → Review}
    (hKey : (row reviews.serial).key ≠ review.key) : Sole id review (reviews.add row) := by
  refine ⟨h.1.trans (Nat.lt_succ_self _), fun other found hRow hSame => ?_⟩
  rcases Table.of_get_add hRow with ⟨hOther, rfl⟩ | hRow
  · rcases hSame with hId | hSameKey
    · exact absurd (hId.symm.trans hOther) h.1.ne
    · exact absurd hSameKey (hOther ▸ hKey)
  · exact h.2 other found hRow hSame

/-- A write of one review, which leaves the others as they are. -/
theorem Filed.push (h : Filed reviews writes) {reviews' : Table Review} {key : ReviewKey}
    {write : ReviewWrite} (hUnique : Unique reviews')
    (hOthers : ∀ id row, row.key ≠ key →
      (reviews'.get id = some row ↔ reviews.get id = some row))
    (hStored : ∀ id row, reviews'.get id = some row → row.key = key →
      (writes key ++ [write]).head? = some ⟨row.createdAt, some row.content⟩)
    (hShown : shownReview reviews' key = write.content)
    (hWindow : WithinWindow (writes key ++ [write])) :
    Filed reviews' (Journal.push writes (some (key, write))) := by
  constructor
  · exact hUnique
  · intro id row hRow
    rw [Journal.push_some]
    split_ifs with hKey
    · rw [hKey]
      exact hStored id row hRow hKey
    · exact h.stored id row ((hOthers id row hKey).mp hRow)
  · intro other
    rw [Journal.push_some]
    split_ifs with hKey
    · rw [hKey, hShown, List.getLast?_concat]
      rfl
    · rw [← h.shown other]
      apply shownReview_congr h.unique hUnique
      intro id row hRow
      exact hOthers id row (hRow ▸ hKey)
  · intro other
    rw [Journal.push_some]
    split_ifs with hKey
    · rw [hKey]
      exact hWindow
    · exact h.frozen other

/-- A new review of a key that has never been written. -/
theorem Filed.add (h : Filed reviews writes) {key : ReviewKey} (hUnwritten : writes key = [])
    {row : Nat → Review} (hKey : (row reviews.serial).key = key) :
    Filed (reviews.add row) (Journal.push writes (some (key,
      ⟨(row reviews.serial).createdAt, some (row reviews.serial).content⟩))) := by
  have hNew : (reviews.add row).get reviews.serial = some (row reviews.serial) := by
    rw [Table.get_add, if_pos rfl]
  have hUnique : Unique (reviews.add row) := by
    intro id id' review other hReview hOther hConflict
    obtain ⟨hReviewer, hAuction⟩ := of_decide_eq_true hConflict
    have hSame : review.key = other.key := Prod.ext hReviewer hAuction
    rw [Table.get_add] at hReview hOther
    split_ifs at hReview hOther with hId hId' hId'
    · rw [hId, hId']
    · obtain rfl := Option.some.inj hReview
      exact absurd (hSame.symm.trans (hId ▸ hKey)) (h.none_of_unwritten hUnwritten hOther)
    · obtain rfl := Option.some.inj hOther
      exact absurd (hSame.trans (hId' ▸ hKey)) (h.none_of_unwritten hUnwritten hReview)
    · exact h.unique id id' review other hReview hOther hConflict
  apply h.push hUnique
  · intro id other hOther
    rw [Table.get_add]
    split_ifs with hId
    · constructor
      · intro hRow
        obtain rfl := Option.some.inj hRow
        exact absurd (hId ▸ hKey) hOther
      · intro hRow
        exact absurd hId (Table.lt_serial hRow).ne
    · rfl
  · intro id other hRow hOther
    rcases Table.of_get_add hRow with ⟨hId, rfl⟩ | hRow
    · rw [hId, hUnwritten]
      rfl
    · exact absurd hOther (h.none_of_unwritten hUnwritten hRow)
  · rw [← hKey, shownReview_of_get hUnique hNew]
  · rw [hUnwritten]
    exact withinWindow_singleton _

/-- A deletion within a day of the first write. -/
theorem Filed.erase (h : Filed reviews writes) (hSole : Sole id review reviews) {now : Time}
    (hHead : (writes review.key).head? = some ⟨review.createdAt, some review.content⟩)
    (hWindow : now - review.createdAt ≤ reviewEditWindow) :
    Filed (reviews.erase id) (Journal.push writes (some (review.key, ⟨now, none⟩))) := by
  have hKept {other : Nat} {row : Review} (hRow : (reviews.erase id).get other = some row) :
      other ≠ id ∧ reviews.get other = some row := by
    rwa [Table.get_erase, Option.ite_none_left_eq_some] at hRow
  have hGone {other : Nat} {row : Review} (hRow : (reviews.erase id).get other = some row) :
      row.key ≠ review.key := fun hKey =>
    (hKept hRow).1 (hSole.2 other row (hKept hRow).2 (.inr hKey)).1
  have hUnique : Unique (reviews.erase id) := by
    intro i j row other hRow hOther hConflict
    exact h.unique i j row other (hKept hRow).2 (hKept hOther).2 hConflict
  apply h.push hUnique
  · intro other row hKey
    rw [Table.get_erase, Option.ite_none_left_eq_some]
    apply and_iff_right_of_imp
    intro hRow hId
    rw [(hSole.2 other row hRow (.inl hId)).2] at hKey
    exact hKey rfl
  · exact fun other row hRow hKey => absurd hKey (hGone hRow)
  · exact shownReview_none fun other row hRow => hGone hRow
  · exact (h.frozen review.key).snoc hHead (sub_le_iff_le_add'.mp hWindow)

end Tables

abbrev Reviewed := Config shop × Journal Reviewing ReviewKey ReviewWrite

def Reviewed.initial (categories : List Nat) : Reviewed :=
  (.initial ((Db.initial categories, Table.empty) : Db × Table Review), .empty)

def review (percent : CommissionPercent) :
    Reviewed → Action shop ShopRequest → Option Reviewed :=
  Runs.recording (advance (handleShop percent))
    (Journal.record Reviewing.typestate Reviewing.begin Reviewing.entry)

/-- Nobody writes a review of a lot again. -/
def once : Reviewing → Answer shop → (ReviewKey → List ReviewWrite) → Bool
  | .dated userId data _, .committed _ _, writes => (writes (userId, data.auctionId)).isEmpty
  | _, _, _ => true

def Reviewing.stored? : Reviewing → Option (Nat × Review)
  | .found id review => some (id, review)
  | .aged id review _ => some (id, review)
  | _ => none

/-- A review that a session has read was written first of its key. -/
def Read (state : Reviewing) (_ : Held shop) (s : Db × Table Review)
    (writes : ReviewKey → List ReviewWrite) : Prop :=
  ∀ id review, state.stored? = some (id, review) → Sole id review s.2 ∧
    (writes review.key).head? = some ⟨review.createdAt, some review.content⟩

inductive Rewritten (state : Reviewing) (answer : Answer shop) (reviews reviews' : Table Review)
    (writes : ReviewKey → List ReviewWrite) : Prop where
  | silent (hNone : state.entry answer = none) (hSame : reviews' = reviews)
  | added (userId : UserId) (data : ReviewCreate) (createdAt : Time)
      (hState : state = .dated userId data createdAt)
      (hEntry : state.entry answer = some ((userId, data.auctionId),
        ⟨createdAt, some (newReview userId data createdAt 0).content⟩))
      (hUnwritten : writes (userId, data.auctionId) = [])
      (hReviews : reviews' = reviews.add (newReview userId data createdAt))
  | erased (id : Nat) (review : Review) (now : Time) (hState : state = .aged id review now)
      (hEntry : state.entry answer = some (review.key, ⟨now, none⟩))
      (hWindow : now - review.createdAt ≤ reviewEditWindow) (hReviews : reviews' = reviews.erase id)

section Outline

variable {c c' : Config shop} {sid : Nat} {state : Reviewing} {answer : Answer shop}
  {writes : ReviewKey → List ReviewWrite}

/-- A step rewrites the reviews as its answer is entered in the journal. -/
theorem Rewritten.of_told (hTold : Reviewing.typestate.Told c c' sid state answer)
    (hOnce : once state answer writes = true) :
    Rewritten state answer c.db.2 c'.db.2 writes := by
  cases hTold with
  | read _ hDb => exact .silent (by cases state <;> rfl) (congrArg Prod.snd hDb)
  | locked _ _ hDb => exact .silent (by cases state <;> rfl) (congrArg Prod.snd hDb)
  | refused _ hDb => exact .silent (by cases state <;> rfl) (congrArg Prod.snd hDb)
  | clock _ _ hDb => exact .silent (by cases state <;> rfl) (by rw [hDb])
  | failed _ hDb => exact .silent (by cases state <;> rfl) (congrArg Prod.snd hDb)
  | updated note write hMay hDb =>
      obtain ⟨rfl, hKeeps⟩ := hMay
      exact .silent rfl ((congrArg Prod.snd hDb).trans (hKeeps c.db))
  | committed note write hMay hDb =>
      rw [hDb]
      cases state with
      | dated userId data createdAt =>
          exact .added userId data createdAt rfl rfl (List.isEmpty_iff.mp hOnce) (hMay c.db)
      | aged id review now => exact .erased id review now rfl rfl hMay.1 (hMay.2 c.db)
      | other => exact .silent rfl (hMay c.db)
      | creating => exact absurd hMay id
      | deleting => exact absurd hMay id
      | authenticated => exact absurd hMay id
      | found => exact absurd hMay id

/-- What a session has read stays so. -/
theorem Rewritten.sole {reviews reviews' : Table Review} {id : Nat} {review : Review}
    (h : Rewritten state answer reviews reviews' writes) (hSole : Sole id review reviews)
    (hHead : (writes review.key).head? = some ⟨review.createdAt, some review.content⟩) :
    Sole id review reviews' ∧ (Journal.push writes (state.entry answer) review.key).head? =
      some ⟨review.createdAt, some review.content⟩ := by
  have hPushed (key : ReviewKey) (write : ReviewWrite) :
      (Journal.push writes (some (key, write)) review.key).head? =
        some ⟨review.createdAt, some review.content⟩ := by
    rw [Journal.push_some]
    split_ifs
    · exact head?_snoc hHead write
    · exact hHead
  cases h with
  | silent hNone hSame =>
      rw [hNone, hSame]
      exact ⟨hSole, hHead⟩
  | added userId data createdAt _ hEntry hUnwritten hReviews =>
      rw [hEntry, hReviews]
      refine ⟨hSole.add ?_, hPushed _ _⟩
      intro hKey
      rw [← hKey] at hHead
      have hUnwritten : writes (newReview userId data createdAt reviews.serial).key = [] := hUnwritten
      rw [hUnwritten] at hHead
      cases hHead
  | erased gone other now _ hEntry _ hReviews =>
      rw [hEntry, hReviews]
      exact ⟨hSole.erase gone, hPushed _ _⟩

/-- A session knows of a review what it has read of it. -/
theorem stored_of_after {id : Nat} {review : Review}
    (h : (state.after answer).stored? = some (id, review)) :
    state.stored? = some (id, review) ∨ ∃ note s, state = .authenticated id ∧
      answer = .read note s ∧ s.2.get id = some review := by
  cases state with
  | authenticated reviewId =>
      cases answer with
      | read note s =>
          cases hGet : s.2.get reviewId with
          | none =>
              simp only [Reviewing.after, hGet] at h
              cases h
          | some found =>
              simp only [Reviewing.after, hGet] at h
              cases h
              exact .inr ⟨note, s, rfl, rfl, hGet⟩
      | _ => cases h
  | creating => cases answer <;> cases h
  | dated => cases answer <;> cases h
  | deleting => cases answer <;> cases h
  | other => cases answer <;> cases h
  | found => cases answer <;> first | exact .inl h | cases h
  | aged => cases answer <;> first | exact .inl h | cases h

/-- The reviews are filed as the journal says, in every run that posts each key
once. -/
theorem outline : Journal.Outline Reviewing.typestate Reviewing.begin Reviewing.entry once
    (fun s writes => Filed s.2 writes) Read where
  started request _ _ := by
    intro id review hRead
    cases request <;> cases hRead
  keeps {c c' sid state answer writes} hFiled hTold hOnce hRead := by
    cases Rewritten.of_told hTold hOnce with
    | silent hNone hSame =>
        rw [hNone, hSame]
        exact hFiled
    | added userId data createdAt _ hEntry hUnwritten hReviews =>
        rw [hEntry, hReviews]
        exact hFiled.add hUnwritten rfl
    | erased id review now hState hEntry hWindow hReviews =>
        rw [hEntry, hReviews]
        obtain ⟨hSole, hHead⟩ := hRead id review (by rw [hState]; rfl)
        exact hFiled.erase hSole hHead hWindow
  told {c c' sid state answer writes} hFiled hTold hOnce hRead := by
    intro id review hStored
    have hKnown : Sole id review c.db.2 ∧
        (writes review.key).head? = some ⟨review.createdAt, some review.content⟩ := by
      rcases stored_of_after hStored with hBefore | ⟨note, s, rfl, rfl, hGet⟩
      · exact hRead id review hBefore
      · cases hTold
        exact ⟨hFiled.sole hGet, hFiled.stored id review hGet⟩
    exact (Rewritten.of_told hTold hOnce).sole hKnown.1 hKnown.2
  others {c c' sid other state state' answer writes} _ _ hTold hOnce _ hRead := by
    intro id review hStored
    obtain ⟨hSole, hHead⟩ := hRead id review hStored
    exact (Rewritten.of_told hTold hOnce).sole hSole hHead

end Outline

/-- In every run in which nobody writes a review of a lot again: what is shown of
a review is what its last write has left, and no write of it goes by a reading of
the clock more than a day after that of the first. -/
theorem reviews_freeze (percent : CommissionPercent) (categories : List Nat) {s : Reviewed}
    (run : Runs.Reaches (review percent) (fun s a => Journal.meets once s a = true)
      (.initial categories) s) (key : ReviewKey) :
    shownReview s.1.db.2 key = (s.2.entries key).getLast?.bind ReviewWrite.content ∧
      ∀ first ∈ (s.2.entries key).head?, ∀ write ∈ s.2.entries key,
        write.time ≤ first.time + reviewEditWindow := by
  have hHolds := Journal.Holds.run outline Reviewing.handleShop_follows (.initial filed_empty) run
  exact ⟨hHolds.inv.shown key, hHolds.inv.frozen key⟩

def retraction (sid reviewId : Nat) (now : Time) : List (Action shop ShopRequest) :=
  [.start sid (.deleteReview 1 reviewId), .step sid, .step sid, .clock sid now, .step sid]

/-- User 1 reviews the chair again. -/
def anotherReview (sid : Nat) (now : Time) : List (Action shop ShopRequest) :=
  [.start sid (.createReview 1 fiveStars), .step sid, .step sid, .step sid, .step sid,
    .clock sid now, .step sid]

/-- The review of the chair, deleted a day less an hour after it was posted, is
gone. -/
theorem reviews_freeze_chair : ∃ s : Reviewed,
    s.2.entries (1, 0) = [⟨minutes 11, some ⟨5, none⟩⟩, ⟨minutes 11 + hours 23, none⟩] ∧
      shownReview s.1.db.2 (1, 0) = none := by
  obtain ⟨s, run, hWrites⟩ := Runs.exists_reaches (review defaultCommission)
    (fun s a => Journal.meets once s a = true) (.initial [])
    (firstReview ++ retraction 6 0 (minutes 11 + hours 23))
    (fun s => s.2.entries (1, 0) =
      [⟨minutes 11, some ⟨5, none⟩⟩, ⟨minutes 11 + hours 23, none⟩]) (by decide +kernel)
  refine ⟨s, hWrites, ?_⟩
  rw [(reviews_freeze defaultCommission [] run (1, 0)).1, hWrites]
  rfl

/-- A review that is written anew a day and an hour after the first. -/
theorem reviews_thaw : ¬∀ s : Reviewed, Runs.Reaches (review defaultCommission)
    (fun _ _ => True) (.initial []) s → ∀ key, ∀ first ∈ (s.2.entries key).head?,
      ∀ write ∈ s.2.entries key, write.time ≤ first.time + reviewEditWindow := by
  intro hFreeze
  obtain ⟨s, run, hWrites⟩ := Runs.exists_reaches (review defaultCommission)
    (fun _ _ => True) (.initial [])
    (firstReview ++ retraction 6 0 (minutes 11 + hours 23) ++
      anotherReview 7 (minutes 11 + hours 25))
    (fun s => s.2.entries (1, 0) = [⟨minutes 11, some ⟨5, none⟩⟩, ⟨minutes 11 + hours 23, none⟩,
      ⟨minutes 11 + hours 25, some ⟨5, none⟩⟩]) (by decide +kernel)
  have hLate := hFreeze s run (1, 0) ⟨minutes 11, some ⟨5, none⟩⟩ (by rw [hWrites]; rfl)
    ⟨minutes 11 + hours 25, some ⟨5, none⟩⟩ (by rw [hWrites]; simp)
  revert hLate
  decide

end OnlineAuction
