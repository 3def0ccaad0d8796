import OnlineAuction.Market.LotHistory
import OnlineAuction.Market.Served

/-! Lots freeze once bid on and are final once completed. Every handler that
writes a lot checks it under its lock; only `create_auction` inserts the images
of a lot that others may have bid on by then. -/

namespace OnlineAuction

open RowLocks

variable {percent : CommissionPercent} {request : Request}

structure Decided (row : Auction) : Prop where
  completed : row.isCompleted = !row.isActive
  winner : ∀ userId, row.winnerId = some userId → row.isCompleted = true ∧ userId ≠ row.createdBy

/-- A stored lot with its bids: a completed one has gone to the latest bidder. -/
structure StoredLot (d : Db) (id : LotId) (row : Auction) : Prop where
  decided : Decided row
  won : row.isCompleted = true → ∀ bid, d.lastBid id = some bid → row.winnerId = some bid.userId
  bids : ∀ bid ∈ d.bidsOn id, row.auctionType = .bid ∧ bid.userId ≠ row.createdBy

/-- Only stored lots have bids. -/
def LotStands (d : Db) (id : LotId) : Option Auction → Prop
  | some row => StoredLot d id row
  | none => d.bidsOn id = []

/-- A row that keeps the outcome of a lot stays a stored lot. -/
theorem StoredLot.congr {d d' : Db} {id : LotId} {row row' : Auction} (h : StoredLot d id row)
    (hBids : d'.bidsOn id = d.bidsOn id) (hDecided : Decided row')
    (hWon : row'.isCompleted = true → ∀ bid, d.lastBid id = some bid →
      row'.winnerId = some bid.userId)
    (hType : row'.auctionType = row.auctionType) (hCreator : row'.createdBy = row.createdBy) :
    StoredLot d' id row' where
  decided := hDecided
  won := by rwa [Db.lastBid_congr hBids]
  bids := by
    rw [hBids, hType, hCreator]
    exact h.bids

/-- A lot without bids need only be decided. -/
theorem StoredLot.of_noBids {d : Db} {id : LotId} {row : Auction} (hNoBids : d.bidsOn id = [])
    (hDecided : Decided row) : StoredLot d id row where
  decided := hDecided
  won _ bid hLast := by
    rw [Db.lastBid_eq_none.mpr hNoBids] at hLast
    cases hLast
  bids bid hBid := by
    rw [hNoBids] at hBid
    cases hBid

/-- A closed lot is decided: its flags and its winner are set together. -/
theorem Decided.closed {old new : Auction} {winnerId : Option UserId} (h : Closed old new winnerId)
    (hWinner : ∀ userId, winnerId = some userId → userId ≠ old.createdBy) : Decided new where
  completed := by rw [h.completed, h.inactive]; rfl
  winner userId hUser := ⟨h.completed, h.createdBy ▸ hWinner userId (h.winner ▸ hUser)⟩

theorem LotStands.change {d d' : Db} {id : LotId} {lot lot' : Option Auction}
    (h : LotStands d id lot) (hChange : LotChange request d d' id lot lot') :
    LotStands d' id lot' := by
  cases hChange with
  | untouched hBids =>
      cases lot with
      | none => exact hBids.trans h
      | some row => exact StoredLot.congr h hBids h.decided h.won rfl rfl
  | opened hOpened hNoBids =>
      obtain ⟨hActive, hCompleted, hWinner⟩ := hOpened.active
      apply StoredLot.of_noBids hNoBids
      constructor
      · rw [hCompleted, hActive]; rfl
      · intro userId hUser
        simp [hWinner] at hUser
  | revised userId data _ _ hBids _ hRevised =>
      obtain ⟨hActive, hCompleted, hWinner⟩ := hRevised.state
      apply StoredLot.of_noBids hBids
      constructor
      · rw [hCompleted, hActive]
        exact h.decided.completed
      · rw [hCompleted, hWinner, hRevised.createdBy]
        exact h.decided.winner
  | removed _ hBids => exact hBids
  | @bid old amount now t userId hActive hType hOwn _ hBids =>
      obtain ⟨endTime, notified, count, _, hEq⟩ := acceptBid_eq old amount now
      rw [hEq]
      constructor
      · exact ⟨h.decided.completed, h.decided.winner⟩
      · intro hCompleted
        have hOpen := h.decided.completed
        rw [hActive, show old.isCompleted = true from hCompleted] at hOpen
        cases hOpen
      · intro bid hBid
        rw [hBids, List.mem_append, List.mem_singleton] at hBid
        rcases hBid with hOld | rfl
        · exact h.bids bid hOld
        · exact ⟨hType, Ne.symm hOwn⟩
  | sold buyer price now _ hType _ hOwn hBids =>
      apply StoredLot.of_noBids
      · rw [hBids, List.eq_nil_iff_forall_not_mem]
        intro bid hBid
        have hBidType := (h.bids bid hBid).1
        rw [hType] at hBidType
        cases hBidType
      · constructor
        · rfl
        · rintro userId ⟨rfl⟩
          exact ⟨rfl, Ne.symm hOwn⟩
  | closed _ hBids hClosed =>
      exact .of_noBids hBids (.closed hClosed fun userId hUser => (h.decided.winner userId hUser).2)
  | settled lastBid hLast hBids hClosed =>
      have hMem := Db.mem_bidsOn.mpr (Db.lastBid_mem hLast)
      have hDecided : Decided _ := .closed hClosed fun userId hUser => by
        obtain rfl := Option.some.inj hUser
        exact (h.bids lastBid hMem).2
      apply StoredLot.congr h hBids hDecided _ hClosed.auctionType hClosed.createdBy
      intro _ bid hBid
      rw [hLast] at hBid
      obtain rfl := Option.some.inj hBid
      exact hClosed.winner

structure SameListing (row row' : Auction) : Prop where
  title : row'.title = row.title
  description : row'.description = row.description
  categoryId : row'.categoryId = row.categoryId
  startingPrice : row'.startingPrice = row.startingPrice
  binPrice : row'.binPrice = row.binPrice
  auctionType : row'.auctionType = row.auctionType
  imageUrl : row'.imageUrl = row.imageUrl

structure SameOutcome (row row' : Auction) : Prop where
  winnerId : row'.winnerId = row.winnerId
  currentPrice : row'.currentPrice = row.currentPrice
  endTime : row'.endTime = row.endTime
  isActive : row'.isActive = row.isActive
  isCompleted : row'.isCompleted = row.isCompleted

/-- A lot that has been bid on: the listing stays, price and deadline only grow. -/
structure Raised (row row' : Auction) : Prop where
  listing : SameListing row row'
  price : row.currentPrice ≤ row'.currentPrice
  deadline : row.endTime ≤ row'.endTime

/-- What is stored of a lot stays stored, in the given relation. -/
def Stays (r : Auction → Auction → Prop) (row : Auction) : Option Auction → Prop
  | some row' => r row row'
  | none => False

structure Frozen (d d' : Db) : Prop where
  bidOn : ∀ id, d.bidsOn id ≠ [] → d'.bidsOn id ≠ [] ∧
    ∀ row, d.auctions.get id = some row → Stays Raised row (d'.auctions.get id)
  completed : ∀ id row, d.auctions.get id = some row → row.isCompleted = true →
    Stays SameOutcome row (d'.auctions.get id)

theorem SameListing.refl (row : Auction) : SameListing row row :=
  ⟨rfl, rfl, rfl, rfl, rfl, rfl, rfl⟩

theorem SameListing.trans {a b c : Auction} (h : SameListing a b) (h' : SameListing b c) :
    SameListing a c where
  title := h'.title.trans h.title
  description := h'.description.trans h.description
  categoryId := h'.categoryId.trans h.categoryId
  startingPrice := h'.startingPrice.trans h.startingPrice
  binPrice := h'.binPrice.trans h.binPrice
  auctionType := h'.auctionType.trans h.auctionType
  imageUrl := h'.imageUrl.trans h.imageUrl

theorem SameOutcome.refl (row : Auction) : SameOutcome row row := ⟨rfl, rfl, rfl, rfl, rfl⟩

theorem SameOutcome.trans {a b c : Auction} (h : SameOutcome a b) (h' : SameOutcome b c) :
    SameOutcome a c where
  winnerId := h'.winnerId.trans h.winnerId
  currentPrice := h'.currentPrice.trans h.currentPrice
  endTime := h'.endTime.trans h.endTime
  isActive := h'.isActive.trans h.isActive
  isCompleted := h'.isCompleted.trans h.isCompleted

theorem Raised.refl (row : Auction) : Raised row row := ⟨.refl row, le_rfl, le_rfl⟩

theorem Raised.trans {a b c : Auction} (h : Raised a b) (h' : Raised b c) : Raised a c :=
  ⟨h.listing.trans h'.listing, h.price.trans h'.price, h.deadline.trans h'.deadline⟩

theorem Stays.some {r : Auction → Auction → Prop} {row : Auction} {lot : Option Auction}
    (h : Stays r row lot) : ∃ row', lot = some row' ∧ r row row' := by
  cases lot with
  | none => exact h.elim
  | some row' => exact ⟨row', rfl, h⟩

theorem Frozen.refl (d : Db) : Frozen d d where
  bidOn _ hBids := ⟨hBids, fun row hRow => by rw [hRow]; exact Raised.refl row⟩
  completed _ row hRow _ := by rw [hRow]; exact SameOutcome.refl row

theorem Frozen.trans {a b c : Db} (h : Frozen a b) (h' : Frozen b c) : Frozen a c where
  bidOn id hBids := by
    obtain ⟨hMiddle, hFirst⟩ := h.bidOn id hBids
    obtain ⟨hLast, hSecond⟩ := h'.bidOn id hMiddle
    refine ⟨hLast, fun row hRow => ?_⟩
    obtain ⟨row', hRow', hRaised⟩ := (hFirst row hRow).some
    obtain ⟨row'', hRow'', hRaised'⟩ := (hSecond row' hRow').some
    rw [hRow'']
    exact hRaised.trans hRaised'
  completed id row hRow hCompleted := by
    obtain ⟨row', hRow', hSame⟩ := (h.completed id row hRow hCompleted).some
    have hCompleted' : row'.isCompleted = true := hSame.isCompleted.trans hCompleted
    obtain ⟨row'', hRow'', hSame'⟩ := (h'.completed id row' hRow' hCompleted').some
    rw [hRow'']
    exact hSame.trans hSame'

theorem Closed.sameListing {old new : Auction} {winnerId : Option UserId}
    (h : Closed old new winnerId) : SameListing old new :=
  ⟨h.title, h.description, h.categoryId, h.startingPrice, h.binPrice, h.auctionType, h.imageUrl⟩

/-- A change to a lot that has bids. -/
theorem LotChange.raised {d d' : Db} {id : LotId} {lot lot' : Option Auction}
    (hChange : LotChange request d d' id lot lot') (h : LotStands d id lot)
    (hBids : d.bidsOn id ≠ []) :
    d'.bidsOn id ≠ [] ∧ ∀ row, lot = some row → Stays Raised row lot' := by
  cases hChange with
  | untouched hSame =>
      refine ⟨hSame ▸ hBids, fun row hRow => ?_⟩
      rw [hRow]
      exact Raised.refl row
  | opened => exact absurd h hBids
  | revised _ _ _ hNoBids => exact absurd hNoBids hBids
  | removed hNoBids => exact absurd hNoBids hBids
  | closed hNoBids => exact absurd hNoBids hBids
  | @bid old amount now t userId _ _ _ hHigher hSame =>
      refine ⟨by simp [hSame], ?_⟩
      rintro row ⟨rfl⟩
      obtain ⟨endTime, notified, count, hLater, hEq⟩ := acceptBid_eq old amount now
      rw [hEq]
      exact ⟨⟨rfl, rfl, rfl, rfl, rfl, rfl, rfl⟩, hHigher.le, hLater⟩
  | sold buyer price now _ hType =>
      obtain ⟨bid, hBid⟩ := List.exists_mem_of_ne_nil _ hBids
      have hBidType := (h.bids bid hBid).1
      rw [hType] at hBidType
      cases hBidType
  | settled lastBid _ hSame hClosed =>
      refine ⟨hSame ▸ hBids, ?_⟩
      rintro row ⟨rfl⟩
      exact ⟨hClosed.sameListing, hClosed.currentPrice.ge, hClosed.endTime.ge⟩

/-- A change to a completed lot: a settlement made again has the same winner. -/
theorem LotChange.final {d d' : Db} {id : LotId} {row : Auction} {lot' : Option Auction}
    (hChange : LotChange request d d' id (some row) lot') (h : StoredLot d id row)
    (hCompleted : row.isCompleted = true) : Stays SameOutcome row lot' := by
  have hInactive : row.isActive = false := by
    have hState := h.decided.completed
    rw [hCompleted] at hState
    simpa using hState.symm
  have hAgain {new : Auction} {winnerId : Option UserId} (hClosed : Closed row new winnerId)
      (hWinner : winnerId = row.winnerId) : SameOutcome row new :=
    ⟨hClosed.winner.trans hWinner, hClosed.currentPrice, hClosed.endTime,
      hClosed.inactive.trans hInactive.symm, hClosed.completed.trans hCompleted.symm⟩
  cases hChange with
  | untouched => exact SameOutcome.refl row
  | revised _ _ _ _ _ hActive => simp [hInactive] at hActive
  | bid _ _ _ _ hActive => simp [hInactive] at hActive
  | sold _ _ _ hActive => simp [hInactive] at hActive
  | removed _ _ hOpen => simp [hCompleted] at hOpen
  | closed _ _ hClosed => exact hAgain hClosed rfl
  | settled lastBid hLast _ hClosed => exact hAgain hClosed (h.won hCompleted lastBid hLast).symm

def Standing (d : Db) : Prop := ∀ id, LotStands d id (d.auctions.get id)

/-- A commit freezes what lots that were bid on show. -/
theorem Standing.frozen {d d' : Db} (h : Standing d)
    (hChange : ∀ id, LotChange request d d' id (d.auctions.get id) (d'.auctions.get id)) :
    Frozen d d' where
  bidOn id hBids := (hChange id).raised (h id) hBids
  completed id row hRow hCompleted := by
    have hLot := hChange id
    have hStands := h id
    rw [hRow] at hLot hStands
    exact hLot.final hStands hCompleted

def Db.imagesOf (d : Db) (id : LotId) : List AuctionImage :=
  d.images.filter fun image => image.auctionId = id

/-- The rows of one lot's images, seen from a lot. -/
theorem filter_gallery (urls : List String) (auctionId id : LotId) :
    (urls.mapIdx fun i url => (⟨auctionId, url, i⟩ : AuctionImage)).filter
        (fun image => image.auctionId = id) =
      if auctionId = id then urls.mapIdx fun i url => ⟨auctionId, url, i⟩ else [] := by
  have hLot : ∀ image ∈ urls.mapIdx fun i url => (⟨auctionId, url, i⟩ : AuctionImage),
      image.auctionId = auctionId := by
    intro image hImage
    obtain ⟨i, _, rfl⟩ := List.mem_mapIdx.mp hImage
    rfl
  split_ifs with h
  · rw [List.filter_eq_self]
    intro image hImage
    simpa using (hLot image hImage).trans h
  · rw [List.filter_eq_nil_iff]
    intro image hImage
    simpa [hLot image hImage] using h

/-- Replacing the images of one lot leaves those of the others. -/
theorem Db.imagesOf_replace (d : Db) {auctionId id : LotId} (urls : List String)
    (h : id ≠ auctionId) : (d.replaceImages auctionId urls).imagesOf id = d.imagesOf id := by
  have hOld : (d.images.filter fun image => image.auctionId ≠ auctionId).filter
      (fun image => image.auctionId = id) = d.imagesOf id := by
    rw [List.filter_filter]
    apply List.filter_congr
    intro image _
    by_cases hImage : image.auctionId = id <;> simp [hImage, h]
  simp only [Db.imagesOf, Db.replaceImages, List.filter_append, filter_gallery, if_neg (Ne.symm h),
    List.append_nil]
  exact hOld

/-- Short of a creation, no transaction touches the images of a lot with bids. -/
theorem Db.imagesOf_commit {A : Assumptions} {held : Held market} {d d' : Db} {id : LotId}
    (hOther : ∀ userId data, request ≠ .createAuction userId data)
    (hCommit : Commit percent A request held d d') (hBids : d.bidsOn id ≠ []) :
    d'.imagesOf id = d.imagesOf id := by
  cases hCommit with
  | idle => rfl
  | observe => rfl
  | register => rfl
  | create => rfl
  | bid => rfl
  | close => rfl
  | deposit => simp [Db.imagesOf]
  | withdraw => simp [Db.imagesOf]
  | purchase => simp [Db.imagesOf, Db.setAuction]
  | settle => simp [Db.imagesOf, Db.setAuction, Db.recordSettlement]
  | illustrate _ userId data hRequest => exact absurd hRequest (hOther userId data)
  | revise auctionId old new userId data _ _ _ hNoBids =>
      have hId : id ≠ auctionId := fun h => hBids (h ▸ hNoBids)
      show (data.images d auctionId).filter _ = _
      unfold AuctionUpdate.images
      split
      next urls _ => exact d.imagesOf_replace urls hId
      next => rfl
  | remove auctionId row _ _ hNoBids =>
      have hId : id ≠ auctionId := fun h => hBids (h ▸ hNoBids)
      have hKept : (d.replaceImages auctionId []).imagesOf id = d.imagesOf id :=
        d.imagesOf_replace [] hId
      rw [← hKept]
      simp [Db.imagesOf, Db.deleteAuction, Db.replaceImages]

/-- The images that creations have yet to insert are of stored numbers, each of one session. -/
structure Creations (s : Served) : Prop where
  stored : ∀ sid serving id, s.2 sid = some serving → serving.inserted = some id →
    id < s.1.db.auctions.serial
  alone : ∀ sid sid' serving serving' id, s.2 sid = some serving → s.2 sid' = some serving' →
    serving.inserted = some id → serving'.inserted = some id → sid = sid'

/-- Steps that begin no creation keep the record of the creations. -/
theorem Creations.of_noneBegun {s s' : Served} (h : Creations s) (hPending : s.NoneBegun s')
    (hSerial : s.1.db.auctions.serial ≤ s'.1.db.auctions.serial) : Creations s' where
  stored sid serving id hServing hInserted :=
    (h.stored sid serving id (hPending sid serving hServing (by simp [hInserted]))
      hInserted).trans_le hSerial
  alone sid sid' serving serving' id hServing hServing' hInserted hInserted' :=
    h.alone sid sid' serving serving' id (hPending sid serving hServing (by simp [hInserted]))
      (hPending sid' serving' hServing' (by simp [hInserted'])) hInserted hInserted'

/-- A committed transaction keeps the record of the creations. -/
theorem Creations.transacts {A : Assumptions} {s s' : Served} {a : Action market Request}
    (h : Creations s) (hTransacts : s.Transacts percent A s' a) : Creations s' := by
  cases hTransacts with
  | quiet hDb hPending => exact h.of_noneBegun hPending (by rw [hDb])
  | observed held t hDb hPending => exact h.of_noneBegun hPending (by rw [hDb])
  | committed held request _ _ hCommit hPending =>
      exact h.of_noneBegun hPending (SameCreators.of_commit hCommit).1
  | inserted held sid userId data startTime _ hServing hDb _ hNext =>
      have hSerial : s'.1.db.auctions.serial = s.1.db.auctions.serial + 1 := by
        rw [hDb]
        rfl
      have hStates (other : Nat) (serving : Serving) (id : LotId)
          (hOther : s'.2 other = some serving) (hInserted : serving.inserted = some id) :
          other = sid ∧ id = s.1.db.auctions.serial ∨ s.2 other = some serving ∧
            id < s.1.db.auctions.serial := by
        rw [hNext] at hOther
        by_cases hSid : other = sid
        · subst hSid
          rw [Function.update_self, Option.some.injEq] at hOther
          subst hOther
          exact .inl ⟨rfl, (Option.some.inj hInserted).symm⟩
        · rw [Function.update_of_ne hSid] at hOther
          exact .inr ⟨hOther, h.stored other serving id hOther hInserted⟩
      constructor
      · intro other serving id hOther hInserted
        rw [hSerial]
        rcases hStates other serving id hOther hInserted with ⟨_, hId⟩ | ⟨_, hId⟩
        · exact hId ▸ Nat.lt_succ_self _
        · exact hId.trans (Nat.lt_succ_self _)
      · intro other other' serving serving' id hOther hOther' hInserted hInserted'
        rcases hStates other serving id hOther hInserted with ⟨hSid, hId⟩ | ⟨hOld, hId⟩
        · rcases hStates other' serving' id hOther' hInserted' with ⟨hSid', _⟩ | ⟨_, hId'⟩
          · exact hSid.trans hSid'.symm
          · exact absurd hId hId'.ne
        · rcases hStates other' serving' id hOther' hInserted' with ⟨_, hId'⟩ | ⟨hOld', _⟩
          · exact absurd hId' hId.ne
          · exact h.alone other other' serving serving' id hOld hOld' hInserted hInserted'
  | illustrated held sid userId data id _ hServing hDb _ hNext =>
      apply h.of_noneBegun _ (by rw [hDb])
      intro other serving hOther hInserted
      rw [hNext] at hOther
      by_cases hSid : other = sid
      · subst hSid
        rw [Function.update_self, Option.some.injEq] at hOther
        subst hOther
        exact absurd rfl hInserted
      · rwa [Function.update_of_ne hSid] at hOther

/-- The images of a lot are as they were, or the creation that inserted the lot
has appended those of its payload. -/
def GalleryKept (s s' : Served) (id : LotId) : Prop :=
  s'.1.db.imagesOf id = s.1.db.imagesOf id ∨
    ∃ sid userId data, s.2 sid = some ⟨.createAuction userId data, some id⟩ ∧
      s'.1.db.imagesOf id = s.1.db.imagesOf id ++ data.gallery id

/-- What is so since the lot had bids: no creation has begun to insert images
of the lot, and one that has appended them is done. -/
def GallerySince (s s' : Served) (id : LotId) : Prop :=
  (s'.1.db.imagesOf id = s.1.db.imagesOf id ∧
      ∀ sid serving, s'.2 sid = some serving → serving.inserted = some id →
        s.2 sid = some serving) ∨
    (∃ sid userId data, s.2 sid = some ⟨.createAuction userId data, some id⟩ ∧
        s'.1.db.imagesOf id = s.1.db.imagesOf id ++ data.gallery id) ∧
      ∀ sid serving, s'.2 sid = some serving → serving.inserted ≠ some id

/-- After the first bid only the creation of the lot itself still writes its
images. -/
theorem GallerySince.transacts {A : Assumptions} {s s' s'' : Served} {id : LotId}
    {a : Action market Request} (h : GallerySince s s' id) (hCreations : Creations s')
    (hStored : id < s'.1.db.auctions.serial) (hBids : s'.1.db.bidsOn id ≠ [])
    (hTransacts : s'.Transacts percent A s'' a) : GallerySince s s'' id := by
  have hSame (hImages : s''.1.db.imagesOf id = s'.1.db.imagesOf id)
      (hPending : ∀ sid serving, s''.2 sid = some serving → serving.inserted = some id →
        s'.2 sid = some serving) : GallerySince s s'' id := by
    rcases h with ⟨hOld, hNone⟩ | ⟨⟨sid, userId, data, hSid, hOld⟩, hNone⟩
    · exact .inl ⟨hImages.trans hOld, fun sid serving hServing hInserted =>
        hNone sid serving (hPending sid serving hServing hInserted) hInserted⟩
    · exact .inr ⟨⟨sid, userId, data, hSid, hImages.trans hOld⟩,
        fun other serving hServing hInserted =>
          hNone other serving (hPending other serving hServing hInserted) hInserted⟩
  have hBegun (hPending : s'.NoneBegun s'') (sid : Nat) (serving : Serving)
      (hServing : s''.2 sid = some serving) (hInserted : serving.inserted = some id) :
      s'.2 sid = some serving := hPending sid serving hServing (by simp [hInserted])
  cases hTransacts with
  | quiet hDb hPending => exact hSame (by rw [hDb]) (hBegun hPending)
  | observed held t hDb hPending => exact hSame (by rw [hDb]; rfl) (hBegun hPending)
  | committed held request _ hOther hCommit hPending =>
      exact hSame (Db.imagesOf_commit hOther hCommit hBids) (hBegun hPending)
  | inserted held sid userId data startTime _ _ hDb _ hNext =>
      apply hSame (by rw [hDb]; rfl)
      intro other serving hServing hInserted
      rw [hNext] at hServing
      by_cases hSid : other = sid
      · subst hSid
        rw [Function.update_self, Option.some.injEq] at hServing
        subst hServing
        exact absurd (Option.some.inj hInserted) hStored.ne'
      · rwa [Function.update_of_ne hSid] at hServing
  | illustrated held sid userId data lot _ hServing hDb _ hNext =>
      have hImages : s''.1.db.imagesOf id = s'.1.db.imagesOf id ++
          if lot = id then data.gallery lot else [] := by
        rw [hDb, Db.imagesOf, List.filter_append, AuctionCreate.gallery, filter_gallery]
        rfl
      have hPending (other : Nat) (serving : Serving) (hOther : s''.2 other = some serving)
          (hInserted : serving.inserted ≠ none) : other ≠ sid ∧ s'.2 other = some serving := by
        rw [hNext] at hOther
        by_cases hSid : other = sid
        · subst hSid
          rw [Function.update_self, Option.some.injEq] at hOther
          subst hOther
          exact absurd rfl hInserted
        · rw [Function.update_of_ne hSid] at hOther
          exact ⟨hSid, hOther⟩
      by_cases hLot : lot = id
      · subst hLot
        rw [if_pos rfl] at hImages
        rcases h with ⟨hOld, hNone⟩ | ⟨_, hNone⟩
        · refine .inr ⟨⟨sid, userId, data, hNone sid _ hServing rfl, hOld ▸ hImages⟩, ?_⟩
          intro other serving hOther hInserted
          obtain ⟨hSid, hOther'⟩ := hPending other serving hOther (by simp [hInserted])
          exact hSid (hCreations.alone other sid serving _ lot hOther' hServing hInserted rfl)
        · exact absurd rfl (hNone sid _ hServing)
      · rw [if_neg hLot, List.append_nil] at hImages
        apply hSame hImages
        intro other serving hOther hInserted
        exact (hPending other serving hOther (by simp [hInserted])).2

theorem Standing.commit {percent : CommissionPercent} {request : Request} {held : Held market} {d d' : Db} (h : Standing d)
    (hWell : WellFormed .none d) (hCommit : Commit percent .none request held d d') :
    Standing d' := fun id => (h id).change (.of_commit hWell hCommit id)

theorem Standing.initial (categories : List Nat) : Standing (Db.initial categories) := by
  intro id
  simp [Db.initial, LotStands, Db.bidsOn]

/-- What an action does to each lot. -/
theorem Served.Transacts.lots {A : Assumptions} {s s' : Served} {a : Action market Request}
    (h : s.Transacts percent A s' a) (hWell : WellFormed A s.1.db) :
    ∃ request, ∀ id, LotChange request s.1.db s'.1.db id (s.1.db.auctions.get id)
      (s'.1.db.auctions.get id) := by
  cases h with
  | quiet hDb => exact ⟨.register, fun id => .of_same (by rw [hDb]) (by rw [hDb]) id⟩
  | observed held t hDb => exact ⟨.register, fun id => .of_same (by rw [hDb]) (by rw [hDb]) id⟩
  | committed held request _ _ hCommit => exact ⟨request, .of_commit hWell hCommit⟩
  | inserted held sid userId data startTime _ _ _ hCommit => exact ⟨_, .of_commit hWell hCommit⟩
  | illustrated held sid userId data id _ _ _ hCommit => exact ⟨_, .of_commit hWell hCommit⟩

theorem Served.Transacts.sameCreators {A : Assumptions} {s s' : Served} {a : Action market Request}
    (h : s.Transacts percent A s' a) : SameCreators s.1.db s'.1.db := by
  cases h with
  | quiet hDb => exact .of_same (by rw [hDb])
  | observed held t hDb => exact .of_same (by rw [hDb])
  | committed held request _ _ hCommit => exact .of_commit hCommit
  | inserted held sid userId data startTime _ _ _ hCommit => exact .of_commit hCommit
  | illustrated held sid userId data id _ _ _ hCommit => exact .of_commit hCommit

structure Orderly (s : Served) : Prop where
  standing : Standing s.1.db
  creations : Creations s

theorem Orderly.transacts {A : Assumptions} {s s' : Served} {a : Action market Request}
    (h : Orderly s) (hWell : WellFormed A s.1.db) (hTransacts : s.Transacts percent A s' a) :
    Orderly s' := by
  obtain ⟨request, hLots⟩ := hTransacts.lots hWell
  exact ⟨fun id => (h.standing id).change (hLots id), h.creations.transacts hTransacts⟩

theorem orderly_of_reaches {categories : List Nat} {s : Served}
    (run : Runs.Reaches (serve percent) (fun _ _ => True) (.initial categories) s) :
    Served.Underway percent .none s ∧ Orderly s := by
  apply Served.Underway.run (fun s _ _ sid e _ => Assumptions.none_ok _ _ e)
    (.initial percent .none categories) _ _ run
  · refine ⟨.initial categories, ?_, ?_⟩ <;> intros <;> simp_all [Served.initial]
  · intro s s' a hUnderway hOrderly hTransacts _
    exact hOrderly.transacts hUnderway.valid.inv hTransacts

/-- From every reachable state on: a lot is decided once and for all, a lot with
bids keeps its row and its listing while price and deadline only grow, and its
images change at most once more, by the creation that inserted it. -/
theorem frozen_once_bid_on (percent : CommissionPercent) (categories : List Nat) {s : Served}
    (run : Runs.Reaches (serve percent) (fun _ _ => True) (.initial categories) s) :
    (∀ id row, s.1.db.auctions.get id = some row → Decided row) ∧
    (∀ id, s.1.db.bidsOn id ≠ [] → (s.1.db.auctions.get id).isSome) ∧
    ∀ s', Runs.Reaches (serve percent) (fun _ _ => True) s s' →
      Frozen s.1.db s'.1.db ∧ ∀ id, s.1.db.bidsOn id ≠ [] → GalleryKept s s' id := by
  obtain ⟨hUnderway, hOrderly⟩ := orderly_of_reaches run
  refine ⟨fun id row hRow => ?_, fun id hBids => ?_, fun s' run' => ?_⟩
  · have hStands := hOrderly.standing id
    rw [hRow] at hStands
    exact hStands.decided
  · have hStands := hOrderly.standing id
    cases hRow : s.1.db.auctions.get id with
    | none =>
        rw [hRow] at hStands
        exact absurd hStands hBids
    | some row => rfl
  · have hLater : Served.Underway percent .none s' ∧ Orderly s' ∧ Frozen s.1.db s'.1.db ∧
        ∀ id, s.1.db.bidsOn id ≠ [] → GallerySince s s' id := by
      apply Served.Underway.run (I := fun s' => Orderly s' ∧ Frozen s.1.db s'.1.db ∧
          ∀ id, s.1.db.bidsOn id ≠ [] → GallerySince s s' id)
        (fun s _ _ sid e _ => Assumptions.none_ok _ _ e) hUnderway _ _ run'
      · exact ⟨hOrderly, .refl _, fun id _ => .inl ⟨rfl, fun _ _ h _ => h⟩⟩
      · intro t t' a hUnderway' hBoth hTransacts _
        obtain ⟨hOrderly', hFrozen, hGallery⟩ := hBoth
        obtain ⟨request, hLots⟩ := hTransacts.lots hUnderway'.valid.inv
        refine ⟨hOrderly'.transacts hUnderway'.valid.inv hTransacts,
          hFrozen.trans (hOrderly'.standing.frozen hLots), fun id hBids => ?_⟩
        have hBids' : t.1.db.bidsOn id ≠ [] := (hFrozen.bidOn id hBids).1
        obtain ⟨bid, hBid⟩ := List.exists_mem_of_ne_nil _ hBids'
        obtain ⟨hMem, rfl⟩ := Db.mem_bidsOn.mp hBid
        exact (hGallery _ hBids).transacts hOrderly'.creations
          (hUnderway'.valid.inv.lot_exists hMem) hBids' hTransacts
    refine ⟨hLater.2.2.1, fun id hBids => ?_⟩
    rcases hLater.2.2.2 id hBids with ⟨hSame, _⟩ | ⟨hOnce, _⟩
    · exact .inl hSame
    · exact .inr hOnce

def picturedChair : AuctionCreate := { chair with imageUrl := some "/static/uploads/chair.png" }

/-- User 0 lists a chair with a picture, and user 1 bids on it before the
picture is committed. -/
def bidBeforePicture : List (Action market Request) :=
  [.start 0 .register, .step 0, .start 1 .register, .step 1] ++
  [.start 2 (.createAuction 0 picturedChair), .step 2, .clock 2 0, .step 2] ++
  [.start 3 (.placeBid 1 ⟨0, ⟨25000, by decide⟩⟩)] ++ steps 3 2 ++ [.clock 3 (seconds 1)] ++
  steps 3 4 ++ [.clock 3 (seconds 1), .clock 3 (seconds 1), .step 3]

/-- A lot is bid on between the commit of its row and that of its images, and
then its images change. -/
theorem bid_before_picture : ∃ s, Runs.Reaches (serve defaultCommission) (fun _ _ => True)
    (.initial []) s ∧ s.1.db.bidsOn 0 ≠ [] ∧
      (Runs.perform (serve defaultCommission) (fun _ _ => True) s [.step 2]).any
        (fun s' => decide (s'.1.db.imagesOf 0 ≠ s.1.db.imagesOf 0)) = true := by
  apply Runs.exists_reaches (serve defaultCommission) (fun _ _ => True) (.initial [])
    bidBeforePicture (fun s => s.1.db.bidsOn 0 ≠ [] ∧
      (Runs.perform (serve defaultCommission) (fun _ _ => True) s [.step 2]).any
        (fun s' => decide (s'.1.db.imagesOf 0 ≠ s.1.db.imagesOf 0)) = true)
  decide +kernel

/-- So the images of a lot that was bid on are not frozen in every run. -/
theorem images_change_after_bid : ¬∀ (percent : CommissionPercent) (categories : List Nat)
    (s s' : Served), Runs.Reaches (serve percent) (fun _ _ => True) (.initial categories) s →
      Runs.Reaches (serve percent) (fun _ _ => True) s s' →
      ∀ id, s.1.db.bidsOn id ≠ [] → s'.1.db.imagesOf id = s.1.db.imagesOf id := by
  intro hFrozen
  obtain ⟨s, run, hBids, hLater⟩ := bid_before_picture
  obtain ⟨s', hPerform, hChanged⟩ := (Option.any_eq_true _ _).mp hLater
  exact of_decide_eq_true hChanged
    (hFrozen _ _ s s' run (Runs.reaches_of_perform .init hPerform) 0 hBids)

/-- The chair, once it has a bid, stays as listed in every later state. -/
theorem frozen_once_bid_on_chair : ∃ s, Runs.Reaches (serve defaultCommission) (fun _ _ => True)
    (.initial []) s ∧ s.1.db.bidsOn 0 ≠ [] ∧
      ∀ s', Runs.Reaches (serve defaultCommission) (fun _ _ => True) s s' →
        Frozen s.1.db s'.1.db ∧ GalleryKept s s' 0 := by
  obtain ⟨s, run, hBids, _⟩ := bid_before_picture
  refine ⟨s, run, hBids, fun s' run' => ?_⟩
  obtain ⟨hFrozen, hGallery⟩ := (frozen_once_bid_on defaultCommission [] run).2.2 s' run'
  exact ⟨hFrozen, hGallery 0 hBids⟩

end OnlineAuction
