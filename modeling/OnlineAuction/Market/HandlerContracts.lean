import OnlineAuction.Market.Sessions

/-! Every handler, run against any interference, commits only transactions of
`Commit`: what it computed from its locked copies is the stated write on the
rows as they stand at the commit. -/

namespace OnlineAuction

open RowLocks

variable {percent : CommissionPercent} {A : Assumptions} {request : Request}

/-- A unit of work on a locked user uses the locked copy. -/
theorem UnitOfWork.begin_eq {userId : UserId} {locked : UserId → Option User}
    (h : (locked userId).isSome) (user : User) :
    UnitOfWork.begin userId user locked = ⟨locked, []⟩ := by
  obtain ⟨row, hRow⟩ := Option.isSome_iff_exists.mp h
  unfold UnitOfWork.begin
  congr 1
  funext uid
  by_cases hId : uid = userId
  · subst hId
    simp [hRow]
  · simp [hId]

/-- What the session computed on the users it holds is posted to their rows. -/
theorem UsersLocked.flushWork {held : Held market} {locked : UserId → Option User} {d : Db}
    (h : UsersLocked held locked d) {postings : List Posting}
    (hFound : ∀ p ∈ postings, (locked p.userId).isSome) :
    d.flushWork (postings.foldl UnitOfWork.apply ⟨locked, []⟩) = d.postAll postings := by
  rw [Db.flushWork_postings, Db.flushWork_fresh fun uid user hUser => (h uid user hUser).2]
  intro p hp
  obtain ⟨user, hUser⟩ := Option.isSome_iff_exists.mp (hFound p hp)
  simp [hUser, (h p.userId user hUser).2]

/-- One posting to a locked user. -/
theorem UsersLocked.flush_one {held : Held market} {locked : UserId → Option User} {d : Db}
    (h : UsersLocked held locked d) {p : Posting} (hFound : (locked p.userId).isSome) :
    d.flushWork (UnitOfWork.apply ⟨locked, []⟩ p) = d.post p := by
  have hFound : ∀ q ∈ [p], (locked q.userId).isSome := by simpa using hFound
  simpa using h.flushWork hFound

theorem register_safe {d : Db} : (discipline percent A request).Safe register Held.none d := by
  unfold Discipline.Safe register
  rw [Discipline.wp_bind]
  exact wp_commit (fun _ _ _ => .register) fun _ _ _ => trivial

theorem deposit_safe (userId : UserId) (data : DepositRequest) {d : Db} :
    (discipline percent A request).wp (deposit userId data) Held.none (fun _ _ _ => True) d := by
  unfold deposit
  rw [Discipline.wp_bind]
  apply wp_getCurrentUser
  intro d₁ loaded _ hWell₁ hLoaded
  rw [Discipline.wp_bind]
  apply wp_lockUsersById hWell₁
  intro locked held d₂ _ _ _ hLocked hFound
  dsimp only
  rw [Discipline.wp_bind, Discipline.wp_raiseIf, quantizeMoney_add, not_lt]
  intro hCap
  rw [Discipline.wp_bind]
  refine wp_commit (fun d₃ hRely _ => ?_) fun _ _ _ => trivial
  have hSome : (locked userId).isSome := hFound userId (by simp) (by simp [hLoaded])
  obtain ⟨user, hUser⟩ := Option.isSome_iff_exists.mp hSome
  rw [hUser, Option.getD_some] at hCap
  obtain ⟨hHeld, hRow⟩ := hLocked.rely hRely userId user hUser
  have hFlush := (hLocked.rely hRely).flush_one
    (p := ⟨userId, data.amount.val, .deposit, "Пополнение баланса", none⟩) hSome
  rw [UnitOfWork.begin_eq hSome]
  simp only [UnitOfWork.apply] at hFlush
  rw [hFlush]
  exact .deposit userId user _ _ hHeld hRow data.amount.property.1 hCap

/-- A withdrawal keeps the contract: it is checked against the money reserved
at that time. -/
theorem withdraw_safe (userId : UserId) (data : WithdrawRequest) {d : Db} :
    (discipline percent A request).wp (withdraw userId data) Held.none (fun _ _ _ => True) d := by
  unfold withdraw
  rw [Discipline.wp_bind]
  apply wp_getCurrentUser
  intro d₁ loaded _ hWell₁ hLoaded
  rw [Discipline.wp_bind]
  apply wp_lockUsersById hWell₁
  intro locked held d₂ _ _ _ hLocked hFound
  have hSome : (locked userId).isSome := hFound userId (by simp) (by simp [hLoaded])
  obtain ⟨user, hUser⟩ := Option.isSome_iff_exists.mp hSome
  dsimp only
  unfold getCommittedBalance
  rw [Discipline.wp_bind]
  apply wp_query
  intro d₃ hRely₃ hWell₃
  have hLocked₃ := hLocked.rely hRely₃
  obtain ⟨hHeld, hRow₃⟩ := hLocked₃ userId user hUser
  rw [Discipline.wp_bind, Discipline.wp_raiseIf]
  intro hEnough
  rw [hUser, Option.getD_some, not_lt] at hEnough
  have hFunded : Funded A userId user.balance data.amount.val d₃ := by
    intro hClock
    rw [hWell₃.getCommittedBalance_eq hClock] at hEnough
    linarith
  rw [Discipline.wp_bind]
  refine wp_commit (fun d₄ hRely₄ _ => ?_) fun _ _ _ => trivial
  have hRow₄ := (hLocked₃.rely hRely₄ userId user hUser).2
  have hFlush := (hLocked₃.rely hRely₄).flush_one
    (p := ⟨userId, -data.amount.val, .withdrawal, "Вывод средств", none⟩) hSome
  rw [UnitOfWork.begin_eq hSome]
  simp only [UnitOfWork.apply] at hFlush
  rw [hFlush]
  exact .withdraw userId user _ _ hHeld hRow₄ data.amount.property.1
    (hFunded.rely hHeld hRely₄)

theorem wp_checkCategory {categoryId : Option Nat} {held : Held market} {d : Db}
    {post : Unit → Held market → Db → Prop} (hWell : WellFormed A d)
    (h : ∀ d', (discipline percent A request).Rely held d d' → WellFormed A d' → post () held d') :
    (discipline percent A request).wp (checkCategory categoryId) held post d := by
  cases categoryId with
  | none => exact h d .refl hWell
  | some category =>
      unfold checkCategory
      rw [Discipline.wp_bind]
      apply wp_query
      intro d' hRely hWell'
      rw [Discipline.wp_raiseIf]
      exact fun _ => h d' hRely hWell'

/-- A new auction is opened as a lot without bids. -/
theorem newAuction_opened {d : Db} {userId : UserId} (data : AuctionCreate) (startTime : Time)
    (hUser : (d.users.get userId).isSome)
    (hBin : ¬(data.auctionType = .bin ∧ data.binPrice = none)) (id : LotId) :
    Opened d id (newAuction userId data startTime id) where
  id := rfl
  creator := hUser
  active := ⟨rfl, rfl, rfl⟩
  price := rfl
  positive := data.seedPrice.property.1
  binPrice price hPrice := by
    obtain ⟨given, _, rfl⟩ := Option.map_eq_some_iff.mp hPrice
    exact given.property
  fixedPrice hType := by
    have hType : data.auctionType = .bin := hType
    obtain ⟨price, hPrice⟩ := Option.ne_none_iff_exists'.mp fun hNone => hBin ⟨hType, hNone⟩
    simp [newAuction, AuctionCreate.seedPrice, hType, hPrice]
  extensions := rfl

theorem createAuction_safe (userId : UserId) (data : AuctionCreate) {d : Db} :
    (discipline percent A (.createAuction userId data)).Safe (createAuction userId data)
      Held.none d := by
  unfold Discipline.Safe createAuction
  rw [Discipline.wp_bind]
  apply wp_getCurrentUser
  intro d₁ loaded _ hWell₁ hLoaded
  have hUser₁ : (d₁.users.get userId).isSome := by simp [hLoaded]
  rw [Discipline.wp_bind]
  apply wp_utcnow
  intro d₂ startTime hRely₂ _ hWell₂
  have hUser₂ := users_rely hUser₁ hRely₂
  rw [Discipline.wp_bind]
  apply wp_checkCategory hWell₂
  intro d₃ hRely₃ hWell₃
  have hUser₃ := users_rely hUser₂ hRely₃
  rw [Discipline.wp_bind, Discipline.wp_raiseIf]
  intro hBin
  rw [Discipline.wp_bind]
  refine wp_commit (fun d₄ hRely₄ _ => ?_) fun d₄ _ _ => ?_
  · exact .create _ (newAuction_opened data startTime (users_rely hUser₃ hRely₄) hBin _)
  · have hCreated : CreatedBy (d₄.addAuction (newAuction userId data startTime))
        d₄.auctions.serial userId := by
      refine ⟨Nat.lt_succ_self _, fun row hRow => ?_⟩
      simp only [Db.addAuction, Table.get_add, if_true, Option.some.injEq] at hRow
      rw [← hRow]
      rfl
    dsimp only
    split_ifs
    · rw [Discipline.wp_bind]
      refine wp_commit (fun d₅ hRely₅ _ => ?_) fun _ _ _ => trivial
      exact .illustrate _ userId data rfl (hCreated.later (.of_rely hRely₅)).2
    · trivial

theorem WellFormed.Lot.revised {d : Db} {id : LotId} {row : Auction} (h : WellFormed.Lot d id row) :
    Revised row row :=
  ⟨rfl, rfl, ⟨rfl, rfl, rfl⟩, fun hPrice => hPrice, h.positive, h.binPrice⟩

/-- No edit touches who owns the lot or how it stands, and the two prices are
only set together. -/
theorem Revised.edit {old auction : Auction} (data : AuctionUpdate) (h : Revised old auction) :
    Revised old (data.edit auction) := by
  apply AuctionUpdate.edit_keeps h
  case startingPrice =>
    exact fun price _ a h => { h with price := fun _ => rfl, positive := price.property.1 }
  case binPrice =>
    intro given _ a h
    refine { h with binPrice := fun price hPrice => ?_ }
    obtain ⟨value, _, rfl⟩ := Option.map_eq_some_iff.mp hPrice
    exact value.property
  all_goals exact fun _ _ _ h => { h with }

/-- Dragging the current price along is part of a revision. -/
theorem Revised.dragAlong {old auction : Auction} (data : AuctionUpdate) (h : Revised old auction) :
    Revised old (data.dragAlong auction) := by
  unfold AuctionUpdate.dragAlong
  split
  next price _ hPrice =>
    split_ifs
    · exact { h with price := fun _ => rfl, positive := (h.binPrice price hPrice).1 }
    · exact h
  next => exact h

/-- A payload without fields edits nothing. -/
theorem AuctionUpdate.edit_of_no_fields {data : AuctionUpdate} (h : data.fields = false)
    (auction : Auction) :
    data.dragAlong (data.edit auction) = auction ∧ data.imageUrls.join = none := by
  simp only [fields, Bool.or_eq_false_iff, Option.isSome_eq_false_iff, Option.isNone_iff_eq_none] at h
  obtain ⟨⟨⟨⟨⟨⟨⟨hTitle, hDescription⟩, hCategory⟩, hStarting⟩, hBin⟩, hType⟩, hExtend⟩, hImages⟩ := h
  have hEdit : data.edit auction = auction := by
    simp [edit, ifGiven, hTitle, hDescription, hCategory, hStarting, hBin, hType, hExtend, hImages]
  refine ⟨?_, by simp [hImages]⟩
  rw [hEdit]
  unfold dragAlong
  simp only [hBin, hType, Option.isSome_none, Bool.false_eq_true, or_self, if_false]
  split <;> rfl

/-- The flush of a copy loaded under the lock stores that copy. -/
theorem LotLocked.flushAuction {held : Held market} {id : LotId} {row changed : Auction}
    {bids : List Bid} {d : Db} (h : LotLocked held id row bids d) (hId : changed.id = row.id) :
    d.flushAuction id row changed = d.setAuction id changed := by
  rw [Db.flushAuction_eq h.row, Auction.flush_loaded row changed hId]

/-- An edit keeps the contract: it is made under the lot's lock and refused
once there are bids. -/
theorem updateAuction_safe (userId : UserId) (auctionId : LotId) (data : AuctionUpdate) {d : Db} :
    (discipline percent A (.updateAuction userId auctionId data)).Safe
      (updateAuction userId auctionId data) Held.none d := by
  unfold Discipline.Safe updateAuction
  rw [Discipline.wp_bind]
  apply wp_getCurrentUser
  intro d₁ loaded _ hWell₁ _
  rw [Discipline.wp_bind]
  apply wp_selectAuctionForUpdate (fun _ _ _ _ => by simp [Prog.orRaise])
  intro d₂ held row _ hWell₂ _ _ hLot
  rw [Discipline.wp_bind, Discipline.wp_orRaise]
  rintro _ ⟨rfl⟩
  rw [Discipline.wp_bind, Discipline.wp_raiseIf]
  intro _
  rw [Discipline.wp_bind, Discipline.wp_raiseIf, not_not]
  intro hActive
  unfold bidsCount
  rw [Discipline.wp_bind]
  apply wp_query
  intro d₃ hRely₃ hWell₃
  have hLot₃ := hLot.rely hRely₃
  rw [Discipline.wp_bind, Discipline.wp_raiseIf]
  intro hFrozen
  rw [Discipline.wp_bind]
  apply wp_checkCategory hWell₃
  intro d₄ hRely₄ hWell₄
  have hLot₄ := hLot₃.rely hRely₄
  dsimp only
  rw [Discipline.wp_bind, Discipline.wp_raiseIf]
  intro hBin
  have hBinPrice : (data.edit row).auctionType = .bin → (data.edit row).binPrice ≠ none :=
    fun hType hNone => hBin ⟨hType, hNone⟩
  rw [Discipline.wp_bind, Discipline.wp_raiseIf]
  intro _
  rw [Discipline.wp_bind]
  refine wp_commit (fun d₅ hRely₅ hWell₅ => ?_) fun _ _ _ => trivial
  have hLot₅ := hLot₄.rely hRely₅
  have hRevised : Revised row (data.dragAlong (data.edit row)) :=
    ((hWell₅.lot hLot₅.row).revised.edit data).dragAlong data
  rw [hLot₅.flushAuction hRevised.id]
  cases hFields : data.fields with
  | false =>
      obtain ⟨hSame, hImages⟩ := AuctionUpdate.edit_of_no_fields hFields row
      rw [hSame, hImages, Db.setAuction_self hLot₅.row]
      exact .idle
  | true =>
      have hNoBids : d₅.bidsOn auctionId = [] := by
        rw [hLot₅.bids, ← hLot₃.bids]
        simpa [hFields] using hFrozen
      have hRevise : Commit percent A (.updateAuction userId auctionId data) held d₅ _ :=
        .revise auctionId row _ userId data rfl
          hLot₅.held hLot₅.row hNoBids hActive hRevised rfl hBinPrice
      unfold AuctionUpdate.images at hRevise
      cases hImages : data.imageUrls.join with
      | none =>
          rw [hImages] at hRevise
          exact hRevise
      | some urls =>
          rw [hImages] at hRevise
          exact hRevise

/-- A deletion keeps the contract: it is made under the lot's lock and refused
once there are bids. -/
theorem deleteAuction_safe (userId : UserId) (auctionId : LotId) {d : Db} :
    (discipline percent A request).Safe (deleteAuction userId auctionId) Held.none d := by
  unfold Discipline.Safe deleteAuction
  rw [Discipline.wp_bind]
  apply wp_getCurrentUser
  intro d₁ loaded _ hWell₁ _
  rw [Discipline.wp_bind]
  apply wp_selectAuctionForUpdate (fun _ _ _ _ => by simp [Prog.orRaise])
  intro d₂ held row _ hWell₂ _ _ hLot
  rw [Discipline.wp_bind, Discipline.wp_orRaise]
  rintro _ ⟨rfl⟩
  rw [Discipline.wp_bind, Discipline.wp_raiseIf]
  intro _
  unfold bidsCount
  rw [Discipline.wp_bind]
  apply wp_query
  intro d₃ hRely₃ hWell₃
  have hLot₃ := hLot.rely hRely₃
  rw [Discipline.wp_bind, Discipline.wp_raiseIf]
  intro hCount
  have hNoBids : d₃.bidsOn auctionId = [] := by simpa using hCount
  rw [Discipline.wp_bind, Discipline.wp_raiseIf]
  intro hCompleted
  rw [Discipline.wp_bind]
  refine wp_commit (fun d₄ hRely₄ _ => ?_) fun _ _ _ => trivial
  have hLot₄ := hLot₃.rely hRely₄
  exact .remove auctionId row hLot₄.held hLot₄.row (by rw [hLot₄.bids, ← hLot₃.bids, hNoBids])
    (by simpa using hCompleted)

/-- For a user who does not lead the lot the query returns at least what is
reserved. -/
theorem wp_effectiveCommittedBalance {held : Held market} {d : Db} {userId : UserId}
    {auctionId : LotId} {row : Auction} {bids : List Bid} {price : Money}
    {post : Money → Held market → Db → Prop} (hLot : LotLocked held auctionId row bids d)
    (hUser : held (.user userId) = true)
    (hTurn : (d.lastBid auctionId).map Bid.userId ≠ some userId)
    (h : ∀ d' committed, (discipline percent A request).Rely held d d' → WellFormed A d' →
      (A.clockMonotone → d'.reserved userId ≤ committed) → post committed held d') :
    (discipline percent A request).wp (effectiveCommittedBalance userId auctionId price) held
      post d := by
  unfold effectiveCommittedBalance getCommittedBalance selectLastBid
  rw [Discipline.wp_bind]
  apply wp_query
  intro d₁ hRely₁ hWell₁
  rw [Discipline.wp_bind]
  apply wp_query
  intro d₂ hRely₂ hWell₂
  have hBids : d₂.bidsOn auctionId = d.bidsOn auctionId :=
    ((hLot.rely hRely₁).rely hRely₂).bids.trans hLot.bids.symm
  rw [if_neg (by rwa [Db.lastBid_congr hBids])]
  apply h d₂ _ (hRely₁.trans hRely₂) hWell₂
  intro hClock
  rw [hWell₁.getCommittedBalance_eq hClock]
  exact (Kept.of_rely hRely₂).reserved hClock userId hUser

/-- A bid that has passed its checks is written while lot and bidder are as they
were checked. -/
theorem acceptance_safe {userId : UserId} {bid : BidCreate} {held : Held market} {row : Auction}
    {bids : List Bid} {locked : UserId → Option User} {user : User} {d : Db}
    (hLot : LotLocked held bid.auctionId row bids d) (hLocked : UsersLocked held locked d)
    (hUser : locked userId = some user) (hFunded : Funded A userId user.balance bid.amount.val d)
    (hTurn : (d.lastBid bid.auctionId).map Bid.userId ≠ some userId)
    (hActive : row.isActive = true) (hType : row.auctionType = .bid) (hOwn : row.createdBy ≠ userId)
    (hHigher : row.currentPrice < bid.amount.val) :
    (discipline percent A (.placeBid userId bid)).wp (do
      let (changed, extended) := acceptBid row bid.amount.val (← utcnow)
      let timestamp ← utcnow
      let _ ← commit fun d =>
        (d.flushAuction bid.auctionId row changed).addBid bid.amount.val timestamp userId
          bid.auctionId
      pure (if extended then some changed.endTime else none)) held (fun _ _ _ => True) d := by
  have hHeld := (hLocked userId user hUser).1
  rw [Discipline.wp_bind]
  apply wp_utcnow
  intro d₁ now hRely₁ _ _
  have hLot₁ := (hLot.rely hRely₁).observe held now
  have hFunded₁ := (hFunded.rely hHeld hRely₁).observe held now
  have hLocked₁ := (hLocked.rely hRely₁).observe held now
  dsimp only
  rw [Discipline.wp_bind]
  apply wp_utcnow
  intro d₂ t hRely₂ _ _
  have hLot₂ := (hLot₁.rely hRely₂).observe held t
  have hFunded₂ := (hFunded₁.rely hHeld hRely₂).observe held t
  have hLocked₂ := (hLocked₁.rely hRely₂).observe held t
  rw [Discipline.wp_bind]
  refine wp_commit (fun d₃ hRely₃ _ => ?_) fun _ _ _ => trivial
  have hLot₃ := hLot₂.rely hRely₃
  have hTime : d₃.lastReading bid.auctionId = some t := by
    rw [(Kept.of_rely hRely₃).reading _ hLot₂.held]
    simp [hLot₂.held]
  rw [hLot₃.flushAuction (acceptBid_fields row bid.amount.val now).1]
  refine .bid bid.auctionId row userId user bid.amount.val now t hLot₃.held hHeld hLot₃.row
    (hLocked₂.rely hRely₃ userId user hUser).2 hActive hType hOwn hHigher bid.amount.property.2 ?_
    (hFunded₂.rely hHeld hRely₃) hTime ⟨bid, rfl, rfl⟩
  rwa [Db.lastBid_congr (hLot₃.bids.trans hLot.bids.symm)]

/-- A bid keeps the contract: lot and bidder are locked when its amount is
checked. -/
theorem placeBid_safe (userId : UserId) (bid : BidCreate) {d : Db} :
    (discipline percent A (.placeBid userId bid)).wp (placeBid userId bid) Held.none (fun _ _ _ => True) d := by
  unfold placeBid
  rw [Discipline.wp_bind]
  apply wp_getCurrentUser
  intro d₁ loaded _ hWell₁ hLoaded
  have hUser₁ : (d₁.users.get userId).isSome := by simp [hLoaded]
  rw [Discipline.wp_bind]
  apply wp_selectAuctionForUpdate (fun _ _ _ _ => by simp [Prog.orRaise])
  intro d₂ held row hRely₂ _ _ _ hLot
  have hUser₂ := users_rely hUser₁ hRely₂
  rw [Discipline.wp_bind, Discipline.wp_orRaise]
  rintro _ ⟨rfl⟩
  rw [Discipline.wp_bind, Discipline.wp_raiseIf, not_not]
  intro hActive
  rw [Discipline.wp_bind, Discipline.wp_raiseIf]
  intro hBin
  have hType : row.auctionType = .bid := by
    cases h : row.auctionType with
    | bid => rfl
    | bin => exact absurd h hBin
  rw [Discipline.wp_bind, Discipline.wp_raiseIf]
  intro hOwn
  rw [Discipline.wp_bind]
  apply wp_utcnow
  intro d₃ t₃ hRely₃ _ _
  have hLot₃ := (hLot.rely hRely₃).observe held t₃
  have hUser₃ := users_rely hUser₂ hRely₃
  rw [Discipline.wp_bind, Discipline.wp_raiseIf]
  intro _
  rw [Discipline.wp_bind, Discipline.wp_raiseIf, not_le]
  intro hHigher
  unfold selectLastBid
  rw [Discipline.wp_bind]
  apply wp_query
  intro d₄ hRely₄ hWell₄
  have hLot₄ := hLot₃.rely hRely₄
  have hUser₄ := users_rely (d := market.observe held t₃ d₃) hUser₃ hRely₄
  rw [Discipline.wp_bind, Discipline.wp_raiseIf]
  intro hTurn
  rw [Discipline.wp_bind]
  apply wp_lockUsersById hWell₄
  intro locked held₅ d₅ hRely₅ hWell₅ hSub hLocked hFound
  have hLot₅ := (hLot₄.rely hRely₅).widen hSub
  obtain ⟨user, hUser⟩ := Option.isSome_iff_exists.mp (hFound userId (by simp) hUser₄)
  have hHeld := (hLocked userId user hUser).1
  have hTurn₅ : (d₅.lastBid bid.auctionId).map Bid.userId ≠ some userId := by
    rwa [Db.lastBid_congr (hLot₅.bids.trans hLot₄.bids.symm)]
  dsimp only
  rw [Discipline.wp_bind]
  apply wp_effectiveCommittedBalance hLot₅ hHeld hTurn₅
  intro d₆ committed hRely₆ _ hCommitted
  have hLot₆ := hLot₅.rely hRely₆
  rw [Discipline.wp_bind, Discipline.wp_raiseIf, hUser, Option.getD_some, not_lt]
  intro hEnough
  have hFunded : Funded A userId user.balance bid.amount.val d₆ := fun hClock => by
    have hLe := hCommitted hClock
    linarith
  refine acceptance_safe hLot₆ (hLocked.rely hRely₆) hUser hFunded ?_ hActive hType hOwn hHigher
  rwa [Db.lastBid_congr (hLot₆.bids.trans hLot₅.bids.symm)]

/-- The settlement of a purchase is the list of its postings, applied in turn. -/
theorem settleBinPurchase_eq (percent : CommissionPercent) (work : UnitOfWork) (auction : Auction)
    (price : Money) (buyer : UserId) (seller : User) (now : Time) :
    settleBinPurchase percent work auction price buyer (some seller) now =
      ((settlementOf percent .binPurchase buyer seller.id price auction.id
          s!"Покупка «{auction.title}» по цене BIN"
          s!"Продажа «{auction.title}» по цене BIN").foldl UnitOfWork.apply work,
        soldTo auction price buyer now) := by
  simp only [settleBinPurchase, creditSeller_eq]
  rfl

/-- The settlement of a won auction is the list of its postings, applied in
turn. -/
theorem settleBids_eq (percent : CommissionPercent) {locked : UserId → Option User}
    {auction : Auction} {lastBid : Bid} {winner creator : User}
    (hWinner : locked lastBid.userId = some winner) (hCreator : locked auction.createdBy = some creator) :
    settleBids percent locked auction lastBid =
      (settlementOf percent .bidWin winner.id creator.id lastBid.amount auction.id
        s!"Победа в аукционе «{auction.title}»" s!"Продажа лота «{auction.title}»").foldl
          UnitOfWork.apply ⟨locked, []⟩ := by
  simp only [settleBids, hWinner, hCreator, creditSeller_eq]
  rfl

/-- The two sides of a sale, both locked, are posted to their rows. -/
theorem UsersLocked.flush_sale {held : Held market} {locked : UserId → Option User} {d : Db}
    (h : UsersLocked held locked d) {payment : TransactionType} {buyer seller : UserId}
    {price : Money} {auctionId : LotId} {bought sold : String} (hBuyer : (locked buyer).isSome)
    (hSeller : (locked seller).isSome) :
    d.flushWork ((settlementOf percent payment buyer seller price auctionId bought sold).foldl
        UnitOfWork.apply ⟨locked, []⟩) =
      d.postAll (settlementOf percent payment buyer seller price auctionId bought sold) := by
  apply h.flushWork
  intro p hp
  rcases settlementOf_users hp with hUser | hUser
  · rwa [hUser]
  · rwa [hUser]

/-- A purchase keeps the contract: lot, buyer and seller are locked when it is
paid. -/
theorem buyNow_safe (userId : UserId) (auctionId : LotId) {d : Db} :
    (discipline percent A (.buyNow userId auctionId)).Safe (buyNow percent userId auctionId)
      Held.none d := by
  unfold Discipline.Safe buyNow
  rw [Discipline.wp_bind]
  apply wp_getCurrentUser
  intro d₁ loaded _ hWell₁ hLoaded
  have hUser₁ : (d₁.users.get userId).isSome := by simp [hLoaded]
  rw [Discipline.wp_bind]
  apply wp_selectAuctionForUpdate (fun _ _ _ _ => by simp [Prog.orRaise])
  intro d₂ held row hRely₂ _ _ _ hLot
  have hUser₂ := users_rely hUser₁ hRely₂
  rw [Discipline.wp_bind, Discipline.wp_orRaise]
  rintro _ ⟨rfl⟩
  rw [Discipline.wp_bind, Discipline.wp_raiseIf, not_not]
  intro hActive
  rw [Discipline.wp_bind]
  apply wp_utcnow
  intro d₃ t₃ hRely₃ _ hWell₃
  have hLot₃ := (hLot.rely hRely₃).observe held t₃
  have hUser₃ := users_rely hUser₂ hRely₃
  rw [Discipline.wp_bind, Discipline.wp_raiseIf]
  intro _
  rw [Discipline.wp_bind, Discipline.wp_raiseIf, not_not]
  intro hType
  rw [Discipline.wp_bind, Discipline.wp_orRaise]
  intro price hPrice
  have hPrice : row.binPrice = some price := (Option.filter_eq_some_iff.mp hPrice).1
  rw [Discipline.wp_bind, Discipline.wp_raiseIf]
  intro hOwn
  rw [Discipline.wp_bind]
  apply wp_lockUsersById hWell₃
  intro locked held₄ d₄ hRely₄ hWell₄ hSub hLocked hFound
  have hLot₄ := (hLot₃.rely hRely₄).widen hSub
  have hBuyerFound := hFound userId (by simp) hUser₃
  have hSellerFound := hFound row.createdBy (by simp) (hWell₃.creators _ _ hLot₃.row)
  obtain ⟨user, hUser⟩ := Option.isSome_iff_exists.mp hBuyerFound
  obtain ⟨creator, hCreator⟩ := Option.isSome_iff_exists.mp hSellerFound
  have hHeld := (hLocked userId user hUser).1
  have hSellerHeld := (hLocked row.createdBy creator hCreator).1
  have hCreatorId : creator.id = row.createdBy := hWell₄.userIds _ _ (hLocked _ _ hCreator).2
  have hRowId : row.id = auctionId := hWell₄.auctionIds _ _ hLot₄.row
  dsimp only
  unfold getCommittedBalance
  rw [Discipline.wp_bind]
  apply wp_query
  intro d₅ hRely₅ hWell₅
  have hLot₅ := hLot₄.rely hRely₅
  have hLocked₅ := hLocked.rely hRely₅
  rw [Discipline.wp_bind, Discipline.wp_raiseIf, hUser, Option.getD_some, not_lt]
  intro hEnough
  have hFunded : Funded A userId user.balance price d₅ := fun hClock => by
    rw [hWell₅.getCommittedBalance_eq hClock] at hEnough
    linarith
  rw [Discipline.wp_bind]
  apply wp_utcnow
  intro d₆ now hRely₆ _ _
  have hLot₆ := (hLot₅.rely hRely₆).observe held₄ now
  have hFunded₆ := (hFunded.rely hHeld hRely₆).observe held₄ now
  have hLocked₆ := (hLocked₅.rely hRely₆).observe held₄ now
  rw [hCreator, settleBinPurchase_eq, UnitOfWork.begin_eq hBuyerFound, hCreatorId, hRowId]
  dsimp only
  rw [Discipline.wp_bind]
  refine wp_commit (fun d₇ hRely₇ _ => ?_) fun _ _ _ => trivial
  have hLot₇ := hLot₆.rely hRely₇
  have hLocked₇ := hLocked₆.rely hRely₇
  have hSoldId : (soldTo row price userId now).id = row.id := rfl
  rw [hLot₇.flushAuction hSoldId, (hLocked₇.setAuction _ _).flush_sale hBuyerFound hSellerFound]
  exact .purchase auctionId row userId user price now _ _ rfl hLot₇.held hHeld hSellerHeld hLot₇.row
    (hLocked₇ userId user hUser).2 hActive hType hPrice hOwn (hFunded₆.rely hHeld hRely₇)

/-- Closing relative to a copy that was active closes the stored row. -/
theorem closed_flush {auction : Auction} (row : Auction) (hActive : auction.isActive = true)
    (hOpen : auction.isCompleted = false) (winnerId : Option UserId) :
    Closed row (Auction.flush auction
      { auction with isActive := false, isCompleted := true, winnerId := winnerId } row)
      (column auction.winnerId winnerId row.winnerId) := by
  constructor <;> simp [Auction.flush, column, hActive, hOpen]

/-- A well-formed lot stays so while the others run. -/
theorem WellFormed.Lot.rely {held : Held market} {d d' : Db} {id : LotId} {row : Auction}
    (h : WellFormed.Lot d id row) (hRely : (discipline percent A request).Rely held d d') :
    WellFormed.Lot d' id row :=
  { h with creator := users_rely h.creator hRely }

/-- What `complete_auction` has made sure of before it asks for the latest bid: its copy
was active and has reached its deadline, and the row and the bids are locked. -/
structure Settling (A : Assumptions) (held : Held market) (auctionId : LotId)
    (auction row : Auction) (bids : List Bid) (now : Time) (d : Db) : Prop where
  lot : LotLocked held auctionId row bids d
  copy : WellFormed.Lot d auctionId auction
  owner : auction.createdBy = row.createdBy
  active : auction.isActive = true
  once : A.settlesOnce → bids ≠ [] → row.isActive = true
  reading : A.deadlineKept → row.endTime ≤ now

section Settling

variable {held : Held market} {auctionId : LotId} {auction row : Auction} {bids : List Bid}
  {now : Time} {d : Db}

/-- What a settlement knows before it pays stays true while the others run. -/
theorem Settling.rely (h : Settling A held auctionId auction row bids now d) {d' : Db}
    (hRely : (discipline percent A request).Rely held d d') :
    Settling A held auctionId auction row bids now d' :=
  { h with
    lot := h.lot.rely hRely
    copy := h.copy.rely hRely }

/-- A lot without bids is closed and nobody pays. -/
theorem closing_safe (h : Settling A held auctionId auction row bids now d)
    (hLast : d.lastBid auctionId = none) :
    (discipline percent A request).wp (do
      let _ ← commit fun d => (d.flushAuction auctionId auction
        { auction with isActive := false, isCompleted := true }).recordSettlement
          ⟨auctionId, row.endTime, now⟩) held (fun _ _ _ => True) d := by
  rw [Discipline.wp_bind]
  refine wp_commit (fun d' hRely _ => ?_) fun _ _ _ => trivial
  have hLot := h.lot.rely hRely
  have hClosed := closed_flush row h.active (h.copy.undecided h.active).1 auction.winnerId
  rw [column, if_pos rfl] at hClosed
  rw [Db.flushAuction_eq hLot.row]
  refine .close auctionId row _ _ hLot.held hLot.row ?_ hClosed h.reading
  rw [hLot.bids, ← h.lot.bids]
  exact Db.lastBid_eq_none.mp hLast

/-- The latest bidder and the seller are locked, and the one pays the other. -/
theorem sale_safe (h : Settling A held auctionId auction row bids now d) (hWell : WellFormed A d)
    (hRequest : request = .tick auctionId ∨ request = .completeAuction auctionId) {lastBid : Bid}
    (hLast : d.lastBid auctionId = some lastBid) :
    (discipline percent A request).wp (do
      let locked ← lockUsersById [lastBid.userId, auction.createdBy]
      let _ ← commit fun d => ((d.flushAuction auctionId auction
        { auction with isActive := false, isCompleted := true, winnerId := some lastBid.userId }
          ).flushWork (settleBids percent locked auction lastBid)).recordSettlement
            ⟨auctionId, row.endTime, now⟩) held (fun _ _ _ => True) d := by
  rw [Discipline.wp_bind]
  apply wp_lockUsersById hWell
  intro locked held' d₁ hRely₁ hWell₁ hSub hLocked hFound
  have hLot₁ := (h.lot.rely hRely₁).widen hSub
  have hWinnerFound := hFound lastBid.userId (by simp)
    (hWell.bidRows lastBid (Db.lastBid_mem hLast).1).1
  have hSellerFound := hFound auction.createdBy (by simp) h.copy.creator
  obtain ⟨winner, hWinner⟩ := Option.isSome_iff_exists.mp hWinnerFound
  obtain ⟨creator, hCreator⟩ := Option.isSome_iff_exists.mp hSellerFound
  have hWinnerId : winner.id = lastBid.userId := hWell₁.userIds _ _ (hLocked _ _ hWinner).2
  have hCreatorId : creator.id = auction.createdBy := hWell₁.userIds _ _ (hLocked _ _ hCreator).2
  rw [settleBids_eq percent hWinner hCreator, hWinnerId, hCreatorId, h.copy.id, Discipline.wp_bind]
  refine wp_commit (fun d₂ hRely₂ _ => ?_) fun _ _ _ => trivial
  have hLot₂ := hLot₁.rely hRely₂
  have hLocked₂ := hLocked.rely hRely₂
  have hLast₂ : d₂.lastBid auctionId = some lastBid := by
    rw [Db.lastBid_congr (hLot₂.bids.trans h.lot.bids.symm), hLast]
  rw [Db.flushAuction_eq hLot₂.row, (hLocked₂.setAuction _ _).flush_sale hWinnerFound hSellerFound]
  obtain ⟨hOpen, hNoWinner⟩ := h.copy.undecided h.active
  have hClosed := closed_flush row h.active hOpen (some lastBid.userId)
  rw [hNoWinner, column, if_neg (Option.some_ne_none _)] at hClosed
  refine .settle auctionId row _ lastBid auction.createdBy _ _ _ hRequest hLot₂.held
    (hLocked₂ _ _ hWinner).1 (hLocked₂ _ _ hCreator).1 hLot₂.row hLast₂ ?_ h.owner hClosed
    (fun hA => h.once hA ?_) h.reading
  · simp [(hLocked₂ _ _ hCreator).2]
  · intro hNone
    rw [← h.lot.bids] at hNone
    simp [Db.lastBid_eq_none.mpr hNone] at hLast

end Settling

/-- A settlement is sound relative to any copy of the lot that was in order
when it was loaded. -/
theorem completeAuction_safe {auctionId : LotId} {identity : Option Auction} {d : Db}
    (hRequest : request = .tick auctionId ∨ request = .completeAuction auctionId)
    (hIdentity : ∀ copy, identity = some copy →
      WellFormed.Lot d auctionId copy ∧ CreatedBy d auctionId copy.createdBy) :
    (discipline percent A request).Safe (completeAuction percent auctionId identity)
      Held.none d := by
  unfold Discipline.Safe completeAuction
  rw [Discipline.wp_bind]
  apply wp_selectAuctionForUpdate (fun _ _ _ _ => trivial)
  intro d₁ held row hRely₁ hWell₁ hOk _ hLot
  dsimp only
  have hCopy : WellFormed.Lot d₁ auctionId (identity.getD row) := by
    cases identity with
    | none => exact hWell₁.lot hLot.row
    | some copy => exact (hIdentity copy rfl).1.rely hRely₁
  have hOwner : (identity.getD row).createdBy = row.createdBy := by
    cases identity with
    | none => rfl
    | some copy =>
        exact (((hIdentity copy rfl).2.later (.of_rely hRely₁)).2 row hLot.row).symm
  have hOnce : A.settlesOnce → (identity.getD row).isActive = true →
      d₁.bidsOn auctionId ≠ [] → row.isActive = true := by
    intro hA hActive hBids
    cases identity with
    | none => exact hActive
    | some copy => exact hOk.2.1 hA row hLot.row hActive hBids
  have hDeadline : A.deadlineKept → row.endTime ≤ (identity.getD row).endTime := by
    intro hA
    cases identity with
    | none => exact le_rfl
    | some copy => exact hOk.2.2 hA row hLot.row
  generalize identity.getD row = auction at hCopy hOwner hOnce hDeadline
  by_cases hActive : auction.isActive = true
  case neg =>
    rw [if_pos hActive]
    trivial
  rw [if_neg (not_not.mpr hActive), Discipline.wp_bind]
  apply wp_utcnow
  intro d₂ now hRely₂ _ hWell₂
  split_ifs with hEarly
  · trivial
  have hSettling : Settling A held auctionId auction row (d₁.bidsOn auctionId) now
      (market.observe held now d₂) :=
    { lot := (hLot.rely hRely₂).observe held now
      copy := { hCopy.rely hRely₂ with }
      owner := hOwner
      active := hActive
      once := fun hA => hOnce hA hActive
      reading := fun hA => (hDeadline hA).trans (not_lt.mp hEarly) }
  unfold selectLastBid
  rw [Discipline.wp_bind]
  apply wp_query
  intro d₃ hRely₃ hWell₃
  cases hLast : d₃.lastBid auctionId with
  | none => exact closing_safe (hSettling.rely hRely₃) hLast
  | some lastBid => exact sale_safe (hSettling.rely hRely₃) hWell₃ hRequest hLast

/-- The timer of a lot keeps the contract, whenever it fires. -/
theorem waitAndComplete_safe (auctionId : LotId) {d : Db} :
    (discipline percent A (.tick auctionId)).Safe (waitAndComplete percent auctionId)
      Held.none d := by
  unfold Discipline.Safe waitAndComplete
  rw [Discipline.wp_bind]
  apply wp_query
  intro d₁ _ hWell₁
  cases hRow : d₁.auctions.get auctionId with
  | none => trivial
  | some auction =>
      dsimp only
      by_cases hActive : auction.isActive = true
      case neg =>
        rw [if_pos hActive]
        trivial
      rw [if_neg (not_not.mpr hActive), Discipline.wp_bind]
      apply wp_utcnow
      intro d₂ now hRely₂ _ _
      split_ifs
      · trivial
      apply completeAuction_safe (.inl rfl)
      intro copy hCopy
      obtain rfl := Option.some.inj hCopy
      exact ⟨{ (hWell₁.lot hRow).rely hRely₂ with }, (CreatedBy.of_row hRow).later (.of_rely hRely₂)⟩

/-- Every request and every tick starts safely in any database in order. -/
theorem handle_safe (request : Request) {d : Db} :
    (discipline percent A request).Safe (handle percent request) Held.none d := by
  cases request with
  | register => exact register_safe
  | deposit userId data =>
      exact (Discipline.wp_bind _ _ _ _ _ _).mpr (deposit_safe userId data)
  | withdraw userId data =>
      exact (Discipline.wp_bind _ _ _ _ _ _).mpr (withdraw_safe userId data)
  | createAuction userId data => exact createAuction_safe userId data
  | updateAuction userId auctionId data => exact updateAuction_safe userId auctionId data
  | deleteAuction userId auctionId => exact deleteAuction_safe userId auctionId
  | placeBid userId bid =>
      exact (Discipline.wp_bind _ _ _ _ _ _).mpr (placeBid_safe userId bid)
  | buyNow userId auctionId => exact buyNow_safe userId auctionId
  | tick auctionId => exact waitAndComplete_safe auctionId
  | completeAuction auctionId => exact completeAuction_safe (.inr rfl) (by simp)

/-- Every reachable state is valid: each session keeps its contract. -/
theorem valid_of_reaches {categories : List Nat} {c : Config market}
    (run : Reaches (handle percent) A.ok (Db.initial categories) c) :
    ∃ requests, (rules percent A).Valid (promise percent A) requests c :=
  Discipline.Valid.of_reaches (WellFormed.of_initial A categories)
    (fun request _ _ => handle_safe request) run

/-- What an empty marketplace satisfies and every transaction keeps, holds of
the committed database in every interleaving. -/
theorem invariant_of_commits {categories : List Nat} {I : Db → Prop}
    (hInit : I (Db.initial categories))
    (hStep : ∀ {request held d d'}, WellFormed A d → I d → Commit percent A request held d d' →
      I d')
    {c : Config market} (run : Reaches (handle percent) A.ok (Db.initial categories) c) : I c.db :=
  Discipline.invariant_of_reaches (P := rules percent A) (.of_initial A categories)
    (fun request _ _ => Discipline.wp_of_promising (promise percent A request).may_of_does
      (handle_safe request))
    hInit (fun hWell hHolds ⟨_, hCommit⟩ => hStep hWell hHolds hCommit) run

theorem wellFormed_of_reaches {categories : List Nat} {c : Config market}
    (run : Reaches (handle percent) A.ok (Db.initial categories) c) : WellFormed A c.db :=
  invariant_of_commits (.of_initial A categories) (fun hWell _ hCommit => hWell.commit hCommit) run

/-- The commit a session is about to make is a transaction of the rows as they
stand, whether or not the constraints will admit it. -/
theorem pending_commit {categories : List Nat} {c : Config market}
    (run : Reaches (handle percent) A.ok (Db.initial categories) c) {sid : Nat}
    {note : Option Auction} {write : Db → Db} {next : Option Db → Prog market Unit}
    (hSession : c.sessions sid = some (.commit note write next)) :
    ∃ request, Commit percent A request (c.held sid) c.db (write c.db) := by
  obtain ⟨requests, hValid⟩ := valid_of_reaches run
  exact hValid.pending hSession ⟨fun _ => trivial, fun _ => trivial, fun _ => trivial⟩

def chair : AuctionCreate where
  title := ⟨"Chair", by decide⟩
  description := "A chair"
  startingPrice := ⟨10000, by decide⟩
  durationMinutes := ⟨10, by decide⟩
  imageUrl := none
  imageUrls := none
  categoryId := none
  auctionType := .bid
  binPrice := none

def steps (sid n : Nat) : List (Action market Request) := List.replicate n (.step sid)

/-- User 0 lists a chair at time 0, user 1 bids on it a second later. -/
def firstBid : List (Action market Request) :=
  [.start 0 .register, .step 0, .start 1 .register, .step 1] ++
  [.start 2 (.createAuction 0 chair), .step 2, .clock 2 0, .step 2] ++
  [.start 3 (.placeBid 1 ⟨0, ⟨20000, by decide⟩⟩)] ++ steps 3 2 ++ [.clock 3 (seconds 1)] ++
  steps 3 4 ++ [.clock 3 (seconds 1), .clock 3 (seconds 1), .step 3]

/-- A tick on lot 0 at its deadline settles the sale. -/
def firstSale : List (Action market Request) :=
  firstBid ++ [.start 4 (.tick 0), .step 4, .clock 4 (minutes 10), .step 4, .clock 4 (minutes 10)] ++
    steps 4 4

end OnlineAuction
