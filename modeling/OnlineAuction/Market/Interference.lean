import OnlineAuction.Market.Reserved

/-! What a session's row locks protect while the others commit. -/

namespace OnlineAuction

open RowLocks

/-- Rows held by the session are as they were, and the reserved money of a
user whose row it holds has not grown. -/
structure Kept (A : Assumptions) (held : Held market) (d d' : Db) : Prop where
  lot : ∀ id row, held (.lot id) = true → d.auctions.get id = some row →
    d'.auctions.get id = some row
  bids : ∀ id, held (.lot id) = true → d'.bidsOn id = d.bidsOn id
  reading : ∀ id, held (.lot id) = true → d'.lastReading id = d.lastReading id
  user : ∀ id row, held (.user id) = true → d.users.get id = some row →
    d'.users.get id = some row
  users : ∀ id, (d.users.get id).isSome → (d'.users.get id).isSome
  reserved : A.clockMonotone → ∀ id, held (.user id) = true → d'.reserved id ≤ d.reserved id

namespace Kept

variable {A : Assumptions} {held other : Held market} {d d' d'' : Db}

theorem refl (A : Assumptions) (held : Held market) (d : Db) : Kept A held d d where
  lot _ _ _ h := h
  bids _ _ := rfl
  reading _ _ := rfl
  user _ _ _ h := h
  users _ h := h
  reserved _ _ _ := le_rfl

/-- What two commits leave alone, both in a row leave alone. -/
theorem trans (h : Kept A held d d') (h' : Kept A held d' d'') : Kept A held d d'' where
  lot id row hHeld hRow := h'.lot id row hHeld (h.lot id row hHeld hRow)
  bids id hHeld := (h'.bids id hHeld).trans (h.bids id hHeld)
  reading id hHeld := (h'.reading id hHeld).trans (h.reading id hHeld)
  user id row hHeld hRow := h'.user id row hHeld (h.user id row hHeld hRow)
  users id hRow := h'.users id (h.users id hRow)
  reserved hClock id hHeld := (h'.reserved hClock id hHeld).trans (h.reserved hClock id hHeld)

/-- The lots and bids are as they were. -/
theorem of_same (hAuctions : d'.auctions = d.auctions) (hBids : d'.bids = d.bids)
    (hReading : ∀ id, held (.lot id) = true → d'.lastReading id = d.lastReading id)
    (hUser : ∀ id row, held (.user id) = true → d.users.get id = some row →
      d'.users.get id = some row)
    (hUsers : ∀ id, (d.users.get id).isSome → (d'.users.get id).isSome) : Kept A held d d' where
  lot id row _ hRow := by rwa [hAuctions]
  bids id _ := Db.bidsOn_congr hBids id
  reading := hReading
  user := hUser
  users := hUsers
  reserved _ id _ := Db.reserved_le fun auctionId =>
    (Db.reservedOn_congr (by rw [hAuctions]) (Db.bidsOn_congr hBids auctionId) id).le

/-- One lot, not held by the session, has changed and reserves nothing for
the users it holds. -/
theorem of_lot (key : LotId) (hWell : WellFormed A d) (hKey : held (.lot key) = false ∨
      d.auctions.get key = none ∧ d'.bidsOn key = d.bidsOn key)
    (hAuctions : ∀ id, id ≠ key → d'.auctions.get id = d.auctions.get id)
    (hBids : ∀ id, id ≠ key → d'.bidsOn id = d.bidsOn id)
    (hReading : d'.lastReading = d.lastReading)
    (hUser : ∀ id row, held (.user id) = true → d.users.get id = some row →
      d'.users.get id = some row)
    (hUsers : ∀ id, (d.users.get id).isSome → (d'.users.get id).isSome)
    (hReserved : A.clockMonotone → ∀ id, held (.user id) = true → d'.reservedOn id key = 0) :
    Kept A held d d' where
  lot id row hHeld hRow := by
    by_cases hId : id = key
    · subst hId
      rcases hKey with hKey | ⟨hNone, _⟩
      · simp [hKey] at hHeld
      · simp [hNone] at hRow
    · rwa [hAuctions id hId]
  bids id hHeld := by
    by_cases hId : id = key
    · subst hId
      rcases hKey with hKey | ⟨_, hSame⟩
      · simp [hKey] at hHeld
      · exact hSame
    · exact hBids id hId
  reading id _ := by rw [hReading]
  user := hUser
  users := hUsers
  reserved hClock id hHeld :=
    hWell.reserved_le_of_lot (hReserved hClock id hHeld) hAuctions hBids

/-- Postings to users the session does not hold. -/
theorem user_postAll {postings : List Posting}
    (h : ∀ p ∈ postings, held (.user p.userId) = false) {id : UserId} {row : User}
    (hHeld : held (.user id) = true) (hRow : d.users.get id = some row) :
    (d.postAll postings).users.get id = some row := by
  rw [Db.get_postAll_other fun p hp hId => by
    subst hId
    simp [h p hp] at hHeld]
  exact hRow

/-- A posting to a user the session does not hold. -/
theorem of_post {p : Posting} (h : held (.user p.userId) = false) :
    Kept A held d (d.post p) := by
  apply of_same (by simp) (by simp) (by simp)
  · intro id row hHeld hRow
    have hOthers : ∀ q ∈ [p], held (.user q.userId) = false := by simpa using h
    exact user_postAll (d := d) hOthers hHeld hRow
  · intro id hId
    exact (Db.isSome_postAll d [p] id).trans hId

end Kept

/-- A settlement touches the buyer and the seller alone. -/
theorem settlementOf_users {percent : CommissionPercent} {payment : TransactionType}
    {buyer seller : UserId} {price : Money} {auctionId : LotId} {bought sold : String}
    {p : Posting} (h : p ∈ settlementOf percent payment buyer seller price auctionId bought sold) :
    p.userId = buyer ∨ p.userId = seller := by
  unfold settlementOf saleOf at h
  split_ifs at h <;> simp only [List.mem_cons, List.not_mem_nil, or_false] at h
  · rcases h with rfl | rfl | rfl <;> simp
  · rcases h with rfl | rfl <;> simp

namespace WellFormed

variable {A : Assumptions} {d : Db}

/-- The bid just written is the latest one of its lot. -/
theorem lastBid_addBid {amount : Money} {t : Time} {userId : UserId} {auctionId : LotId}
    (h : WellFormed A (d.addBid amount t userId auctionId)) (hClock : A.clockMonotone) :
    (d.addBid amount t userId auctionId).lastBid auctionId =
      some ⟨d.bidSerial, amount, t, userId, auctionId⟩ := by
  rw [h.lastBid_eq hClock, Db.bidsOn_addBid_self, List.getLast?_concat]

/-- The next number has no bids yet. -/
theorem bidsOn_serial (h : WellFormed A d) : d.bidsOn d.auctions.serial = [] := by
  rw [List.eq_nil_iff_forall_not_mem]
  intro bid hBid
  obtain ⟨hMem, hLot⟩ := Db.mem_bidsOn.mp hBid
  exact absurd (h.lot_exists hMem) (hLot ▸ lt_irrefl _)

end WellFormed

namespace Kept

variable {percent : CommissionPercent} {A : Assumptions} {held other : Held market} {d d' : Db}

/-- What another session has locked, this one has not. -/
theorem free (hDisjoint : ∀ key, held key = true → other key = false) {key : Key}
    (hOther : other key = true) : held key = false := by
  by_contra hHeld
  have hFree := hDisjoint key (by simpa using hHeld)
  simp [hOther] at hFree

/-- Only the row of a lot that this session does not hold has changed, and it reserves nothing. -/
theorem of_row (key : LotId) (hWell : WellFormed A d) (hFree : held (.lot key) = false)
    (hAuctions : ∀ id, id ≠ key → d'.auctions.get id = d.auctions.get id)
    (hBids : d'.bids = d.bids) (hReading : d'.lastReading = d.lastReading)
    (hUsers : d'.users = d.users) (hReserved : ∀ id, d'.reservedOn id key = 0) :
    Kept A held d d' := by
  apply of_lot key hWell (.inl hFree) hAuctions (fun id _ => Db.bidsOn_congr hBids id) hReading
  · exact fun id row _ hUser => hUsers ▸ hUser
  · exact fun id hUser => hUsers ▸ hUser
  · exact fun _ id _ => hReserved id

/-- A lot has been sold between two users, none of the three held by this session. -/
theorem of_sale {auctionId : LotId} {old new : Auction} {payment : TransactionType}
    {buyer seller : UserId} {price : Money} {bought sold : String} (hWell : WellFormed A d)
    (hDisjoint : ∀ key, held key = true → other key = false)
    (hHeld : other (.lot auctionId) = true) (hBuyer : other (.user buyer) = true)
    (hSeller : other (.user seller) = true) (hRow : d.auctions.get auctionId = some old)
    (hInactive : new.isActive = false) :
    Kept A held d ((d.setAuction auctionId new).postAll
      (settlementOf percent payment buyer seller price auctionId bought sold)) := by
  have hPostings : ∀ p ∈ settlementOf percent payment buyer seller price auctionId bought sold,
      held (.user p.userId) = false := by
    intro p hp
    rcases settlementOf_users hp with hUser | hUser
    · rw [hUser]
      exact free hDisjoint hBuyer
    · rw [hUser]
      exact free hDisjoint hSeller
  refine of_lot auctionId hWell (.inl (free hDisjoint hHeld)) ?_
    (fun id _ => Db.bidsOn_congr (by simp [Db.setAuction]) id) (by simp [Db.setAuction])
    (fun id row hId hUser => user_postAll hPostings hId hUser) ?_ fun _ id _ => ?_
  · intro id hId
    rw [Db.postAll_auctions, Db.get_setAuction_other d _ hId]
  · intro id hId
    exact (Db.isSome_postAll _ _ id).trans hId
  · exact Db.reservedOn_inactive (by rw [Db.postAll_auctions, Db.get_setAuction_self hRow])
      hInactive id

/-- A new lot has a number that nobody holds, and no bids. -/
theorem of_create (hWell : WellFormed A d) (row : LotId → Auction) :
    Kept A held d (d.addAuction row) := by
  have hNone : (d.addAuction row).bidsOn d.auctions.serial = [] := hWell.bidsOn_serial
  refine of_lot d.auctions.serial hWell
    (.inr ⟨d.auctions.unused _ le_rfl, Db.bidsOn_congr rfl _⟩) ?_
    (fun id _ => Db.bidsOn_congr rfl id) rfl (fun _ _ _ h => h) (fun _ h => h)
    fun _ id _ => Db.reservedOn_noBids hNone id
  intro id hId
  simp [Db.addAuction, hId]

/-- A bid reserves money of its author only, whom the other session holds. -/
theorem of_bid {auctionId : LotId} {new : Auction} {userId : UserId} {amount : Money} {t : Time}
    (hWell : WellFormed A d)
    (hNext : WellFormed A ((d.setAuction auctionId new).addBid amount t userId auctionId))
    (hDisjoint : ∀ key, held key = true → other key = false)
    (hHeld : other (.lot auctionId) = true) (hUserHeld : other (.user userId) = true) :
    Kept A held d ((d.setAuction auctionId new).addBid amount t userId auctionId) := by
  refine of_lot auctionId hWell (.inl (free hDisjoint hHeld))
    (fun id hId => Db.get_setAuction_other d _ hId) ?_ rfl (fun _ _ _ h => h) (fun _ h => h) ?_
  · intro id hId
    rw [Db.bidsOn_addBid_other _ _ _ _ hId]
    exact Db.bidsOn_congr rfl id
  · intro hClock id hId
    apply Db.reservedOn_follower
    rw [hNext.lastBid_addBid hClock]
    rintro ⟨rfl⟩
    simp [free hDisjoint hUserHeld] at hId

/-- A transaction of a session that holds other locks keeps what this session
has locked. -/
theorem of_commit {request : Request} (hWell : WellFormed A d)
    (hDisjoint : ∀ key, held key = true → other key = false)
    (hCommit : Commit percent A request other d d') : Kept A held d d' := by
  have hNext : WellFormed A d' := hWell.commit hCommit
  cases hCommit with
  | idle => exact .refl A held d
  | observe t _ =>
      refine .of_same rfl rfl (fun id hHeld => ?_) (fun _ _ _ h => h) fun _ h => h
      simp [hDisjoint _ hHeld]
  | register =>
      refine .of_same rfl rfl (fun _ _ => rfl) (fun id row _ hRow => Table.get_add_old hRow _) ?_
      intro id hId
      obtain ⟨row, hRow⟩ := Option.isSome_iff_exists.mp hId
      exact Option.isSome_iff_exists.mpr ⟨row, Table.get_add_old hRow _⟩
  | deposit _ _ _ _ hHeld => exact of_post (free hDisjoint hHeld)
  | withdraw _ _ _ _ hHeld => exact of_post (free hDisjoint hHeld)
  | create row hOpened => exact of_create hWell row
  | illustrate =>
      exact .of_same rfl rfl (fun _ _ => rfl) (fun _ _ _ h => h) fun _ h => h
  | revise auctionId old new userId data hRequest hHeld hRow hNoBids =>
      exact of_row auctionId hWell (free hDisjoint hHeld)
        (fun id hId => Db.get_setAuction_other d new hId) rfl rfl rfl fun id => Db.reservedOn_noBids
          (d := { d.setAuction auctionId new with images := data.images d auctionId }) hNoBids id
  | remove auctionId row hHeld hRow hNoBids =>
      refine of_row auctionId hWell (free hDisjoint hHeld) (fun id hId => ?_) rfl rfl rfl fun id => ?_
      · simp [Db.deleteAuction, hId]
      · exact Db.reservedOn_noBids (d := d.deleteAuction auctionId) hNoBids id
  | bid auctionId old userId user amount now t hHeld hUserHeld =>
      exact of_bid hWell hNext hDisjoint hHeld hUserHeld
  | purchase auctionId old buyer user price now bought sold hRequest hHeld hBuyer hSeller hRow =>
      exact of_sale hWell hDisjoint hHeld hBuyer hSeller hRow rfl
  | close auctionId old new settlement hHeld hRow _ hClosed =>
      exact of_row auctionId hWell (free hDisjoint hHeld)
        (fun id hId => Db.get_setAuction_other d new hId) rfl rfl rfl fun id =>
          Db.reservedOn_inactive (Db.get_setAuction_self hRow new) hClosed.inactive id
  | settle auctionId old new lastBid seller bought sold settlement hRequest hHeld hWinner hSeller hRow
      _ _ _ hClosed =>
      have hSale : Kept A held d ((d.setAuction auctionId new).postAll (settlementOf percent .bidWin
          lastBid.userId seller lastBid.amount auctionId bought sold)) :=
        of_sale hWell hDisjoint hHeld hWinner hSeller hRow hClosed.inactive
      exact { hSale with }

end Kept

/-- Lots keep their creators, and the number of a deleted lot is not used again. -/
def SameCreators (d d' : Db) : Prop :=
  d.auctions.serial ≤ d'.auctions.serial ∧
    ∀ id < d.auctions.serial, ∀ row', d'.auctions.get id = some row' →
      ∃ row, d.auctions.get id = some row ∧ row'.createdBy = row.createdBy

/-- The number has been given to a lot of the user's. -/
def CreatedBy (d : Db) (id : LotId) (userId : UserId) : Prop :=
  id < d.auctions.serial ∧ ∀ row, d.auctions.get id = some row → row.createdBy = userId

/-- The creator of a stored lot is the one in its row. -/
theorem CreatedBy.of_row {d : Db} {id : LotId} {row : Auction}
    (hRow : d.auctions.get id = some row) : CreatedBy d id row.createdBy := by
  refine ⟨Table.lt_serial hRow, fun found hFound => ?_⟩
  rw [hRow, Option.some.injEq] at hFound
  rw [hFound]

/-- The creator of a lot is the same in every later state. -/
theorem CreatedBy.later {d d' : Db} {id : LotId} {userId : UserId} (h : CreatedBy d id userId)
    (hSame : SameCreators d d') : CreatedBy d' id userId := by
  refine ⟨h.1.trans_le hSame.1, fun row' hRow' => ?_⟩
  obtain ⟨row, hRow, hCreator⟩ := hSame.2 id h.1 row' hRow'
  exact hCreator.trans (h.2 row hRow)

theorem SameCreators.of_same {d d' : Db} (h : d'.auctions = d.auctions) : SameCreators d d' :=
  ⟨h ▸ le_rfl, fun _ _ row' hRow' => ⟨row', h ▸ hRow', rfl⟩⟩

theorem SameCreators.trans {d d' d'' : Db} (h : SameCreators d d') (h' : SameCreators d' d'') :
    SameCreators d d'' := by
  refine ⟨h.1.trans h'.1, fun id hId row'' hRow'' => ?_⟩
  obtain ⟨row', hRow', hSame'⟩ := h'.2 id (hId.trans_le h.1) row'' hRow''
  obtain ⟨row, hRow, hSame⟩ := h.2 id hId row' hRow'
  exact ⟨row, hRow, hSame'.trans hSame⟩

/-- Rewriting one lot under its creator changes no creator. -/
theorem SameCreators.of_lot {d d' : Db} {key : LotId} {old new : Auction}
    (hOld : d.auctions.get key = some old) (hNew : d'.auctions.get key = some new)
    (hCreator : new.createdBy = old.createdBy) (hSerial : d'.auctions.serial = d.auctions.serial)
    (hOthers : ∀ id, id ≠ key → d'.auctions.get id = d.auctions.get id) : SameCreators d d' := by
  refine ⟨hSerial.ge, fun id _ row' hRow' => ?_⟩
  by_cases hId : id = key
  · subst hId
    rw [hNew, Option.some.injEq] at hRow'
    exact ⟨old, hOld, hRow' ▸ hCreator⟩
  · exact ⟨row', (hOthers id hId).symm.trans hRow', rfl⟩

theorem SameCreators.of_commit {percent : CommissionPercent} {A : Assumptions} {request : Request}
    {held : Held market} {d d' : Db} (hCommit : Commit percent A request held d d') :
    SameCreators d d' := by
  cases hCommit with
  | create row =>
      refine ⟨Nat.le_succ _, fun id hId row' hRow' => ?_⟩
      simp only [Db.addAuction, Table.get_add, if_neg hId.ne] at hRow'
      exact ⟨row', hRow', rfl⟩
  | revise auctionId old new _ data _ _ hRow _ _ hRevised =>
      exact .of_lot hRow (Db.get_setAuction_self hRow new) hRevised.createdBy rfl
        fun id hId => Db.get_setAuction_other d new hId
  | remove auctionId =>
      refine ⟨le_rfl, fun id _ row' hRow' => ⟨row', ?_, rfl⟩⟩
      simp only [Db.deleteAuction, Table.get_erase, Option.ite_none_left_eq_some] at hRow'
      exact hRow'.2
  | bid auctionId old userId user amount now _ _ _ hRow =>
      exact .of_lot hRow (Db.get_setAuction_self hRow (acceptBid old amount now).1)
        (acceptBid_fields old amount now).2.1 rfl
        fun id hId => Db.get_setAuction_other d _ hId
  | purchase auctionId old buyer user price now _ _ _ _ _ _ hRow =>
      have hSold := SameCreators.of_lot hRow (Db.get_setAuction_self hRow (soldTo old price buyer now))
        rfl rfl fun id hId => Db.get_setAuction_other d _ hId
      exact hSold.trans (.of_same (Db.postAll_auctions _ _))
  | close auctionId old new settlement _ hRow _ hClosed =>
      exact .of_lot hRow (Db.get_setAuction_self hRow new) hClosed.createdBy rfl
        fun id hId => Db.get_setAuction_other d new hId
  | settle auctionId old new lastBid seller _ _ settlement _ _ _ _ hRow _ _ _ hClosed =>
      have hSet := SameCreators.of_lot hRow (Db.get_setAuction_self hRow new) hClosed.createdBy rfl
        fun id hId => Db.get_setAuction_other d new hId
      exact hSet.trans (.of_same (Db.postAll_auctions _ _))
  | deposit => exact .of_same (Db.post_auctions _ _)
  | withdraw => exact .of_same (Db.post_auctions _ _)
  | _ => exact .of_same rfl

def rules (percent : CommissionPercent) (A : Assumptions) : Discipline market where
  ok := A.ok
  inv := WellFormed A
  may held d d' := ∃ request, Commit percent A request held d d'
  inv_may hWell hMay := by
    obtain ⟨request, hCommit⟩ := hMay
    exact hWell.commit hCommit
  may_observe _ _ hOk := ⟨.register, .observe _ fun hClock => hOk.1 hClock⟩

def promise (percent : CommissionPercent) (A : Assumptions) (request : Request) :
    (rules percent A).Promise where
  does _ := Commit percent A request
  may_of_does hCommit := ⟨request, hCommit⟩

def discipline (percent : CommissionPercent) (A : Assumptions) (request : Request) :
    Discipline market := (rules percent A).promising (promise percent A request)

/-- What the others commit leaves the held rows as they are. -/
theorem Kept.of_rely {percent : CommissionPercent} {A : Assumptions} {request : Request}
    {held : Held market} {d d' : Db} (h : (discipline percent A request).Rely held d d') :
    Kept A held d d' := by
  apply h.lift (.refl A held) .trans
  intro d d' hStep
  obtain ⟨_, hDisjoint, hWell, other, hCommit⟩ := hStep
  exact .of_commit hWell hDisjoint hCommit

theorem SameCreators.of_rely {percent : CommissionPercent} {A : Assumptions} {request : Request}
    {held : Held market} {d d' : Db} (h : (discipline percent A request).Rely held d d') :
    SameCreators d d' := by
  apply h.lift (fun d => .of_same rfl) .trans
  intro d d' hStep
  obtain ⟨_, _, _, other, hCommit⟩ := hStep
  exact .of_commit hCommit

end OnlineAuction
