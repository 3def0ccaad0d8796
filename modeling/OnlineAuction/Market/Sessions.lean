import OnlineAuction.Market.Interference

/-! What a session knows after each effect, and how that knowledge survives
the commits of the others. -/

namespace OnlineAuction

open RowLocks

variable {percent : CommissionPercent} {A : Assumptions} {request : Request}

/-- The session holds the lot, with this row and these bids. -/
structure LotLocked (held : Held market) (id : LotId) (row : Auction) (bids : List Bid) (d : Db) :
    Prop where
  held : held (.lot id) = true
  row : d.auctions.get id = some row
  bids : d.bidsOn id = bids

/-- Every user the session has locked is as it was read. -/
def UsersLocked (held : Held market) (locked : UserId → Option User) (d : Db) : Prop :=
  ∀ uid user, locked uid = some user →
    held (.user uid) = true ∧ d.users.get uid = some user

/-- The balance covers the amount on top of everything reserved. -/
def Funded (A : Assumptions) (userId : UserId) (balance amount : Money) (d : Db) : Prop :=
  A.clockMonotone → d.reserved userId + amount ≤ balance

/-- What a session knows of a lot it holds stays true while the others run. -/
theorem LotLocked.rely {held : Held market} {id : LotId} {row : Auction} {bids : List Bid}
    {d d' : Db} (h : LotLocked held id row bids d)
    (hRely : (discipline percent A request).Rely held d d') :
    LotLocked held id row bids d' where
  held := h.held
  row := (Kept.of_rely hRely).lot id row h.held h.row
  bids := ((Kept.of_rely hRely).bids id h.held).trans h.bids

theorem LotLocked.widen {held held' : Held market} {id : LotId} {row : Auction} {bids : List Bid}
    {d : Db} (h : LotLocked held id row bids d)
    (hSub : ∀ key, held key = true → held' key = true) : LotLocked held' id row bids d :=
  ⟨hSub _ h.held, h.row, h.bids⟩

theorem LotLocked.observe {held : Held market} {id : LotId} {row : Auction} {bids : List Bid}
    {d : Db} (h : LotLocked held id row bids d) (other : Held market) (t : Time) :
    LotLocked held id row bids (market.observe other t d) := ⟨h.held, h.row, h.bids⟩

/-- What a session knows of the users it holds stays true while the others run. -/
theorem UsersLocked.rely {held : Held market} {locked : UserId → Option User} {d d' : Db}
    (h : UsersLocked held locked d) (hRely : (discipline percent A request).Rely held d d') :
    UsersLocked held locked d' := by
  intro uid user hUser
  obtain ⟨hHeld, hRow⟩ := h uid user hUser
  exact ⟨hHeld, (Kept.of_rely hRely).user uid user hHeld hRow⟩

theorem UsersLocked.observe {held : Held market} {locked : UserId → Option User} {d : Db}
    (h : UsersLocked held locked d) (other : Held market) (t : Time) :
    UsersLocked held locked (market.observe other t d) := h

theorem UsersLocked.setAuction {held : Held market} {locked : UserId → Option User} {d : Db}
    (h : UsersLocked held locked d) (id : LotId) (new : Auction) :
    UsersLocked held locked (d.setAuction id new) := h

theorem UsersLocked.widen {held held' : Held market} {locked : UserId → Option User} {d : Db}
    (h : UsersLocked held locked d) (hSub : ∀ key, held key = true → held' key = true) :
    UsersLocked held' locked d :=
  fun uid user hUser => ⟨hSub _ (h uid user hUser).1, (h uid user hUser).2⟩

/-- A bidder who is held and can pay an amount can pay it while the others run:
they only release that bidder's money. -/
theorem Funded.rely {held : Held market} {userId : UserId} {balance amount : Money} {d d' : Db}
    (h : Funded A userId balance amount d) (hHeld : held (.user userId) = true)
    (hRely : (discipline percent A request).Rely held d d') : Funded A userId balance amount d' := by
  intro hClock
  have hLe := (Kept.of_rely hRely).reserved hClock userId hHeld
  have hNow := h hClock
  linarith

theorem Funded.observe {userId : UserId} {balance amount : Money} {d : Db}
    (h : Funded A userId balance amount d) (other : Held market) (t : Time) :
    Funded A userId balance amount (market.observe other t d) := h

theorem users_rely {held : Held market} {userId : UserId} {d d' : Db}
    (h : (d.users.get userId).isSome) (hRely : (discipline percent A request).Rely held d d') :
    (d'.users.get userId).isSome := (Kept.of_rely hRely).users userId h

section Effects

variable {α : Type} {held : Held market} {d : Db}

theorem wp_utcnow {post : Time → Held market → Db → Prop}
    (h : ∀ d' t, (discipline percent A request).Rely held d d' → WellFormed A d' →
      WellFormed A (market.observe held t d') → post t held (market.observe held t d')) :
    (discipline percent A request).wp utcnow held post d := by
  intro d' t hRely hWell _ hOk
  exact h d' t hRely hWell (hWell.observe fun hClock => hOk.1 hClock)

theorem wp_query {select : Db → α} {post : α → Held market → Db → Prop}
    (h : ∀ d', (discipline percent A request).Rely held d d' → WellFormed A d' →
      post (select d') held d') :
    (discipline percent A request).wp (query select) held post d :=
  fun d' hRely hWell _ => h d' hRely hWell

theorem wp_getCurrentUser {userId : UserId} {post : User → Held market → Db → Prop}
    (h : ∀ d' user, (discipline percent A request).Rely held d d' → WellFormed A d' →
      d'.users.get userId = some user → post user held d') :
    (discipline percent A request).wp (getCurrentUser userId) held post d := by
  unfold getCurrentUser
  rw [Discipline.wp_bind]
  apply wp_query
  intro d' hRely hWell
  rw [Discipline.wp_orRaise]
  exact fun user hUser => h d' user hRely hWell hUser

/-- The lock of a lot, with the guard on the copy already loaded. -/
theorem wp_selectAuctionForUpdate {auctionId : LotId} {identity : Option Auction}
    {post : Option Auction → Held market → Db → Prop}
    (hNone : ∀ d' held', (discipline percent A request).Rely held d d' → WellFormed A d' →
      post none held' d')
    (hSome : ∀ d' held' row, (discipline percent A request).Rely held d d' → WellFormed A d' →
      A.ok d' held (.lock (.lot auctionId) identity) →
      (∀ key, held key = true → held' key = true) →
      LotLocked held' auctionId row (d'.bidsOn auctionId) d' → post (some row) held' d') :
    (discipline percent A request).wp (selectAuctionForUpdate auctionId identity) held post d := by
  intro d' hRely hWell hOk
  show post (d'.auctions.get auctionId) _ d'
  cases hRow : d'.auctions.get auctionId with
  | none => exact hNone d' _ hRely hWell
  | some row =>
      apply hSome d' _ row hRely hWell hOk (fun key => held.grant_sub d' (.lot auctionId))
      exact ⟨held.grant_self (by simp [hRow]), hRow, rfl⟩

/-- The rule of a commit: what it writes must be allowed, and the locks are
gone after it. -/
theorem wp_commit {write : Db → Db} {post : Db → Held market → Db → Prop}
    (hMay : ∀ d', (discipline percent A request).Rely held d d' → WellFormed A d' →
      Commit percent A request held d' (write d'))
    (hPost : ∀ d', (discipline percent A request).Rely held d d' → WellFormed A (write d') →
      post (write d') Held.none (write d')) :
    (discipline percent A request).wp (commit write) held post d := by
  intro d' hRely hWell
  have hCommit := hMay d' hRely hWell
  refine ⟨fun _ => ⟨hCommit, ?_⟩, ?_⟩
  · exact hPost d' hRely (hWell.commit hCommit)
  · trivial

/-- One more user, as found under the lock. -/
theorem UsersLocked.keep {locked : UserId → Option User} {uid : UserId}
    (h : UsersLocked held locked d) :
    UsersLocked (held.grant d (.user uid)) (keepLocked locked uid (d.users.get uid)) d := by
  have hOld := h.widen fun key => held.grant_sub d (.user uid)
  cases hRow : d.users.get uid with
  | none => exact hOld
  | some user =>
      intro id found hFound
      by_cases hId : id = uid
      · subst hId
        rw [keepLocked, Function.update_self] at hFound
        exact ⟨held.grant_self (by simp [hRow]), hRow.trans hFound⟩
      · rw [keepLocked, Function.update_of_ne hId] at hFound
        exact hOld id found hFound

/-- A user locked before or just now is among those locked. -/
theorem isSome_keepLocked {locked : UserId → Option User} {id uid : UserId} {user : Option User}
    (h : (locked id).isSome ∨ id = uid ∧ user.isSome) : (keepLocked locked uid user id).isSome := by
  cases user with
  | none => simpa [keepLocked] using h
  | some row =>
      by_cases hId : id = uid
      · simp [keepLocked, hId]
      · simpa [keepLocked, hId] using h

/-- The locks of a list of users. Those that exist now are found. -/
theorem wp_lockEach {ids : List UserId} {locked : UserId → Option User}
    {post : (UserId → Option User) → Held market → Db → Prop} (hWell : WellFormed A d)
    (hLocked : UsersLocked held locked d)
    (hPost : ∀ locked' held' d', (discipline percent A request).Rely held d d' → WellFormed A d' →
      (∀ key, held key = true → held' key = true) → UsersLocked held' locked' d' →
      (∀ uid, (locked uid).isSome → (locked' uid).isSome) →
      (∀ uid ∈ ids, (d.users.get uid).isSome → (locked' uid).isSome) → post locked' held' d') :
    (discipline percent A request).wp (lockEach ids locked) held post d := by
  induction ids generalizing locked held d with
  | nil => exact hPost locked held d .refl hWell (fun _ h => h) hLocked (fun _ h => h) (by simp)
  | cons uid rest ih =>
      rw [lockEach, Discipline.wp_bind]
      intro d' hRely hWell' _
      have hSub : ∀ key, held key = true → held.grant d' (.user uid) key = true :=
        fun key => held.grant_sub d' (.user uid)
      refine ih hWell' (hLocked.rely hRely).keep
        fun locked' held' d'' hRely' hWell'' hSub' hUsers hOld hNew =>
          hPost locked' held' d'' (hRely.trans (hRely'.weaken hSub)) hWell''
            (fun key h => hSub' key (hSub key h)) hUsers
            (fun id hSome => hOld id (isSome_keepLocked (.inl hSome))) fun id hId hSome => ?_
      have hFound := users_rely hSome hRely
      rcases List.mem_cons.mp hId with rfl | hRest
      · exact hOld id (isSome_keepLocked (.inr ⟨rfl, hFound⟩))
      · exact hNew id hRest hFound

/-- The rule of locking users in the order of their numbers, by induction on
the list. -/
theorem wp_lockUsersById {ids : List UserId}
    {post : (UserId → Option User) → Held market → Db → Prop} (hWell : WellFormed A d)
    (hPost : ∀ locked held' d', (discipline percent A request).Rely held d d' → WellFormed A d' →
      (∀ key, held key = true → held' key = true) → UsersLocked held' locked d' →
      (∀ uid ∈ ids, (d.users.get uid).isSome → (locked uid).isSome) → post locked held' d') :
    (discipline percent A request).wp (lockUsersById ids) held post d :=
  wp_lockEach hWell (by simp [UsersLocked]) fun locked held' d' hRely hWell' hSub hUsers _ hFound =>
    hPost locked held' d' hRely hWell' hSub hUsers fun uid hUid => hFound uid (by simpa using hUid)

end Effects

end OnlineAuction
