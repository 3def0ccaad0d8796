import OnlineAuction.Library.Outlines
import OnlineAuction.Realtime.Broadcasts

/-! Live price frames are in order in every run in which no connection takes a
frame while one of an earlier commit on the lot is still due to it. -/

namespace OnlineAuction.Realtime

open RowLocks

variable {Socket : Type} {percent : CommissionPercent} {s s' : Broadcasting Socket}

/-- The sessions of a process, and what has been announced of its lots. -/
structure Posted (percent : CommissionPercent) (s : Broadcasting Socket) : Prop where
  underway : s.served.Underway percent .none
  within : announcing.Within s.announcers s.served.1
  copies : ∀ sid w auction, s.announcers sid = some w → w.copy = some auction →
    ∀ auctionId ∈ settles w.request, auctionId < s.db.auctions.serial
  rising : Rising s.announced
  quoted : ∀ auctionId, Quoted s.db s.announced auctionId

theorem Posted.initial (categories : List Nat) :
    Posted percent (Broadcasting.initial categories : Broadcasting Socket) where
  underway := .initial percent .none categories
  within := Typestate.within_initial _
  copies _ _ _ h := by cases h
  rising := List.Pairwise.nil
  quoted auctionId := by
    constructor
    · intro price hMem
      cases hMem
    · intro order price hLatest
      cases hLatest.mem
    · intro finalPrice hMem
      cases hMem

/-- What the sockets are given is of no concern to the sessions. -/
theorem Posted.relay (h : Posted percent s) (progress : Nat → Progress) (server : Server Socket Frame)
    (taken : Nat → Bool) (given : Socket → List Nat) (joined : LotId → Socket → Nat) :
    Posted percent { s with
      progress := progress
      server := server
      taken := taken
      given := given
      joined := joined } :=
  ⟨h.underway, h.within, h.copies, h.rising, h.quoted⟩

/-- What a session commits is announced as its copy says. -/
theorem Announcer.announces {w : Announcer} {note : Option Auction} {write : Db → Db} {d : Db}
    (hMay : announcing.commit w note write)
    (hStored : ∀ auction, w.copy = some auction →
      ∀ auctionId ∈ settles w.request, auctionId < d.auctions.serial) :
    Announces d (write d) w.announcement := by
  obtain ⟨request, copy⟩ := w
  cases request with
  | placeBid userId bid =>
      obtain ⟨t, hBids⟩ := hMay
      exact .bid bid.auctionId bid.amount.val t userId (hBids d)
  | tick auctionId =>
      obtain ⟨hBids, hInactive⟩ := hMay d
      cases copy with
      | none => exact .silent hBids
      | some auction =>
          exact .ended auctionId auction.currentPrice hBids (hStored auction rfl auctionId rfl)
            (hInactive auctionId rfl)
  | completeAuction auctionId =>
      obtain ⟨hBids, hInactive⟩ := hMay d
      cases copy with
      | none => exact .silent hBids
      | some auction =>
          exact .ended auctionId auction.currentPrice hBids (hStored auction rfl auctionId rfl)
            (hInactive auctionId rfl)
  | _ => exact .silent (hMay d).1

/-- A session of the database that has answered keeps a copy of a stored lot only. -/
theorem Announcer.copies_after {w : Announcer} {c c' : Config market} {sid : Nat}
    {answer : Answer market} {auction : Auction}
    (hTold : announcing.Told c c' sid w answer) (hSerial : c.db.auctions.serial ≤ c'.db.auctions.serial)
    (hStored : ∀ auction, w.copy = some auction →
      ∀ auctionId ∈ settles w.request, auctionId < c.db.auctions.serial)
    (hCopy : (announcing.after w answer).copy = some auction) :
    ∀ auctionId ∈ settles w.request, auctionId < c'.db.auctions.serial := by
  intro auctionId hSettles
  have hLoad (hLoaded : (w.load c.db).copy = some auction) : auctionId < c.db.auctions.serial := by
    cases hOld : w.copy with
    | some auction' => exact hStored auction' hOld auctionId hSettles
    | none =>
        have hFound : c.db.auctions.get auctionId = some auction := by
          simpa [Announcer.load, hOld, Option.mem_def.mp hSettles] using hLoaded
        exact Table.lt_serial hFound
  apply lt_of_lt_of_le _ hSerial
  cases hTold with
  | read => exact hLoad hCopy
  | locked => exact hLoad hCopy
  | refused => exact hStored auction hCopy auctionId hSettles
  | clock => exact hStored auction hCopy auctionId hSettles
  | updated => exact hStored auction hCopy auctionId hSettles
  | committed => exact hStored auction hCopy auctionId hSettles
  | failed => exact hStored auction hCopy auctionId hSettles

/-- A step of the database announces what it has done to the lots. -/
theorem Posted.announces (h : Posted percent s) {a : Action market Request}
    {c' : Config market} (hTurn : announcing.Turn s.announcers s.served.1 c' a) :
    Announces s.db c'.db (s.announces a) := by
  cases hTurn with
  | started sid request hIdle hDb =>
      rw [hDb]
      exact .silent rfl
  | closed sid hDb =>
      rw [hDb]
      exact .silent rfl
  | told sid w answer p next hAnswer hSession hState hSessions hTold =>
      simp only [Broadcasting.announces, hAnswer]
      cases hTold with
      | committed note write hMay hDb =>
          show Announces s.db _ ((s.announcers sid).bind Announcer.announcement)
          rw [hDb, hState]
          exact Announcer.announces hMay (h.copies sid w · hState)
      | updated note write hMay => exact hMay.elim
      | clock time hReadable hDb =>
          rw [hDb]
          exact .silent rfl
      | read note hDb =>
          rw [hDb]
          exact .silent rfl
      | locked key hFree hDb =>
          rw [hDb]
          exact .silent rfl
      | refused key hDb =>
          rw [hDb]
          exact .silent rfl
      | failed note hDb =>
          rw [hDb]
          exact .silent rfl

/-- A step of the market posts its announcement in commit order. -/
theorem Posted.act (h : Posted percent s) {a : Action market Request} {served : Served}
    (moves : serve percent s.served a = some served) :
    Posted percent { s with
      served := served
      announcers := announcing.track Announcer.begin s.announcers s.served.1 a
      announced := s.announced ++ (s.announces a).toList } := by
  obtain ⟨hUnderway, hTransacts⟩ :=
    h.underway.advance moves fun _ e _ => Assumptions.none_ok _ _ e
  obtain ⟨c', hMoves, rfl⟩ := Option.map_eq_some_iff.mp moves
  obtain ⟨hTurn, hWithin⟩ := h.within.turn handle_announces hMoves
  obtain ⟨request, hLots⟩ := hTransacts.lots h.underway.valid.inv
  have hSame := hTransacts.sameCreators
  have hNew := h.announces hTurn
  refine ⟨hUnderway, hWithin, ?_, h.rising.step h.quoted hLots hNew,
    quoted_step h.quoted hLots hSame hNew⟩
  intro sid w auction hState hCopy auctionId hSettles
  have hOld (hBefore : s.announcers sid = some w) : auctionId < c'.db.auctions.serial :=
    (h.copies sid w auction hBefore hCopy auctionId hSettles).trans_le hSame.1
  cases hTurn with
  | started other request =>
      by_cases hSid : sid = other
      · subst hSid
        obtain rfl : Announcer.begin request = w := by simpa [Typestate.track] using hState
        cases hCopy
      · exact hOld (by simpa [Typestate.track, hSid] using hState)
  | closed other => exact hOld hState
  | told other w' answer p next hAnswer hSession hState' hSessions hTold =>
      rw [Typestate.track_of_answered hAnswer hState'] at hState
      by_cases hSid : sid = other
      · subst hSid
        obtain rfl : announcing.after w' answer = w := by simpa using hState
        rw [announcing_request] at hSettles
        exact Announcer.copies_after hTold hSame.1 (h.copies sid w' · hState') hCopy auctionId hSettles
      · exact hOld (by simpa [hSid] using hState)

/-- The calls of `_fan_out`, and the frames that have been taken. -/
structure Relayed (s : Broadcasting Socket) : Prop where
  server : Inv s.server
  begun : ∀ order, s.progress order ≠ .pending → order < s.announced.length
  calls : ∀ order f, s.server.fanOuts order = some f →
    s.progress order = .begun ∧ ∃ auctionId, s.lot order = some auctionId ∧ f.key = .auction auctionId
  given : ∀ websocket, ∀ order ∈ s.given websocket, order < s.announced.length
  inTurn : InTurn s.lot s.due s.given
  reached : ∀ order auctionId websocket, s.lot order = some auctionId → s.progress order = .begun →
    s.server.live (.auction auctionId) websocket → s.joined auctionId websocket ≤ order →
      websocket ∈ s.remaining order ∨ order ∈ s.given websocket

/-- Only announcements that were made have a lot. -/
theorem Broadcasting.lot_lt {order : Nat} {auctionId : LotId} (h : s.lot order = some auctionId) :
    order < s.announced.length := by
  obtain ⟨announcement, hFound, _⟩ := Option.map_eq_some_iff.mp h
  exact (List.getElem?_eq_some_iff.mp hFound).1

theorem Relayed.initial (categories : List Nat) :
    Relayed (Broadcasting.initial categories : Broadcasting Socket) where
  server := initial_inv
  begun _ h := absurd rfl h
  calls _ _ h := by cases h
  given _ _ h := by cases h
  inTurn := .initial
  reached _ _ _ h := by cases h

/-- A commit adds an announcement, which is pending. -/
theorem Relayed.act (h : Relayed s) {served : Served} {announcers : Nat → Option Announcer}
    (new : List Announcement) :
    Relayed { s with served := served, announcers := announcers, announced := s.announced ++ new } := by
  have hLength (order : Nat) (hOrder : order < s.announced.length) :
      order < (s.announced ++ new).length := hOrder.trans_le (by simp)
  have hLot (order : Nat) (hOrder : order < s.announced.length) :
      ((s.announced ++ new)[order]?).map Announcement.auctionId = s.lot order := by
    rw [List.getElem?_append_left hOrder]
    rfl
  constructor
  · exact h.server
  · exact fun order hBegun => hLength order (h.begun order hBegun)
  · intro order f hCall
    obtain ⟨hBegun, auctionId, hFound, hKey⟩ := h.calls order f hCall
    exact ⟨hBegun, auctionId, (hLot order (s.lot_lt hFound)).trans hFound, hKey⟩
  · exact fun websocket order hGiven => hLength order (h.given websocket order hGiven)
  · exact h.inTurn.mono h.given hLot fun _ _ _ hDue => hDue
  · intro order auctionId websocket hFound hBegun hLive hJoined
    have hProgress : s.progress order = .begun := hBegun
    have hOrder : order < s.announced.length := h.begun order (by simp [hProgress])
    exact h.reached order auctionId websocket ((hLot order hOrder).symm.trans hFound) hBegun hLive
      hJoined

theorem Relayed.begin (h : Relayed s) {order : Nat} {announcement : Announcement}
    (hFound : s.announced[order]? = some announcement) (hPending : s.progress order = .pending)
    {server : Server Socket Frame}
    (hServer : server = { s.server with
      fanOuts := Function.update s.server.fanOuts order
        (s.server.manager.fanOut (.auction announcement.auctionId) announcement.frame) }) :
    Relayed { s with
      server := server
      progress := Function.update s.progress order .begun
      taken := Function.update s.taken order false } := by
  have hLot : s.lot order = some announcement.auctionId := by simp [Broadcasting.lot, hFound]
  subst hServer
  constructor
  · exact h.server.fanOut order _ _
  · intro other hOther
    by_cases hSame : other = order
    · subst hSame
      exact s.lot_lt hLot
    · exact h.begun other (by simpa [hSame] using hOther)
  · intro other f hCall
    by_cases hSame : other = order
    · subst hSame
      refine ⟨Function.update_self .., announcement.auctionId, hLot, ?_⟩
      simp only [Function.update_self, ConnectionManager.fanOut] at hCall
      split at hCall
      next => cases hCall
      next =>
        split_ifs at hCall
        obtain rfl := Option.some.inj hCall
        rfl
    · obtain ⟨hBegun, hCalled⟩ := h.calls other f (by simpa [hSame] using hCall)
      exact ⟨by simpa [hSame] using hBegun, hCalled⟩
  · exact h.given
  · apply h.inTurn.mono h.given (fun _ _ => rfl)
    intro other _ websocket hDue
    by_cases hSame : other = order
    · exact .inl (hSame ▸ hPending)
    · simpa [Broadcasting.due, Broadcasting.remaining, hSame] using hDue
  · intro other auctionId websocket hOther hBegun hLive hJoined
    by_cases hSame : other = order
    · subst hSame
      obtain rfl : announcement.auctionId = auctionId := Option.some.inj (hLot.symm.trans hOther)
      obtain ⟨f, hFanOut, hIn⟩ := h.server.liveSocketsKept.reached _ websocket announcement.frame hLive
      exact .inl (by simpa [Broadcasting.remaining, hFanOut] using hIn)
    · have hOld := h.reached other auctionId websocket hOther (by simpa [hSame] using hBegun) hLive hJoined
      simpa [Broadcasting.remaining, hSame] using hOld

/-- A broadcast that is given up delivers nothing more. -/
theorem Relayed.abandon (h : Relayed s) {order : Nat} (hOrder : order < s.announced.length) :
    Relayed { s with
      server := { s.server with fanOuts := s.server.leave order }
      progress := Function.update s.progress order .abandoned } where
  server := h.server.cancel order
  begun other hOther := by
    by_cases hSame : other = order
    · exact hSame ▸ hOrder
    · exact h.begun other (by simpa [hSame] using hOther)
  calls other f hCall := by
    by_cases hSame : other = order
    · simp [Server.leave, hSame] at hCall
    · obtain ⟨hBegun, hCalled⟩ := h.calls other f (by simpa [Server.leave, hSame] using hCall)
      exact ⟨by simpa [hSame] using hBegun, hCalled⟩
  given := h.given
  inTurn := by
    apply h.inTurn.mono h.given (fun _ _ => rfl)
    intro other _ websocket hDue
    by_cases hSame : other = order
    · simp [Broadcasting.due, Broadcasting.remaining, Server.leave, hSame] at hDue
    · simpa [Broadcasting.due, Broadcasting.remaining, Server.leave, hSame] using hDue
  reached other auctionId websocket hLot hBegun hLive hJoined := by
    by_cases hSame : other = order
    · simp [hSame] at hBegun
    · have hOld := h.reached other auctionId websocket hLot (by simpa [hSame] using hBegun) hLive hJoined
      simpa [Broadcasting.remaining, Server.leave, hSame] using hOld

/-- A socket still waiting in a fan-out has its frame yet to come. -/
theorem mem_remaining {order : Nat} {websocket : Socket} {f : FanOut Socket Frame}
    (hCall : s.server.fanOuts order = some f) (hIn : websocket ∈ f.waiting.tail) :
    websocket ∈ s.remaining order := by
  simp only [Broadcasting.remaining, hCall]
  split_ifs
  · exact hIn
  · exact List.mem_of_mem_tail hIn

/-- The frames that reach a socket follow the order of their announcements. -/
theorem Relayed.frames (h : Relayed s) (hPosted : Posted percent s) (auctionId : LotId)
    (websocket : Socket) : (s.frames auctionId websocket).Pairwise Frame.Precedes := by
  apply List.pairwise_map.mpr
  apply h.inTurn.pairwise (fun announcement => announcement.frame.precedes_self) hPosted.rising
  intro a b ha hb
  exact (of_decide_eq_true ha).trans (of_decide_eq_true hb).symm

/-- So the prices of its `new_bid` frames rise. -/
theorem Relayed.priceFramesInOrder (h : Relayed s) (hPosted : Posted percent s) :
    PriceFramesInOrder s where
  rising auctionId websocket := by
    apply List.pairwise_filterMap.mpr
    apply (h.frames hPosted auctionId websocket).imp
    intro earlier later hPrecedes price hPrice price' hPrice'
    cases earlier with
    | auctionEnded => cases hPrice
    | newBid => cases later with
      | auctionEnded => cases hPrice'
      | newBid =>
          obtain rfl := Option.some.inj hPrice
          obtain rfl := Option.some.inj hPrice'
          exact hPrecedes
  ended auctionId websocket := by
    apply (h.frames hPosted auctionId websocket).imp
    rintro earlier later hPrecedes finalPrice rfl
    cases later with
    | newBid => exact hPrecedes.elim
    | auctionEnded => rfl
  current auctionId order price hLatest hBegun hOver websocket hLive hJoined := by
    have hLot : s.lot order = some auctionId := by simp [Broadcasting.lot, hLatest.posted]
    have hGiven : order ∈ s.given websocket := by
      rcases h.reached order auctionId websocket hLot hBegun hLive hJoined with hIn | hGiven
      · simp [Broadcasting.remaining, hOver] at hIn
      · exact hGiven
    obtain ⟨_, row, hRow, _⟩ := (hPosted.quoted auctionId).raised price hLatest.mem
    refine ⟨row, hRow, ?_⟩
    rw [(hPosted.quoted auctionId).latest order price hLatest row hRow]
    simp only [Broadcasting.prices, Broadcasting.frames, List.filterMap_map, List.filterMap_filterMap]
    apply h.inTurn.getLast?_filterMap hGiven
    · simp [hLatest.posted, Option.filter, Frame.price?]
    · intro later price' hLater
      obtain ⟨announcement, hFound, _⟩ := Option.bind_eq_some_iff.mp hLater
      obtain ⟨hFound, hSame⟩ := Option.filter_eq_some_iff.mp hFound
      simpa [Broadcasting.lot, hFound, hLatest.posted] using hSame
    · intro later hLater
      cases hFound : s.announced[later]? with
      | none => rfl
      | some announcement =>
          obtain ⟨auctionId', frame⟩ := announcement
          cases frame with
          | auctionEnded => by_cases hSame : auctionId' = auctionId <;> simp [hSame, Frame.price?]
          | newBid price' =>
              have hOther : auctionId' ≠ auctionId := by
                rintro rfl
                exact hLatest.last later hLater price' hFound
              simp [hOther]

variable [DecidableEq Socket]

/-- A socket that is live after a connection was so before or has just
connected. -/
theorem live_connect {server : Server Socket Frame} {key key' : Channel} {websocket websocket' : Socket}
    {manager : ConnectionManager Socket} {value : Bool}
    (hLive : Server.live { server with
      manager := manager, connected := record server.connected key websocket value } key' websocket')
    (hOther : ¬(key' = key ∧ websocket' = websocket)) : server.live key' websocket' := by
  simpa [Server.live, record, hOther] using hLive

/-- A new socket is due nothing that was announced before. -/
theorem Relayed.connect (h : Relayed s) (websocket : Socket) (auctionId : LotId) :
    Relayed { s with
      server := { s.server with
        manager := s.server.manager.append websocket (.auction auctionId)
        connected := record s.server.connected (.auction auctionId) websocket true }
      joined := s.join auctionId websocket } where
  server := h.server.connect websocket (.auction auctionId)
  begun := h.begun
  calls := h.calls
  given := h.given
  inTurn := h.inTurn
  reached order auctionId' websocket' hLot hBegun hLive hJoined := by
    by_cases hNew : auctionId' = auctionId ∧ websocket' = websocket
    · simp only [Broadcasting.join, hNew, and_self, if_true] at hJoined
      exact absurd (s.lot_lt hLot) (not_lt.mpr hJoined)
    · apply h.reached order auctionId' websocket' hLot hBegun (live_connect hLive (by simpa using hNew))
      simpa [Broadcasting.join, hNew] using hJoined

/-- A socket that leaves is due nothing more. -/
theorem Relayed.disconnect (h : Relayed s) (websocket : Socket) (auctionId : LotId) :
    Relayed { s with
      server := { s.server with
        manager := s.server.manager.remove websocket (.auction auctionId)
        connected := record s.server.connected (.auction auctionId) websocket false } } where
  server := h.server.disconnect websocket (.auction auctionId)
  begun := h.begun
  calls := h.calls
  given := h.given
  inTurn := h.inTurn
  reached order auctionId' websocket' hLot hBegun hLive hJoined := by
    by_cases hSame : auctionId' = auctionId ∧ websocket' = websocket
    · obtain ⟨rfl, rfl⟩ := hSame
      simp [Server.live, record] at hLive
    · exact h.reached order auctionId' websocket' hLot hBegun
        (live_connect hLive (by simpa using hSame)) hJoined

/-- A frame may be given to a socket when no earlier one of its lot is due to
it. -/
theorem Relayed.take (h : Relayed s) {order : Nat} {websocket : Socket}
    (hTaken : s.taken order = false) (hHead : s.head order = some websocket)
    (hTurn : ∀ earlier < order, s.lot earlier = s.lot order → ¬s.due earlier websocket) :
    Relayed (s.give order websocket) := by
  obtain ⟨f, hCall, hFirst⟩ := Option.bind_eq_some_iff.mp hHead
  obtain ⟨rest, hWaiting⟩ : ∃ rest, f.waiting = websocket :: rest := List.head?_eq_some_iff.mp hFirst
  have hRemaining : s.remaining order = websocket :: rest := by
    simp [Broadcasting.remaining, hCall, hTaken, hWaiting]
  have hRest : (s.give order websocket).remaining order = rest := by
    simp [Broadcasting.remaining, Broadcasting.give, hCall, hWaiting]
  have hOthers (other : Nat) (hOther : other ≠ order) :
      (s.give order websocket).remaining other = s.remaining other := by
    simp [Broadcasting.remaining, Broadcasting.give, hOther]
  have hGiven (websocket' : Socket) (other : Nat) (hOld : other ∈ s.given websocket') :
      other ∈ (s.give order websocket).given websocket' := by
    by_cases hSame : websocket' = websocket
    · subst hSame
      simp [Broadcasting.give, hOld]
    · simpa [Broadcasting.give, hSame] using hOld
  have hNow : ∀ websocket', ∀ other ∈ (s.give order websocket).given websocket',
      other < s.announced.length := by
    intro websocket' other hOther
    by_cases hSame : websocket' = websocket
    · subst hSame
      simp only [Broadcasting.give, Function.update_self, List.mem_append, List.mem_singleton] at hOther
      rcases hOther with hOld | rfl
      · exact h.given _ _ hOld
      · exact h.begun other (by simp [(h.calls other f hCall).1])
    · exact h.given websocket' other (by simpa [Broadcasting.give, hSame] using hOther)
  constructor
  · exact h.server
  · exact h.begun
  · exact h.calls
  · exact hNow
  · have hDue : s.due order websocket := .inr (by simp [hRemaining])
    apply (h.inTurn.give hDue hTurn).mono hNow (fun _ _ => rfl)
    intro other _ websocket' hStill
    rcases hStill with hPending | hIn
    · exact .inl hPending
    · by_cases hSame : other = order
      · subst hSame
        rw [hRest] at hIn
        exact .inr (by simp [hRemaining, hIn])
      · exact .inr (hOthers other hSame ▸ hIn)
  · intro other auctionId websocket' hLot hBegun hLive hJoined
    rcases h.reached other auctionId websocket' hLot hBegun hLive hJoined with hIn | hOld
    · by_cases hSame : other = order
      · subst hSame
        rw [hRemaining] at hIn
        rw [hRest]
        rcases List.mem_cons.mp hIn with rfl | hLater
        · exact .inr (by simp [Broadcasting.give])
        · exact .inl hLater
      · exact .inl ((hOthers other hSame).symm ▸ hIn)
    · exact .inr (hGiven websocket' other hOld)

theorem fanOuts_answer (server : Server Socket Frame) (order : Nat) (f : FanOut Socket Frame)
    (sent : Bool) : (server.answer order f sent).fanOuts = Function.update server.fanOuts order
      (if (f.next sent).waiting.isEmpty then none else some (f.next sent)) := by
  unfold Server.answer
  dsimp only
  split_ifs <;> rfl

/-- A socket that is live after an answer was so before and has not failed. -/
theorem live_answer {server : Server Socket Frame} {order : Nat} {f : FanOut Socket Frame} {sent : Bool}
    {key : Channel} {websocket : Socket} (hLive : (server.answer order f sent).live key websocket) :
    server.live key websocket ∧ (sent = false → key = f.key → f.waiting.head? ≠ some websocket) := by
  have hFlags : server.connected key websocket = true ∧
      server.markFailed f sent key websocket = false := by
    unfold Server.live Server.answer at hLive
    dsimp only at hLive
    split_ifs at hLive <;> exact hLive
  obtain ⟨hConnected, hNot⟩ := hFlags
  simp only [Server.markFailed, Bool.or_eq_false_iff] at hNot
  refine ⟨⟨hConnected, hNot.1⟩, fun hSent hKey hHead => ?_⟩
  simp [hSent, hKey, hHead] at hNot

/-- An answer moves its own fan-out on. -/
theorem Relayed.answer (h : Relayed s) {order : Nat} {f : FanOut Socket Frame} {sent : Bool}
    (hCall : s.server.fanOuts order = some f) (hTaken : ¬(sent = true ∧ s.taken order = false))
    (hServer : Inv (s.server.answer order f sent)) :
    Relayed { s with
      server := s.server.answer order f sent
      taken := Function.update s.taken order false } := by
  obtain ⟨hBegun, auctionId, hLot, hKey⟩ := h.calls order f hCall
  have hSame : ({ s with
      server := s.server.answer order f sent
      taken := Function.update s.taken order false } : Broadcasting Socket).remaining order =
        f.waiting.tail := by
    simp only [Broadcasting.remaining, fanOuts_answer, Function.update_self]
    cases hLast : (f.next sent).waiting.isEmpty with
    | true => exact (List.isEmpty_iff.mp hLast).symm
    | false => rfl
  have hOthers (other : Nat) (hOther : other ≠ order) : ({ s with
      server := s.server.answer order f sent
      taken := Function.update s.taken order false } : Broadcasting Socket).remaining other =
        s.remaining other := by
    simp [Broadcasting.remaining, fanOuts_answer, hOther]
  constructor
  · exact hServer
  · exact h.begun
  · intro other g hOther
    simp only [fanOuts_answer] at hOther
    by_cases hId : other = order
    · subst hId
      simp only [Function.update_self] at hOther
      split_ifs at hOther
      obtain rfl := Option.some.inj hOther
      exact ⟨hBegun, auctionId, hLot, hKey⟩
    · exact h.calls other g (by simpa [hId] using hOther)
  · exact h.given
  · apply h.inTurn.mono h.given (fun _ _ => rfl)
    intro other _ websocket hStill
    rcases hStill with hPending | hIn
    · exact .inl hPending
    · by_cases hId : other = order
      · subst hId
        rw [hSame] at hIn
        exact .inr (mem_remaining hCall hIn)
      · exact .inr (hOthers other hId ▸ hIn)
  · intro other auctionId' websocket hOther hProgress hLive hJoined
    obtain ⟨hOld, hNot⟩ := live_answer hLive
    rcases h.reached other auctionId' websocket hOther hProgress hOld hJoined with hIn | hGiven
    · by_cases hId : other = order
      · subst hId
        obtain rfl : auctionId' = auctionId := Option.some.inj (hOther.symm.trans hLot)
        rw [hSame]
        simp only [Broadcasting.remaining, hCall] at hIn
        split_ifs at hIn with hGot
        · exact .inl hIn
        · have hSent : sent = false := by
            cases sent with
            | false => rfl
            | true => exact absurd ⟨rfl, Bool.eq_false_iff.mpr hGot⟩ hTaken
          cases hWaiting : f.waiting with
          | nil => simp [hWaiting] at hIn
          | cons first rest =>
              rw [hWaiting] at hIn
              rcases List.mem_cons.mp hIn with rfl | hRest
              · exact absurd (by simp [hWaiting]) (hNot hSent hKey.symm)
              · exact .inl hRest
      · exact .inl ((hOthers other hId).symm ▸ hIn)
    · exact .inr hGiven

/-- Every step that keeps the commit order keeps the relay. -/
theorem proceed_inv (hPosted : Posted percent s) (h : Relayed s) (e : Broadcast Socket)
    (hStep : proceed percent s e = some s') (hOk : InCommitOrder s e) :
    Posted percent s' ∧ Relayed s' := by
  cases e with
  | act a =>
      obtain ⟨served, hMoves, rfl⟩ := Option.map_eq_some_iff.mp hStep
      exact ⟨hPosted.act hMoves, h.act _⟩
  | connect websocket auctionId =>
      obtain rfl := Option.some.inj hStep
      exact ⟨hPosted.relay _ _ _ _ _, h.connect websocket auctionId⟩
  | disconnect websocket auctionId =>
      obtain rfl := Option.some.inj hStep
      exact ⟨hPosted.relay _ _ _ _ _, h.disconnect websocket auctionId⟩
  | begin order =>
      cases hFound : s.announced[order]? with
      | none => simp [proceed, hFound] at hStep
      | some announcement =>
          simp only [proceed, hFound, Option.ite_none_right_eq_some, Option.map_eq_some_iff] at hStep
          obtain ⟨hPending, server, hServer, rfl⟩ := hStep
          simp only [step, Option.ite_none_right_eq_some, Option.some.injEq] at hServer
          exact ⟨hPosted.relay _ _ _ _ _, h.begin hFound hPending hServer.2.symm⟩
  | take order =>
      simp only [proceed] at hStep
      split_ifs at hStep with hTaken
      obtain ⟨websocket, hHead, rfl⟩ := Option.map_eq_some_iff.mp hStep
      exact ⟨hPosted.relay _ _ _ _ _, h.take (Bool.eq_false_iff.mpr hTaken) hHead (hOk websocket hHead)⟩
  | answer order sent =>
      simp only [proceed] at hStep
      split_ifs at hStep with hTaken
      obtain ⟨server, hServer, rfl⟩ := Option.map_eq_some_iff.mp hStep
      have hInv := step_inv (.answer order sent) h.server hServer hOk
      obtain ⟨f, hCall, rfl⟩ := Option.map_eq_some_iff.mp hServer
      exact ⟨hPosted.relay _ _ _ _ _, h.answer hCall hTaken hInv⟩
  | abandon order =>
      simp only [proceed, Option.ite_none_right_eq_some] at hStep
      obtain ⟨⟨hOrder, _⟩, hStep⟩ := hStep
      obtain rfl := Option.some.inj hStep
      exact ⟨hPosted.relay _ _ _ _ _, h.abandon hOrder⟩

/-- In every run in which each connection takes the frames of a lot in the order of
their commits, the prices of the `new_bid` frames given to a socket only rise, and the
last of them is the current price. -/
theorem price_frames_in_order {categories : List Nat}
    (run : Runs.Reaches (proceed percent) InCommitOrder (.initial categories) s) :
    PriceFramesInOrder s := by
  have hBoth : Posted percent s ∧ Relayed s := by
    apply run.invariant (I := fun s => Posted percent s ∧ Relayed s) ⟨.initial _, .initial _⟩
    intro s s' e h hStep hOk
    exact proceed_inv h.1 h.2 e hStep hOk
  exact hBoth.2.priceFramesInOrder hBoth.1

/-- User 2 outbids user 1 on lot 0. -/
def outbid : List (Action market Request) :=
  firstBid ++ [.start 4 .register, .step 4] ++
    [.start 5 (.placeBid 2 ⟨0, ⟨26000, by decide⟩⟩)] ++ steps 5 2 ++ [.clock 5 (seconds 2)] ++
    steps 5 4 ++ [.clock 5 (seconds 2), .clock 5 (seconds 2), .step 5]

/-- A broadcast to one socket. -/
def broadcastOf (order : Nat) : List (Broadcast Nat) :=
  [.begin order, .take order, .answer order true]

/-- The page is told of 200.00 and then of 260.00. -/
theorem price_frames_in_order_outbid : ∃ s : Broadcasting Nat,
    s.prices 0 7 = [20000, 26000] ∧ PriceFramesInOrder s := by
  obtain ⟨s, run, hPrices⟩ := Runs.exists_reaches (proceed defaultCommission) InCommitOrder
    (.initial []) ([.connect 7 0] ++ outbid.map .act ++ broadcastOf 0 ++ broadcastOf 1)
    (fun s : Broadcasting Nat => s.prices 0 7 = [20000, 26000]) (by decide +kernel)
  exact ⟨s, hPrices, price_frames_in_order run⟩

/-- The second bid's session is through with its notifications before the first's. -/
theorem price_frames_overtaken : ¬∀ (percent : CommissionPercent) (categories : List Nat)
    (s : Broadcasting Nat), Runs.Reaches (proceed percent) (fun _ _ => True) (.initial categories) s →
      PriceFramesInOrder s := by
  intro hOrder
  obtain ⟨s, run, hPrices⟩ := Runs.exists_reaches (proceed defaultCommission) (fun _ _ => True)
    (.initial []) ([.connect 7 0] ++ outbid.map .act ++ broadcastOf 1 ++ broadcastOf 0)
    (fun s : Broadcasting Nat => s.prices 0 7 = [26000, 20000]) (by decide +kernel)
  have hRising := (hOrder defaultCommission [] s run).rising 0 7
  rw [hPrices] at hRising
  exact absurd hRising (by decide)

end OnlineAuction.Realtime
