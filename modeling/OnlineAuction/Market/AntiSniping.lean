import OnlineAuction.Market.FrozenLots
import OnlineAuction.Market.LockedCopies

/-! Anti-sniping. A bid in the closing window moves the deadline to a full
extension from the clock reading of that bid, at most thirty times in a lot. -/

namespace OnlineAuction

open RowLocks

variable {percent : CommissionPercent}

/-- A session of `place_bid` in its transaction: the row it has locked and its
clock readings. -/
structure Bidder where
  request : Request
  copy : Option Auction
  readings : List Time

namespace Bidder

def begin (request : Request) : Bidder := ⟨request, none, []⟩

def lot (w : Bidder) : Option LotId :=
  match w.request with
  | .placeBid _ bid => some bid.auctionId
  | _ => none

/-- The reading at which the bid has passed its expiry check, the first of its
readings. -/
def passed (w : Bidder) : Option Time :=
  match w.copy, w.readings with
  | some copy, checked :: _ => if copy.endTime < checked then none else some checked
  | _, _ => none

/-- The reading from which the bid extends the deadline, if it does. -/
def extension (w : Bidder) : Option Time :=
  match w.request, w.copy, w.readings with
  | .placeBid _ bid, some copy, [_, now, _] =>
      if (acceptBid copy bid.amount.val now).2 then some now else none
  | _, _, _ => none

def copyOf (w : Bidder) (id : LotId) : Option Auction := if w.lot = some id then w.copy else none

/-- The bid that the session may commit. -/
structure Commits (w : Bidder) (userId : UserId) (bid : BidCreate) (copy : Auction)
    (checked now timestamp : Time) (write : Db → Db) : Prop where
  state : w = ⟨.placeBid userId bid, some copy, [checked, now, timestamp]⟩
  inTime : ¬copy.endTime < checked
  write : ∀ d, write d =
    (d.flushAuction bid.auctionId copy (acceptBid copy bid.amount.val now).1).addBid
      bid.amount.val timestamp userId bid.auctionId

end Bidder

def bidding : Typestate market Bidder where
  update w _ _ := w.lot = none
  commit w _ write := w.lot ≠ none →
    ∃ userId bid copy checked now timestamp, w.Commits userId bid copy checked now timestamp write
  after w
    | .locked (.lot id) d => if w.lot = some id then { w with copy := d.auctions.get id } else w
    | .clock t => { w with readings := w.readings ++ [t] }
    | .committed _ _ => .begin w.request
    | .failed _ => .begin w.request
    | _ => w

theorem bidding_request (w : Bidder) (answer : Answer market) :
    (bidding.after w answer).request = w.request := by
  cases answer with
  | locked key d =>
      cases key with
      | lot id => simp only [bidding]; split <;> rfl
      | user => rfl
  | _ => rfl

/-- `place_bid` extends a deadline by its own copy of the lot alone. -/
theorem placeBid_bidding (userId : UserId) (bid : BidCreate) :
    bidding.Follows (placeBid userId bid) (fun _ _ => True) (.begin (.placeBid userId bid)) := by
  unfold placeBid
  rw [Typestate.follows_bind, follows_getCurrentUser]
  intro d user _
  rw [Typestate.follows_bind]
  rw [follows_lockAuction]
  refine ⟨trivial, fun d₁ => ?_⟩
  rw [Typestate.follows_bind, Typestate.follows_orRaise]
  intro copy hCopy
  have hLocked : bidding.after (bidding.after (.begin (.placeBid userId bid)) (.read none d))
      (.locked (.lot bid.auctionId) d₁) = ⟨.placeBid userId bid, some copy, []⟩ := by
    simp [bidding, Bidder.begin, Bidder.lot, hCopy]
  rw [hLocked]
  simp only [Typestate.follows_bind, Typestate.follows_raiseIf, follows_utcnow, selectLastBid,
    follows_query]
  intro _ _ _ checked hTime _ d₂ _
  apply follows_lockUsers bidding
  · exact fun _ => trivial
  · exact fun _ _ => rfl
  intro locked
  rw [Typestate.follows_bind]
  apply follows_committedBalance bidding
  · exact fun _ => rfl
  intro committed
  simp only [Typestate.follows_bind, Typestate.follows_raiseIf, follows_utcnow]
  intro _ now timestamp
  rw [follows_commit]
  refine ⟨fun _ => ?_, fun _ => trivial⟩
  exact ⟨userId, bid, copy, checked, now, timestamp, rfl, hTime, fun _ => rfl⟩

/-- No handler strays from the outline of bidding. -/
theorem handle_bidding (request : Request) :
    bidding.Follows (handle percent request) (fun _ _ => True) (.begin request) := by
  have hOther (hLot : (Bidder.begin request).lot = none) :
      bidding.Follows (handle percent request) (fun _ _ => True) (.begin request) := by
    apply Typestate.follows_of_closed bidding (Q := fun w => w.lot = none)
    · intro w answer hNone
      simp only [Bidder.lot, bidding_request]
      exact hNone
    · exact fun _ _ _ => trivial
    · exact fun _ _ _ hNone => hNone
    · exact fun _ _ _ hNone hSome => absurd hNone hSome
    · exact hLot
  cases request with
  | placeBid userId bid =>
      exact (Typestate.follows_bind _ _ _ _ _).mpr (placeBid_bidding userId bid)
  | _ => exact hOther rfl

/-- A bidder's copy of a lot is the row that was locked. -/
theorem bidding_copies : KeepsCopies bidding Bidder.begin Bidder.copyOf where
  start request id := ite_self none
  read _ _ _ _ _ h := h
  locked w key d id row h := by
    cases key with
    | user => exact .inl h
    | lot other =>
        by_cases hLot : w.lot = some other
        · by_cases hId : other = id
          · subst hId
            simp only [bidding, if_pos hLot, Bidder.copyOf] at h
            exact .inr ⟨rfl, (Option.ite_none_right_eq_some.mp h).2⟩
          · simp only [bidding, if_pos hLot, Bidder.copyOf] at h
            have hSame : w.lot = some id := (Option.ite_none_right_eq_some.mp h).1
            rw [hLot, Option.some.injEq] at hSame
            exact absurd hSame hId
        · simp only [bidding, if_neg hLot] at h
          exact .inl h
  refused _ _ _ _ h := h
  clock _ _ _ _ h := h
  update w note write id row hMay := by
    have hNone : w.lot = none := hMay
    show w.copyOf id ≠ some row
    simp [Bidder.copyOf, hNone]
  committed w note d id := ite_self none
  failed w note id := ite_self none

/-- What an action does to each lot. -/
theorem lots_of_outcome {requests : Nat → Option Request} {c c' : Config market}
    {a : Action market Request} (hWell : WellFormed .none c.db)
    (h : (rules percent .none).Outcome (promise percent .none) requests c c' a) :
    ∃ request, ∀ id,
      LotChange request c.db c'.db id (c.db.auctions.get id) (c'.db.auctions.get id) := by
  rcases h.may with hSame | ⟨held, request, hCommit⟩
  · exact ⟨.register, fun id => .of_same (by rw [hSame]) (by rw [hSame]) id⟩
  · exact ⟨request, .of_commit hWell hCommit⟩

/-- The counter of extensions as it was, and the deadline not moved back. -/
structure NotExtended (old new : Auction) : Prop where
  extensionsCount : new.extensionsCount = old.extensionsCount
  later : old.endTime ≤ new.endTime

theorem AuctionUpdate.notExtended (data : AuctionUpdate) (auction : Auction) :
    NotExtended auction (data.dragAlong (data.edit auction)) := by
  have hEdit : NotExtended auction (data.edit auction) := by
    apply AuctionUpdate.edit_keeps (P := NotExtended auction) ⟨rfl, le_rfl⟩
    case extendMinutes =>
      intro value _ a h
      have hMinutes : 0 ≤ minutes value.val := by simp [minutes, seconds]
      exact ⟨h.extensionsCount, h.later.trans (le_add_of_nonneg_right hMinutes)⟩
    all_goals exact fun _ _ _ h => { h with }
  unfold AuctionUpdate.dragAlong
  split
  next price _ hPrice =>
    split_ifs
    · exact { hEdit with }
    · exact hEdit
  next => exact hEdit

namespace LotChange

variable {request : Request} {d d' : Db} {id : LotId} {lot lot' : Option Auction}

/-- Only bids count extensions. -/
theorem unextended (h : LotChange request d d' id lot lot')
    (hOld : ∀ row, lot = some row → d.bidsOn id = [] → row.extensionsCount = 0) {row' : Auction}
    (hRow' : lot' = some row') (hNoBids : d'.bidsOn id = []) : row'.extensionsCount = 0 := by
  cases h with
  | untouched hBids => exact hOld row' hRow' (hBids ▸ hNoBids)
  | opened hOpened =>
      obtain rfl := Option.some.inj hRow'
      exact hOpened.extensions
  | @revised old new userId data _ hNone _ _ _ hEdited =>
      obtain rfl := Option.some.inj hRow'
      rw [hEdited, (data.notExtended old).extensionsCount]
      exact hOld old rfl hNone
  | removed => cases hRow'
  | bid amount now t userId _ _ _ _ hBids =>
      rw [hNoBids] at hBids
      simp at hBids
  | @sold old buyer price now _ _ _ _ hBids =>
      obtain rfl := Option.some.inj hRow'
      exact hOld old rfl (hBids ▸ hNoBids)
  | closed hNone _ hClosed =>
      obtain rfl := Option.some.inj hRow'
      exact hClosed.extensionsCount.trans (hOld _ rfl hNone)
  | settled lastBid hLast hBids hClosed =>
      obtain rfl := Option.some.inj hRow'
      exact hClosed.extensionsCount.trans (hOld _ rfl (hBids ▸ hNoBids))

/-- The deadline of a lot that is active still has not been moved back. -/
theorem later (h : LotChange request d d' id lot lot') {row row' : Auction} (hRow : lot = some row)
    (hRow' : lot' = some row') (hActive : row'.isActive = true) :
    row.isActive = true ∧ row.endTime ≤ row'.endTime := by
  cases h with
  | untouched =>
      obtain rfl : row = row' := Option.some.inj (hRow.symm.trans hRow')
      exact ⟨hActive, le_rfl⟩
  | opened => cases hRow
  | @revised old new userId data _ _ _ hOld hRevised hEdited =>
      obtain rfl := Option.some.inj hRow
      obtain rfl := Option.some.inj hRow'
      exact ⟨hOld, hEdited ▸ (data.notExtended _).later⟩
  | removed => cases hRow'
  | @bid old amount now t userId hOld =>
      obtain rfl := Option.some.inj hRow
      obtain rfl := Option.some.inj hRow'
      obtain ⟨endTime, notified, count, hLater, hEq⟩ := acceptBid_eq old amount now
      exact ⟨hOld, by rw [hEq]; exact hLater⟩
  | sold =>
      obtain rfl := Option.some.inj hRow'
      cases hActive
  | closed _ _ hClosed =>
      obtain rfl := Option.some.inj hRow'
      rw [hClosed.inactive] at hActive
      cases hActive
  | settled _ _ _ hClosed =>
      obtain rfl := Option.some.inj hRow'
      rw [hClosed.inactive] at hActive
      cases hActive

end LotChange

/-- The marketplace with what its sessions have read of the lots they bid on. -/
abbrev Bidding := Config market × (Nat → Option Bidder)

namespace Bidding

def initial (categories : List Nat) : Bidding := (.initial (Db.initial categories), fun _ => none)

def advance (percent : CommissionPercent) : Bidding → Action market Request → Option Bidding :=
  Runs.recording (RowLocks.advance (handle percent)) fun bidders c a _ =>
    bidding.track .begin bidders c a

def requests (s : Bidding) (sid : Nat) : Option Request := (s.2 sid).map Bidder.request

def commits (s : Bidding) (a : Action market Request) (id : LotId) : Option Bidder :=
  (written s.1 a).bind fun made => (s.2 made.1).filter fun w => w.lot = some id

/-- The reading from which this action extends the deadline of the lot. -/
def grants (s : Bidding) (a : Action market Request) (id : LotId) : Option Time :=
  (s.commits a id).bind Bidder.extension

/-- A session in progress has passed the expiry check of its bid on the lot at
this reading. -/
def Passed (s : Bidding) (id : LotId) (t : Time) : Prop :=
  ∃ sid p w, s.1.sessions sid = some p ∧ s.2 sid = some w ∧ w.lot = some id ∧ w.passed = some t

structure Underway (percent : CommissionPercent) (s : Bidding) : Prop where
  valid : (rules percent .none).Valid (promise percent .none) s.requests s.1
  within : bidding.Within s.2 s.1
  standing : Standing s.1.db
  unextended : ∀ id row, s.1.db.auctions.get id = some row → s.1.db.bidsOn id = [] →
    row.extensionsCount = 0
  copies : Copied Bidder.copyOf s.2 s.1

theorem Underway.initial (percent : CommissionPercent) (categories : List Nat) :
    Underway percent (.initial categories) where
  valid := .initial (.of_initial .none categories)
  within := Typestate.within_initial _
  standing := .initial categories
  unextended _ _ hRow := by cases hRow
  copies := copied_initial _ _

/-- What an action does to a lot: it commits a bid on it, relative to the row as
it is stored, or it inserts none. -/
inductive Acts (s s' : Bidding) (a : Action market Request) (id : LotId) : Prop where
  | bids (w : Bidder) (userId : UserId) (bid : BidCreate) (copy : Auction)
      (checked now timestamp : Time) (write : Db → Db) (hCommits : s.commits a id = some w)
      (hBid : w.Commits userId bid copy checked now timestamp write)
      (hRow : s.1.db.auctions.get id = some copy)
      (hRow' : s'.1.db.auctions.get id = some (acceptBid copy bid.amount.val now).1)
  | other (request : Request) (hCommits : s.commits a id = none)
      (hChange : LotChange request s.1.db s'.1.db id (s.1.db.auctions.get id)
        (s'.1.db.auctions.get id))
      (hOther : ∀ userId bid, request = .placeBid userId bid → bid.auctionId ≠ id)

/-- A commit on a lot is that of the session that bids on it. -/
theorem commits_of_written {s : Bidding} {a : Action market Request} {id : LotId} {sid : Nat}
    {e : Event market} {w : Bidder} (hWritten : written s.1 a = some (sid, e))
    (hState : s.2 sid = some w) : s.commits a id = if w.lot = some id then some w else none := by
  by_cases hLot : w.lot = some id
  · simp [commits, hWritten, hState, Option.filter, hLot]
  · simp [commits, hWritten, hState, Option.filter, hLot]

theorem commits_of_quiet {s : Bidding} {a : Action market Request} {id : LotId}
    (h : written s.1 a = none) : s.commits a id = none := by
  simp [commits, h]

/-- A session that bids commits the bid it has been asked for, and nothing else. -/
theorem Underway.commits_bid {s : Bidding} {c' : Config market} {sid : Nat} {note : Option Auction}
    {w : Bidder} {id : LotId} (h : Underway percent s)
    (hMoves : RowLocks.advance (handle percent) s.1 (.step sid) = some c')
    (hWritten : written s.1 (.step sid : Action market Request) = some (sid, .commit note))
    (hState : s.2 sid = some w) (hLot : w.lot = some id) :
    ∃ userId bid copy checked now timestamp write,
      w.Commits userId bid copy checked now timestamp write ∧
      s.1.db.auctions.get id = some copy ∧
      c'.db.auctions.get id = some (acceptBid copy bid.amount.val now).1 := by
  obtain ⟨write, next, hs, hDb, _⟩ := commit_of_written hWritten hMoves
  obtain ⟨before, hBefore, hMay, _⟩ := h.within sid _ hs
  obtain rfl : w = before := Option.some.inj (hState.symm.trans hBefore)
  obtain ⟨userId, bid, copy, checked, now, timestamp, hBid⟩ := hMay (by simp [hLot])
  have hRow := (h.copies sid _ w id copy hs hState
    (by rw [Bidder.copyOf, if_pos hLot, hBid.state])).2
  obtain rfl : bid.auctionId = id := by
    rw [hBid.state] at hLot
    exact Option.some.inj hLot
  refine ⟨userId, bid, copy, checked, now, timestamp, write, hBid, hRow, ?_⟩
  rw [hDb, hBid.write, Db.flushAuction_eq hRow,
    Auction.flush_loaded copy _ (acceptBid_fields copy bid.amount.val now).1]
  exact Db.get_setAuction_self hRow _

/-- Every step of a run acts on each lot as the outline says. -/
theorem Underway.acts {s : Bidding} {c' : Config market} {a : Action market Request}
    (h : Underway percent s) (hMoves : RowLocks.advance (handle percent) s.1 a = some c')
    (hOutcome : (rules percent .none).Outcome (promise percent .none) s.requests s.1 c' a)
    (bidders : Nat → Option Bidder) (id : LotId) : Acts s (c', bidders) a id := by
  have hQuiet (hAuctions : c'.db.auctions = s.1.db.auctions) (hBids : c'.db.bids = s.1.db.bids)
      (hWritten : written s.1 a = none) : Acts s (c', bidders) a id := by
    apply Acts.other .register (commits_of_quiet hWritten) (.of_same hAuctions hBids id)
    intro _ _ hRequest
    cases hRequest
  have hOther {sid : Nat} {e : Event market} {request : Request} {w : Bidder}
      (hWritten : written s.1 a = some (sid, e)) (hState : s.2 sid = some w)
      (hRequest : w.request = request) (hLot : w.lot ≠ some id)
      (hCommit : Commit percent .none request (s.1.held sid) s.1.db c'.db) :
      Acts s (c', bidders) a id := by
    apply Acts.other request _ (.of_commit h.valid.inv hCommit id)
    · intro userId bid hBid hId
      apply hLot
      rw [Bidder.lot, hRequest, hBid, ← hId]
    · rw [commits_of_written hWritten hState, if_neg hLot]
  have hBidder {sid : Nat} {request : Request} (hRequest : s.requests sid = some request) :
      ∃ w, s.2 sid = some w ∧ w.request = request := Option.map_eq_some_iff.mp hRequest
  cases hOutcome with
  | quiet hSame hWritten => exact hQuiet (by rw [hSame]) (by rw [hSame]) hWritten
  | observed hEvent hDb => exact hQuiet (by rw [hDb]) (by rw [hDb]) rfl
  | @updated sid note request hWritten hRequest hDoes =>
      obtain ⟨w, hState, hServes⟩ := hBidder hRequest
      apply hOther hWritten hState hServes _ hDoes
      obtain ⟨write, next, hs⟩ := update_of_written hWritten
      obtain ⟨before, hBefore, hMay, _⟩ := h.within sid _ hs
      obtain rfl : w = before := Option.some.inj (hState.symm.trans hBefore)
      rw [show w.lot = none from hMay]
      simp
  | @committed sid note request hWritten hRequest hDoes =>
      obtain ⟨w, hState, hServes⟩ := hBidder hRequest
      by_cases hLot : w.lot = some id
      · obtain ⟨userId, bid, copy, checked, now, timestamp, write, hBid, hRow, hRow'⟩ :=
          h.commits_bid hMoves hWritten hState hLot
        refine .bids w userId bid copy checked now timestamp write ?_ hBid hRow hRow'
        rw [commits_of_written hWritten hState, if_pos hLot]
      · exact hOther hWritten hState hServes hLot hDoes

/-- One action of any session. -/
theorem Underway.advance {s s' : Bidding} {a : Action market Request} (h : Underway percent s)
    (moves : advance percent s a = some s') :
    Underway percent s' ∧ (∀ id, Acts s s' a id) ∧ SameCreators s.1.db s'.1.db ∧
      ∃ request, ∀ id, LotChange request s.1.db s'.1.db id (s.1.db.auctions.get id)
        (s'.1.db.auctions.get id) := by
  obtain ⟨c', hMoves, rfl⟩ := Option.map_eq_some_iff.mp moves
  obtain ⟨hValid, hOutcome⟩ := h.valid.advance (fun request _ _ => handle_safe request) hMoves
    fun sid e _ => Assumptions.none_ok _ _ e
  obtain ⟨hTurn, hWithin⟩ := h.within.turn handle_bidding hMoves
  have hRequests : (fun sid => (bidding.track .begin s.2 s.1 a sid).map Bidder.request) =
      serving s.requests a :=
    Typestate.track_serving (fun _ => rfl) bidding_request s.2 s.1 a
  obtain ⟨request, hLots⟩ := lots_of_outcome h.valid.inv hOutcome
  refine ⟨⟨?_, hWithin, ?_, ?_, h.copies.advance bidding_copies h.valid.inv hTurn hOutcome⟩, h.acts hMoves hOutcome _, ?_,
    request, hLots⟩
  · rw [← hRequests] at hValid
    exact hValid
  · exact fun id => (h.standing id).change (hLots id)
  · intro id row hRow hNoBids
    exact (hLots id).unextended (h.unextended id) hRow hNoBids
  · rcases hOutcome.may with hSame | ⟨held, other, hCommit⟩
    · exact .of_same (by rw [hSame])
    · exact .of_commit hCommit

theorem Underway.of_reaches {s s' : Bidding} (h : Underway percent s)
    (run : Runs.Reaches (Bidding.advance percent) (fun _ _ => True) s s') : Underway percent s' :=
  run.invariant h fun _ hUnderway moves _ => (hUnderway.advance moves).1

/-- An accepted bid extends the deadline, or leaves it and the counter. -/
theorem acceptBid_extends (auction : Auction) (amount : Money) (now : Time) :
    (acceptBid auction amount now).2 = true ∧ now < auction.endTime ∧
        auction.endTime < now + antisnipingExtend ∧
        auction.extensionsCount < maxAntisnipingExtensions ∧
        (acceptBid auction amount now).1.endTime = now + antisnipingExtend ∧
        (acceptBid auction amount now).1.extensionsCount = auction.extensionsCount + 1 ∨
      (acceptBid auction amount now).2 = false ∧
        (acceptBid auction amount now).1.endTime = auction.endTime ∧
        (acceptBid auction amount now).1.extensionsCount = auction.extensionsCount := by
  unfold acceptBid
  dsimp only
  split_ifs with hLate
  · obtain ⟨⟨hAhead, hWindow⟩, hCount⟩ := hLate
    refine .inl ⟨rfl, ?_, ?_, hCount, rfl, rfl⟩
    · exact sub_pos.mp hAhead
    · have hWindow : auction.endTime - now < antisnipingExtend := hWindow
      linarith
  · exact .inr ⟨rfl, rfl, rfl⟩

/-- What an action does to the deadline of a lot with bids: only the commit of a
bid that is granted an extension moves it, to a full extension from its reading. -/
structure Extends (granted : Option Time) (row row' : Auction) : Prop where
  later : row.endTime ≤ row'.endTime
  extended : ∀ now, granted = some now → row.endTime < row'.endTime ∧
    row'.endTime = now + antisnipingExtend ∧ row'.endTime < row.endTime + antisnipingExtend ∧
    row.extensionsCount < maxAntisnipingExtensions ∧
    row'.extensionsCount = row.extensionsCount + 1
  kept : granted = none → row'.endTime = row.endTime ∧ row'.extensionsCount = row.extensionsCount

/-- Between two states that have bids on a lot its deadline moves by the grant
of that step alone. -/
theorem Acts.extends {s s' : Bidding} {a : Action market Request} {id : LotId} {row : Auction}
    (h : Acts s s' a id) (hRow : s.1.db.auctions.get id = some row)
    (hStands : LotStands s.1.db id (some row)) (hBids : s'.1.db.bidsOn id ≠ []) :
    ∃ row', s'.1.db.auctions.get id = some row' ∧ Extends (s.grants a id) row row' := by
  cases h with
  | bids w userId bid copy checked now timestamp write hCommits hBid hCopy hRow' =>
      obtain rfl : row = copy := Option.some.inj (hRow.symm.trans hCopy)
      refine ⟨_, hRow', ?_⟩
      have hGrants : s.grants a id =
          if (acceptBid row bid.amount.val now).2 then some now else none := by
        simp only [grants, hCommits, Option.bind_some, hBid.state, Bidder.extension]
      rw [hGrants]
      rcases acceptBid_extends row bid.amount.val now with
        ⟨hExtended, hAhead, hWindow, hCount, hEnd, hCounted⟩ | ⟨hNot, hEnd, hCounted⟩
      · rw [if_pos hExtended]
        refine ⟨hEnd ▸ hWindow.le, fun t hT => ?_, fun hNone => by cases hNone⟩
        obtain rfl : now = t := Option.some.inj hT
        refine ⟨hEnd ▸ hWindow, hEnd, ?_, hCount, hCounted⟩
        rw [hEnd]
        linarith
      · rw [hNot, if_neg Bool.false_ne_true]
        exact ⟨hEnd.ge, fun t hT => (by cases hT), fun _ => ⟨hEnd, hCounted⟩⟩
  | other request hCommits hChange hOther =>
      have hGrants : s.grants a id = none := by simp [grants, hCommits]
      rw [hGrants]
      have hKept (new : Auction) (hEnd : new.endTime = row.endTime)
          (hCount : new.extensionsCount = row.extensionsCount) : Extends none row new :=
        ⟨hEnd.ge, fun t hT => (by cases hT), fun _ => ⟨hEnd, hCount⟩⟩
      rw [hRow] at hChange
      generalize s'.1.db.auctions.get id = lot' at hChange
      cases hChange with
      | untouched => exact ⟨row, rfl, hKept row rfl rfl⟩
      | revised _ _ _ _ hNoBids => exact absurd hNoBids hBids
      | removed _ hNoBids => exact absurd hNoBids hBids
      | bid _ _ _ _ _ _ _ _ _ hRequest =>
          obtain ⟨data, hBid, hLot⟩ := hRequest
          exact absurd hLot (hOther _ data hBid)
      | sold buyer price now _ hType _ _ hSame =>
          rw [hSame] at hBids
          obtain ⟨bid, hBid⟩ := List.exists_mem_of_ne_nil _ hBids
          have hBidType := (hStands.bids bid hBid).1
          rw [hType] at hBidType
          cases hBidType
      | closed _ hNoBids => exact absurd hNoBids hBids
      | settled lastBid _ _ hClosed =>
          exact ⟨_, rfl, hKept _ hClosed.endTime hClosed.extensionsCount⟩

/-- A bid passes its expiry check under the lock, against the stored deadline. -/
theorem Underway.inTime {s : Bidding} (h : Underway percent s) {id : LotId} {t : Time}
    (hPassed : s.Passed id t) : ∃ row, s.1.db.auctions.get id = some row ∧ t ≤ row.endTime := by
  obtain ⟨sid, p, w, hSession, hState, hLot, hCheck⟩ := hPassed
  cases hCopy : w.copy with
  | none => simp [Bidder.passed, hCopy] at hCheck
  | some copy =>
      have hRow := (h.copies sid p w id copy hSession hState (by simp [Bidder.copyOf, hLot, hCopy])).2
      refine ⟨copy, hRow, ?_⟩
      cases hReadings : w.readings with
      | nil => simp [Bidder.passed, hCopy, hReadings] at hCheck
      | cons checked rest =>
          simp only [Bidder.passed, hCopy, hReadings, Option.ite_none_left_eq_some, not_lt,
            Option.some.injEq] at hCheck
          exact hCheck.2 ▸ hCheck.1

/-- As long as the lot is active, its deadline has not been moved back. -/
theorem Underway.deadline_later {s s' : Bidding} (h : Underway percent s) {id : LotId}
    {row : Auction} (hRow : s.1.db.auctions.get id = some row)
    (run : Runs.Reaches (Bidding.advance percent) (fun _ _ => True) s s') {row' : Auction}
    (hRow' : s'.1.db.auctions.get id = some row') (hActive : row'.isActive = true) :
    row.endTime ≤ row'.endTime := by
  have hLater : Underway percent s' ∧ id < s'.1.db.auctions.serial ∧
      ∀ row', s'.1.db.auctions.get id = some row' → row'.isActive = true →
        row.endTime ≤ row'.endTime := by
    apply run.invariant (I := fun s' => Underway percent s' ∧ id < s'.1.db.auctions.serial ∧
      ∀ row', s'.1.db.auctions.get id = some row' → row'.isActive = true →
        row.endTime ≤ row'.endTime)
    · refine ⟨h, Table.lt_serial hRow, fun row' hRow' _ => ?_⟩
      rw [Option.some.inj (hRow.symm.trans hRow')]
    · intro t t' a hBoth moves _
      obtain ⟨hUnderway, hSerial, hOld⟩ := hBoth
      obtain ⟨hUnderway', _, hSame, request, hLots⟩ := hUnderway.advance moves
      refine ⟨hUnderway', hSerial.trans_le hSame.1, fun new hNew hOpen => ?_⟩
      obtain ⟨old, hStored, _⟩ := hSame.2 id hSerial new hNew
      obtain ⟨hOldOpen, hEnd⟩ := (hLots id).later hStored hNew hOpen
      exact (hOld old hStored hOldOpen).trans hEnd
  exact hLater.2.2 row' hRow' hActive

/-- What the extensions have made of a deadline that stood at `start`. -/
structure Limited (start : Time) (row : Auction) : Prop where
  extensions : row.extensionsCount ≤ maxAntisnipingExtensions
  notBefore : start ≤ row.endTime
  endTime : row.endTime ≤ start + row.extensionsCount * antisnipingExtend

/-- A lot that was never extended is within every limit. -/
theorem Limited.unextended {row : Auction} (h : row.extensionsCount = 0) :
    Limited row.endTime row := by
  constructor
  · rw [h]
    exact Nat.zero_le _
  · exact le_rfl
  · simp [h]

/-- An extension keeps the deadline within the limit: it is granted only below
the cap and only by the step. -/
theorem Limited.extends {start : Time} {row row' : Auction} {granted : Option Time}
    (h : Limited start row) (hExtends : Extends granted row row') : Limited start row' := by
  refine ⟨?_, h.notBefore.trans hExtends.later, ?_⟩
  · cases granted with
    | none => exact (hExtends.kept rfl).2 ▸ h.extensions
    | some now =>
        obtain ⟨_, _, _, hCount, hCounted⟩ := hExtends.extended now rfl
        rw [hCounted]
        exact hCount
  · cases granted with
    | none =>
        obtain ⟨hEnd, hCount⟩ := hExtends.kept rfl
        rw [hEnd, hCount]
        exact h.endTime
    | some now =>
        obtain ⟨_, _, hWindow, _, hCounted⟩ := hExtends.extended now rfl
        have hEnd := h.endTime
        rw [hCounted, Nat.cast_add, Nat.cast_one, add_mul, one_mul]
        linarith

/-- Thirty extensions of two minutes make an hour. -/
theorem Limited.hour {start : Time} {row : Auction} (h : Limited start row) :
    start + row.extensionsCount * antisnipingExtend ≤ start + hours 1 := by
  have hCount : (row.extensionsCount : ℤ) ≤ 30 := by exact_mod_cast h.extensions
  simp only [antisnipingExtend, hours, minutes, seconds]
  push_cast
  linarith

/-- What is so from the first bid on. -/
structure Bounded (start : Time) (id : LotId) (s : Bidding) (row : Auction) : Prop where
  stored : s.1.db.auctions.get id = some row
  bidOn : s.1.db.bidsOn id ≠ []
  limited : Limited start row

/-- A step of a run from the first bid on. -/
theorem Bounded.advance {start : Time} {id : LotId} {s s' : Bidding} {a : Action market Request}
    {row : Auction} (h : Bounded start id s row) (hUnderway : Underway percent s)
    (moves : Bidding.advance percent s a = some s') :
    ∃ row', Extends (s.grants a id) row row' ∧ Bounded start id s' row' := by
  obtain ⟨_, hActs, _, request, hLots⟩ := hUnderway.advance moves
  have hBids : s'.1.db.bidsOn id ≠ [] := ((hUnderway.standing.frozen hLots).bidOn id h.bidOn).1
  have hStands := hUnderway.standing id
  rw [h.stored] at hStands
  obtain ⟨row', hRow', hExtends⟩ := (hActs id).extends h.stored hStands hBids
  exact ⟨row', hExtends, hRow', hBids, h.limited.extends hExtends⟩

/-- The first bid on a lot is on an active one. -/
theorem Underway.first_active {s s' : Bidding} {a : Action market Request} {id : LotId}
    {row : Auction} (h : Underway percent s) (moves : Bidding.advance percent s a = some s')
    (hRow : s.1.db.auctions.get id = some row) (hNoBids : s.1.db.bidsOn id = [])
    (hBids : s'.1.db.bidsOn id ≠ []) : row.isActive = true := by
  obtain ⟨_, _, _, request, hLots⟩ := h.advance moves
  have hChange := hLots id
  rw [hRow] at hChange
  generalize s'.1.db.auctions.get id = lot' at hChange
  cases hChange with
  | untouched hSame => exact absurd (hSame.trans hNoBids) hBids
  | revised _ _ _ _ hNone => exact absurd hNone hBids
  | removed _ hNone => exact absurd hNone hBids
  | bid _ _ _ _ hActive => exact hActive
  | sold _ _ _ hActive => exact hActive
  | closed _ hNone => exact absurd hNone hBids
  | settled _ _ hSame => exact absurd (hSame.trans hNoBids) hBids

end Bidding

/-- From the first bid on a lot, whose deadline is then `old.endTime`: the first
bid and every later action extend the deadline only by a granted extension, at
most thirty in all and an hour in total; and no bid on the lot, earlier or
later, passes its expiry check at a later reading. -/
theorem antisniping_bounded (percent : CommissionPercent) (categories : List Nat)
    {before after : Bidding} {a : Action market Request} {id : LotId} {old : Auction}
    (run : Runs.Reaches (Bidding.advance percent) (fun _ _ => True) (.initial categories) before)
    (moves : Bidding.advance percent before a = some after)
    (hRow : before.1.db.auctions.get id = some old) (hNoBids : before.1.db.bidsOn id = [])
    (hBids : after.1.db.bidsOn id ≠ []) :
    (∃ row, Bidding.Extends (before.grants a id) old row ∧
      after.1.db.auctions.get id = some row) ∧
    (∀ s, Runs.Reaches (Bidding.advance percent) (fun _ _ => True) (.initial categories) s →
      Runs.Reaches (Bidding.advance percent) (fun _ _ => True) s before →
      ∀ t, s.Passed id t → t ≤ old.endTime) ∧
    ∀ s, Runs.Reaches (Bidding.advance percent) (fun _ _ => True) after s →
      (∀ t, s.Passed id t → t ≤ old.endTime + hours 1) ∧
      ∃ row, s.1.db.auctions.get id = some row ∧
        row.extensionsCount ≤ maxAntisnipingExtensions ∧ old.endTime ≤ row.endTime ∧
        row.endTime ≤ old.endTime + row.extensionsCount * antisnipingExtend ∧
        old.endTime + row.extensionsCount * antisnipingExtend ≤ old.endTime + hours 1 ∧
        ∀ b s', Bidding.advance percent s b = some s' → ∃ row',
          s'.1.db.auctions.get id = some row' ∧ Bidding.Extends (s.grants b id) row row' := by
  have hBefore := (Bidding.Underway.initial percent categories).of_reaches run
  obtain ⟨hAfter, hActs, _⟩ := hBefore.advance moves
  have hStands := hBefore.standing id
  rw [hRow] at hStands
  obtain ⟨row, hRow', hExtends⟩ := (hActs id).extends hRow hStands hBids
  refine ⟨⟨row, hExtends, hRow'⟩, ?_, ?_⟩
  · intro s hReached hRun t hPassed
    obtain ⟨copy, hCopy, hTime⟩ :=
      ((Bidding.Underway.initial percent categories).of_reaches hReached).inTime hPassed
    have hActive := hBefore.first_active moves hRow hNoBids hBids
    exact hTime.trans (((Bidding.Underway.initial percent categories).of_reaches
      hReached).deadline_later hCopy hRun hRow hActive)
  · intro s hRun
    have hOld : Bidding.Limited old.endTime old := .unextended (hBefore.unextended id old hRow hNoBids)
    have hFirst : Bidding.Bounded old.endTime id after row := ⟨hRow', hBids, hOld.extends hExtends⟩
    have hLater : Bidding.Underway percent s ∧ ∃ row, Bidding.Bounded old.endTime id s row := by
      apply hRun.invariant
        (I := fun s => Bidding.Underway percent s ∧ ∃ row, Bidding.Bounded old.endTime id s row)
        ⟨hAfter, row, hFirst⟩
      intro t t' b hBoth hMoves _
      obtain ⟨hUnderway, row, hBounded⟩ := hBoth
      obtain ⟨row', _, hBounded'⟩ := hBounded.advance hUnderway hMoves
      exact ⟨(hUnderway.advance hMoves).1, row', hBounded'⟩
    obtain ⟨hUnderway, row, hBounded⟩ := hLater
    obtain ⟨hCount, hNotBefore, hEnd⟩ := hBounded.limited
    refine ⟨fun t hPassed => ?_, row, hBounded.stored, hCount, hNotBefore, hEnd,
      hBounded.limited.hour, fun b s' hMoves => ?_⟩
    · obtain ⟨copy, hCopy, hTime⟩ := hUnderway.inTime hPassed
      obtain rfl := Option.some.inj (hBounded.stored.symm.trans hCopy)
      exact hTime.trans (hEnd.trans hBounded.limited.hour)
    · obtain ⟨row', hExtends', hBounded'⟩ := hBounded.advance hUnderway hMoves
      exact ⟨row', hBounded'.stored, hExtends'⟩

/-- User 0 lists a chair for ten minutes, and user 1 bids on it five seconds
before the deadline; the bid is yet to be committed. -/
def lastMinute : List (Action market Request) :=
  [.start 0 .register, .step 0, .start 1 .register, .step 1] ++
  [.start 2 (.createAuction 0 chair), .step 2, .clock 2 0, .step 2] ++
  [.start 3 (.placeBid 1 ⟨0, ⟨28000, by decide⟩⟩)] ++ steps 3 2 ++ [.clock 3 (seconds 595)] ++
  steps 3 4 ++ [.clock 3 (seconds 595), .clock 3 (seconds 595)]

/-- From the bid on the chair five seconds before its end on, its deadline
never passes the end first set by more than an hour. -/
theorem antisniping_bounded_chair : ∃ after : Bidding,
    (after.1.db.auctions.get 0).map Auction.endTime = some (seconds 715) ∧
      ∀ s, Runs.Reaches (Bidding.advance defaultCommission) (fun _ _ => True) after s →
        ∃ row, s.1.db.auctions.get 0 = some row ∧ row.endTime ≤ minutes 10 + hours 1 := by
  obtain ⟨before, run, hRow, hNoBids, hNext⟩ := Runs.exists_reaches
    (Bidding.advance defaultCommission) (fun _ _ => True) (.initial []) lastMinute
    (fun s => (s.1.db.auctions.get 0).map Auction.endTime = some (minutes 10) ∧
      s.1.db.bidsOn 0 = [] ∧ (Bidding.advance defaultCommission s (.step 3)).any
        (fun s' => decide (s'.1.db.bidsOn 0 ≠ [] ∧
          (s'.1.db.auctions.get 0).map Auction.endTime = some (seconds 715))) = true)
    (by decide +kernel)
  obtain ⟨after, moves, hAfter⟩ := (Option.any_eq_true _ _).mp hNext
  obtain ⟨hBids, hExtended⟩ := of_decide_eq_true hAfter
  obtain ⟨old, hOld, hEnd⟩ := Option.map_eq_some_iff.mp hRow
  refine ⟨after, hExtended, fun s hRun => ?_⟩
  obtain ⟨_, row, hStored, _, _, hBound, hHour, _⟩ :=
    (antisniping_bounded defaultCommission [] run moves hOld hNoBids hBids).2.2 s hRun
  exact ⟨row, hStored, hEnd ▸ hBound.trans hHour⟩

end OnlineAuction
