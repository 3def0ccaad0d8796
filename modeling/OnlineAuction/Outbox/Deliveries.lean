import OnlineAuction.Library.Outlines
import OnlineAuction.Outbox.Backoff
import OnlineAuction.Outbox.Mail

/-! What any number of workers do to each mail, whatever the SMTP server answers
and wherever a worker is cut off: every action is a step in the life of the
mail it concerns. -/

namespace OnlineAuction.Outbox

open RowLocks

/-- How far a session has come since its last commit: nothing claimed, a row
claimed, or an attempt started which ends as given. -/
inductive Phase where
  | idle
  | claimed (row : EmailOutbox)
  | attempted (row : EmailOutbox) (error : Option String)

structure Working where
  request : Request
  phase : Phase

def Working.begin (request : Request) : Working := ⟨request, .idle⟩

/-- How the SMTP server answers an attempt that the session makes. -/
def Request.outcome : Request → Nat → Option String
  | .enqueue .., _ => none
  | .tick smtp, id => smtp id

def pendingRow (d : State) (id : Nat) : Option EmailOutbox :=
  (d.rows.get id).filter fun row => row.status = .pending

def Phase.after (outcome : Nat → Option String) : Phase → Answer outbox → Phase
  | .idle, .locked id d => match pendingRow d id with
      | some row => .claimed row
      | none => .idle
  | .claimed row, .updated _ => .attempted row (outcome row.id)
  | _, .committed _ _ => .idle
  | _, .failed _ => .idle
  | phase, _ => phase

/-- The attempt of a session is for the row it has claimed, and what it commits
is the conclusion of the attempt. Only a session that has claimed nothing
stores a new row. -/
def working : Typestate outbox Working where
  lock _ _ := False
  update w _ write := ∃ row start, w.phase = .claimed row ∧
    write = (State.recordAttempt · ⟨row.id, row.nextAttemptAt, start⟩)
  commit w _ write := match w.phase with
    | .idle => ∃ row : Nat → EmailOutbox,
        (∀ id, (row id).id = id ∧ Fresh (row id)) ∧ write = (State.add · row)
    | .claimed _ => False
    | .attempted row error => ∃ changed, changed.id = row.id ∧ Concluded row changed error ∧
        write = (State.flushRow · row changed)
  after w answer := ⟨w.request, w.phase.after w.request.outcome answer⟩

section After

variable (w : Working)

@[simp] theorem working_after_read (note : Option EmailOutbox) (d : State) :
    working.after w (.read note d) = w := by
  obtain ⟨request, phase⟩ := w
  cases phase <;> rfl

@[simp] theorem working_after_refused (id : Nat) : working.after w (.refused id) = w := by
  obtain ⟨request, phase⟩ := w
  cases phase <;> rfl

@[simp] theorem working_after_clock (t : Time) : working.after w (.clock t) = w := by
  obtain ⟨request, phase⟩ := w
  cases phase <;> rfl

@[simp] theorem working_after_committed (note : Option EmailOutbox) (d : State) :
    working.after w (.committed note d) = ⟨w.request, .idle⟩ := by
  obtain ⟨request, phase⟩ := w
  cases phase <;> rfl

@[simp] theorem working_after_failed (note : Option EmailOutbox) :
    working.after w (.failed note) = ⟨w.request, .idle⟩ := by
  obtain ⟨request, phase⟩ := w
  cases phase <;> rfl

end After

section Follows

theorem follows_utcnow {w : Working} {post : Time → Working → Prop} (hPost : ∀ t, post t w) :
    working.Follows utcnow post w := by
  intro t
  rw [working_after_clock]
  exact hPost t

/-- The rule of claiming a row: it is pending under its lock. -/
theorem follows_claim {request : Request} {candidate : EmailOutbox}
    {post : Option EmailOutbox → Working → Prop} (hNone : post none ⟨request, .idle⟩)
    (hSome : ∀ row, row.status = .pending → post (some row) ⟨request, .claimed row⟩) :
    working.Follows (claim candidate) post ⟨request, .idle⟩ := by
  refine ⟨fun d => ?_, hNone⟩
  show post (pendingRow d candidate.id) ⟨request, match pendingRow d candidate.id with
    | some row => .claimed row
    | none => .idle⟩
  cases hRow : pendingRow d candidate.id with
  | none => exact hNone
  | some row => exact hSome row (of_decide_eq_true (Option.filter_eq_some_iff.mp hRow).2)

/-- The rule of one attempt: the row is concluded as the mail server answered. -/
theorem follows_processOne {smtp : Nat → Option String} {row : EmailOutbox}
    {post : EmailOutbox → Working → Prop} (hPending : row.status = .pending)
    (hPost : ∀ changed, changed.id = row.id → Concluded row changed (smtp row.id) →
      post changed ⟨.tick smtp, .attempted row (smtp row.id)⟩) :
    working.Follows (processOne smtp row) post ⟨.tick smtp, .claimed row⟩ := by
  unfold processOne sendEmailNotification
  rw [Typestate.follows_bind, Typestate.follows_bind]
  apply follows_utcnow
  intro start
  refine ⟨⟨row, start, rfl, rfl⟩, ?_⟩
  show working.Follows _ _ ⟨.tick smtp, .attempted row (smtp row.id)⟩
  cases hAnswer : smtp row.id with
  | none =>
      rw [hAnswer] at hPost
      rw [Typestate.follows_pure]
      dsimp only
      rw [Typestate.follows_bind]
      apply follows_utcnow
      intro now
      exact hPost _ rfl (.sent rfl rfl rfl)
  | some error =>
      rw [hAnswer] at hPost
      rw [Typestate.follows_pure]
      dsimp only
      split_ifs with hSpent
      · exact hPost _ rfl (.failed error rfl rfl rfl hSpent)
      · rw [Typestate.follows_bind]
        apply follows_utcnow
        intro now
        exact hPost _ rfl (.retried error hPending rfl rfl (not_le.mp hSpent))

/-- A tick goes through its candidates one by one. -/
theorem follows_processEach (smtp : Nat → Option String) (candidates : List EmailOutbox)
    (processed : Nat) :
    working.Follows (processEach smtp candidates processed) (fun _ _ => True)
      ⟨.tick smtp, .idle⟩ := by
  induction candidates generalizing processed with
  | nil => trivial
  | cons candidate rest ih =>
      rw [processEach, Typestate.follows_bind]
      apply follows_claim
      · exact ih processed
      · intro row hPending
        dsimp only
        rw [Typestate.follows_bind]
        apply follows_processOne hPending
        intro changed hId hConcluded
        exact ⟨⟨changed, hId, hConcluded, rfl⟩, fun d => ih _, ih _⟩

/-- No worker strays from the outline. -/
theorem handle_follows (request : Request) :
    working.Follows (handle request) (fun _ _ => True) (.begin request) := by
  cases request with
  | enqueue toEmail subject htmlBody maxAttempts =>
      show working.Follows (enqueueEmail toEmail subject htmlBody maxAttempts) _ _
      unfold enqueueEmail
      rw [Typestate.follows_bind]
      apply follows_utcnow
      intro nextAttemptAt
      rw [Typestate.follows_bind]
      apply follows_utcnow
      intro createdAt
      exact ⟨⟨_, fun id => ⟨rfl, rfl, rfl⟩, rfl⟩, fun d => trivial, trivial⟩
  | tick smtp =>
      show working.Follows (runOneTick smtp >>= fun _ => pure ()) _ _
      rw [Typestate.follows_bind]
      show working.Follows (runOneTick smtp) (fun _ _ => True) _
      unfold runOneTick
      rw [Typestate.follows_bind]
      apply follows_utcnow
      intro now
      rw [Typestate.follows_bind]
      intro d
      exact follows_processEach smtp _ 0

end Follows

/-- A session with a row has its lock, and finds it as it was claimed. -/
def Knowledge (w : Working) (held : Held outbox) (d : State) : Prop :=
  match w.phase with
  | .idle => held = Held.none
  | .claimed row => RowLocked held row d
  | .attempted row _ => RowLocked held row d

inductive Changed (w : Working) (held : Held outbox) (d d' : State) : Prop where
  | same (hRows : d'.rows = d.rows)
  | stored (row : Nat → EmailOutbox) (hPhase : w.phase = .idle)
      (hFresh : ∀ id, (row id).id = id ∧ Fresh (row id)) (hDb : d' = d.add row)
  | concluded (row changed : EmailOutbox) (error : Option String)
      (hPhase : w.phase = .attempted row error) (hLocked : RowLocked held row d)
      (hId : changed.id = row.id) (hConcluded : Concluded row changed error)
      (hDb : d' = d.setRow changed)

section Knowledge

variable {c c' : Config outbox} {sid other : Nat} {w w' : Working} {answer : Answer outbox}

/-- A step changes the rows as its answer says. -/
theorem Changed.of_told (hTold : working.Told c c' sid w answer)
    (hKnown : Knowledge w (c.held sid) c.db) : Changed w (c.held sid) c.db c'.db := by
  cases hTold with
  | read _ hDb => exact .same (congrArg State.rows hDb)
  | locked _ _ hDb => exact .same (congrArg State.rows hDb)
  | refused _ hDb => exact .same (congrArg State.rows hDb)
  | clock _ _ hDb => exact .same (by rw [hDb])
  | updated note write hMay hDb =>
      obtain ⟨row, start, _, rfl⟩ := hMay
      exact .same (by rw [hDb]; rfl)
  | committed note write hMay hDb =>
      obtain ⟨request, phase⟩ := w
      cases phase with
      | idle =>
          obtain ⟨row, hFresh, rfl⟩ := hMay
          exact .stored row rfl hFresh hDb
      | claimed row => exact absurd hMay id
      | attempted row error =>
          obtain ⟨changed, hId, hConcluded, rfl⟩ := hMay
          have hLocked : RowLocked (c.held sid) row c.db := hKnown
          apply Changed.concluded row changed error rfl hLocked hId hConcluded
          exact hDb.trans (State.flushRow_eq hLocked.stored hId)
  | failed _ hDb => exact .same (congrArg State.rows hDb)

/-- Such a change keeps the rows well formed. -/
theorem Changed.wellFormed {d d' : State} {held : Held outbox} (h : Changed w held d d')
    (hWell : WellFormed d) : WellFormed d' := by
  cases h with
  | same hRows =>
      intro id row hRow
      exact hWell id row (hRows ▸ hRow)
  | stored row _ hFresh hDb => exact hDb ▸ hWell.add (hFresh _).1
  | concluded row changed error _ hLocked hId _ hDb => exact hDb ▸ hWell.setRow (hId ▸ hLocked.stored)

/-- A row that another session holds is as it was. -/
theorem Changed.rowLocked {d d' : State} {held held' : Held outbox} (h : Changed w held d d')
    (hDisjoint : ∀ key, held' key = true → held key = false) {row : EmailOutbox}
    (hLocked : RowLocked held' row d) : RowLocked held' row d' := by
  refine ⟨hLocked.held, ?_, hLocked.pending⟩
  cases h with
  | same hRows => exact hRows ▸ hLocked.stored
  | stored _ _ _ hDb => exact hDb ▸ Table.get_add_old hLocked.stored _
  | concluded mine changed error _ hMine hId _ hDb =>
      have hOther : row.id ≠ changed.id := by
        intro hSame
        have hFree := hDisjoint row.id hLocked.held
        rw [hSame, hId, hMine.held] at hFree
        cases hFree
      rw [hDb, State.get_setRow_other _ hOther]
      exact hLocked.stored

/-- A row that is held and unchanged stays known. -/
theorem RowLocked.same {held held' : Held outbox} {d d' : State} {row : EmailOutbox}
    (h : RowLocked held row d) (hHeld : held row.id = true → held' row.id = true)
    (hRows : d'.rows = d.rows) : RowLocked held' row d' :=
  ⟨hHeld h.held, hRows ▸ h.stored, h.pending⟩

theorem Knowledge.same {held : Held outbox} {d d' : State} (h : Knowledge w held d)
    (hRows : d'.rows = d.rows) : Knowledge w held d' := by
  obtain ⟨request, phase⟩ := w
  cases phase with
  | idle => exact h
  | claimed row => exact RowLocked.same h id hRows
  | attempted row error => exact RowLocked.same h id hRows

/-- A session is granted the lock of a row. -/
theorem Knowledge.locked {held : Held outbox} {d : State} (hWell : WellFormed d)
    (h : Knowledge w held d) (id : Nat) :
    Knowledge (working.after w (.locked id d)) (held.grant d id) d := by
  obtain ⟨request, phase⟩ := w
  cases phase with
  | claimed row => exact RowLocked.same h (held.grant_sub d id) rfl
  | attempted row error => exact RowLocked.same h (held.grant_sub d id) rfl
  | idle =>
      obtain rfl : held = Held.none := h
      show Knowledge ⟨request, match pendingRow d id with
        | some row => .claimed row
        | none => .idle⟩ _ d
      cases hRow : pendingRow d id with
      | none =>
          have hNoRow : outbox.hasRow d id = false := by
            show (d.rows.get id).any _ = false
            rw [pendingRow, Option.filter_eq_none_iff] at hRow
            rw [Option.any_eq_false]
            simpa using hRow
          show Held.grant (S := outbox) _ d id = Held.none
          funext key
          rw [Held.grant, hNoRow]
          rfl
      | some row =>
          obtain ⟨hGet, hPending⟩ := Option.filter_eq_some_iff.mp hRow
          obtain rfl : row.id = id := hWell id row hGet
          have hExists : outbox.hasRow d row.id = true := by
            show (d.rows.get row.id).any _ = true
            simpa [hGet] using hPending
          exact ⟨Held.grant_self _ hExists, hGet, of_decide_eq_true hPending⟩

end Knowledge

/-- Each worker follows the outline and knows what it has read of the row that
it holds. -/
theorem outline : working.Outline Working.begin WellFormed Knowledge where
  keeps hWell hTold hKnown := (Changed.of_told hTold hKnown).wellFormed hWell
  started _ _ := rfl
  told {c c' sid w answer} hWell hTold hKnown := by
    cases hTold with
    | read note hDb hLocks =>
        rw [working_after_read, Config.held_of_same hLocks, hDb]
        exact hKnown
    | locked id hFree hDb hLocks =>
        rw [Config.held_of_grant hLocks, hDb]
        exact hKnown.locked hWell id
    | refused id hDb hLocks =>
        rw [working_after_refused, Config.held_of_same hLocks, hDb]
        exact hKnown
    | clock time hReadable hDb hLocks =>
        rw [working_after_clock, Config.held_of_same hLocks, hDb]
        exact hKnown.same rfl
    | updated note write hMay hDb hLocks =>
        obtain ⟨row, start, hPhase, rfl⟩ := hMay
        rw [Config.held_of_same hLocks, hDb]
        have hLocked : RowLocked (c.held sid) row c.db := by simpa [Knowledge, hPhase] using hKnown
        simp only [working, Phase.after, hPhase]
        exact hLocked.same id rfl
    | committed note write hMay hDb hLocks =>
        rw [working_after_committed]
        exact Config.held_of_release hLocks
    | failed note hDb hLocks =>
        rw [working_after_failed]
        exact Config.held_of_release hLocks
  others {c c' sid other w w' answer} hWell hOther hTold hKnown hOwn := by
    have hChanged := Changed.of_told hTold hKnown
    have hDisjoint := c.held_disjoint hOther
    obtain ⟨request, phase⟩ := w'
    cases phase with
    | idle => exact hOwn
    | claimed row => exact hChanged.rowLocked hDisjoint hOwn
    | attempted row error => exact hChanged.rowLocked hDisjoint hOwn

/-- The mail that a session has sent with this answer. -/
def Working.succeeds (w : Working) : Answer outbox → Option Nat
  | .updated _ => match w.phase with
      | .claimed row => if (w.request.outcome row.id).isNone then some row.id else none
      | _ => none
  | _ => none

/-- The mail whose failed attempt a session has committed with this answer. -/
def Working.fails (w : Working) : Answer outbox → Option Nat
  | .committed _ _ => match w.phase with
      | .attempted row (some _) => some row.id
      | _ => none
  | _ => none

/-- The mail that a session has sent without a commit to say so. -/
def Phase.unsaved : Phase → Option Nat
  | .attempted row none => some row.id
  | _ => none

/-- The mail whose success a session has lost with this answer. -/
def Working.loses (w : Working) : Answer outbox → Option Nat
  | .failed _ => w.phase.unsaved
  | _ => none

/-- How far each session has come. The mails that were sent, whose failed
attempts were committed, and which were sent by a session whose commit then
failed or which crashed: each as often as it happened. -/
structure History where
  states : Nat → Option Working
  succeeded : List Nat
  failures : List Nat
  losses : List Nat

namespace History

variable (h : History) (c : Config outbox)

def noted (note : Working → Answer outbox → Option Nat) (a : Action outbox Request) : Option Nat :=
  (answered c a).bind fun told => (h.states told.1).bind fun w => note w told.2

def lost : Action outbox Request → Option Nat
  | .close sid => if (c.sessions sid).isSome then (h.states sid).bind (·.phase.unsaved) else none
  | a => h.noted c Working.loses a

def record (a : Action outbox Request) (_ : Config outbox) : History where
  states := working.track .begin h.states c a
  succeeded := h.succeeded ++ (h.noted c Working.succeeds a).toList
  failures := h.failures ++ (h.noted c Working.fails a).toList
  losses := h.losses ++ (h.lost c a).toList

end History

abbrev Delivering := Config outbox × History

def Delivering.initial (now : Time) : Delivering :=
  (.initial (State.initial [] now), ⟨fun _ => none, [], [], []⟩)

def deliver : Delivering → Action outbox Request → Option Delivering :=
  Runs.recording (advance handle) History.record

abbrev Reached (start s : Delivering) : Prop := Runs.Reaches deliver (fun _ _ => True) start s

/-- The attempt that a session makes for the row. -/
def Phase.sends (id : Nat) : Phase → Option (Option String)
  | .attempted row error => if row.id = id then some error else none
  | _ => none

/-- The attempt in progress: the one of the session that holds the row. -/
def sending (locks : Nat → Option Nat) (states : Nat → Option Working) (id : Nat) :
    Option (Option String) :=
  ((locks id).bind states).bind fun w => w.phase.sends id

def Delivering.mail (s : Delivering) (id : Nat) : Mail where
  row := s.1.db.rows.get id
  sending := sending s.1.locks s.2.states id
  started := s.1.db.started.countP (·.id = id)
  succeeded := s.2.succeeded.count id
  failures := s.2.failures.count id
  losses := s.2.losses.count id

section Mail

variable {c c' : Config outbox} {h : History} {a : Action outbox Request} {sid : Nat} {w : Working}
  {answer : Answer outbox} {locks locks' : Nat → Option Nat} {states states' : Nat → Option Working}
  {id : Nat}

theorem noted_of_answered {note : Working → Answer outbox → Option Nat}
    (hAnswer : answered c a = some (sid, answer)) (hState : h.states sid = some w) :
    h.noted c note a = note w answer := by
  simp [History.noted, hAnswer, hState]

theorem lost_of_answered (hAnswer : answered c a = some (sid, answer))
    (hState : h.states sid = some w) : h.lost c a = w.loses answer := by
  cases a with
  | close => cases hAnswer
  | start => cases hAnswer
  | step => exact noted_of_answered hAnswer hState
  | clock => exact noted_of_answered hAnswer hState
  | reject => exact noted_of_answered hAnswer hState

/-- A row is being sent as the session that holds it says. -/
theorem sending_of_lock (hLock : locks id = some sid) (hState : states sid = some w) :
    sending locks states id = w.phase.sends id := by
  simp [sending, hLock, hState]

/-- A row that nobody holds is not being sent. -/
theorem sending_of_free (hLock : locks id = none) : sending locks states id = none := by
  simp [sending, hLock]

theorem sending_congr (hLocks : locks' id = locks id)
    (hStates : ∀ sid, locks id = some sid → states' sid = states sid) :
    sending locks' states' id = sending locks states id := by
  unfold sending
  rw [hLocks]
  cases hLock : locks id with
  | none => rfl
  | some sid => rw [Option.bind_some, Option.bind_some, hStates sid hLock]

theorem count_toList (o : Option Nat) (id : Nat) :
    o.toList.count id = if o = some id then 1 else 0 := by
  cases o with
  | none => simp
  | some other => simp [List.count_singleton]

/-- A session goes on, with the attempt it has in progress for the mail. -/
theorem sending_kept (hLocks : locks' = locks) (hState : states sid = some w) {w' : Working}
    (hSends : w'.phase.sends id = w.phase.sends id) :
    sending locks' (Function.update states sid (some w')) id = sending locks states id := by
  subst hLocks
  by_cases hLock : locks' id = some sid
  · rw [sending_of_lock hLock (Function.update_self ..), sending_of_lock hLock hState, hSends]
  · apply sending_congr rfl
    intro other hOther
    apply Function.update_of_ne
    rintro rfl
    exact hLock hOther

/-- The mail once an answer has been given. -/
theorem mail_of_answered (hAnswer : answered c a = some (sid, answer))
    (hState : h.states sid = some w) :
    Delivering.mail (c', h.record c a c') id =
      { row := c'.db.rows.get id
        sending := sending c'.locks
          (Function.update h.states sid (some (working.after w answer))) id
        started := c'.db.started.countP (·.id = id)
        succeeded := h.succeeded.count id + if w.succeeds answer = some id then 1 else 0
        failures := h.failures.count id + if w.fails answer = some id then 1 else 0
        losses := h.losses.count id + if w.loses answer = some id then 1 else 0 } := by
  unfold Delivering.mail History.record
  simp only [List.count_append, count_toList, noted_of_answered hAnswer hState,
    lost_of_answered hAnswer hState, Typestate.track_of_answered hAnswer hState]

/-- An answer that does not concern the mail. -/
theorem mail_same (hAnswer : answered c a = some (sid, answer)) (hState : h.states sid = some w)
    (hRow : c'.db.rows.get id = c.db.rows.get id)
    (hStarted : c'.db.started.countP (·.id = id) = c.db.started.countP (·.id = id))
    (hSending : sending c'.locks (Function.update h.states sid (some (working.after w answer))) id =
      sending c.locks h.states id) (hSucceeds : w.succeeds answer ≠ some id)
    (hFails : w.fails answer ≠ some id) (hLoses : w.loses answer ≠ some id) :
    Delivering.mail (c', h.record c a c') id = Delivering.mail (c, h) id := by
  rw [mail_of_answered hAnswer hState, hRow, hStarted, hSending, if_neg hSucceeds, if_neg hFails,
    if_neg hLoses]
  rfl

/-- Giving up its rows ends the sending of those that the session held. -/
theorem sending_release (hLocks : c'.locks = c.release sid)
    (hStates : ∀ other, other ≠ sid → states' other = states other) :
    sending c'.locks states' id = if c.locks id = some sid then none else sending c.locks states id := by
  have hLock : c'.locks id = if c.locks id = some sid then none else c.locks id := congrFun hLocks id
  split_ifs at hLock ⊢ with hMine
  · exact sending_of_free hLock
  · apply sending_congr hLock
    intro other hOther
    apply hStates other
    rintro rfl
    exact hMine hOther

theorem sends_eq_some {phase : Phase} {error : Option String} :
    phase.sends id = some error ↔ ∃ row, phase = .attempted row error ∧ row.id = id := by
  cases phase with
  | idle => simp [Phase.sends]
  | claimed row => simp [Phase.sends]
  | attempted row other =>
      simp only [Phase.sends, Option.ite_none_right_eq_some, Option.some.injEq,
        Phase.attempted.injEq]
      constructor
      · rintro ⟨hId, rfl⟩
        exact ⟨row, ⟨rfl, rfl⟩, hId⟩
      · rintro ⟨_, ⟨rfl, rfl⟩, hId⟩
        exact ⟨hId, rfl⟩

/-- A lock request changes no attempt in progress. -/
theorem sends_after_locked (w : Working) (key : Nat) (d : State) :
    (working.after w (.locked key d)).phase.sends id = w.phase.sends id := by
  obtain ⟨request, phase⟩ := w
  cases phase with
  | idle =>
      show Phase.sends id (match pendingRow d key with
        | some row => .claimed row
        | none => .idle) = none
      cases pendingRow d key <;> rfl
  | claimed row => rfl
  | attempted row error => rfl

/-- Only the session that holds a row has an attempt for it in progress. -/
theorem lock_of_sends {error : Option String} (hKnown : Knowledge w (c.held sid) c.db)
    (hSends : w.phase.sends id = some error) : c.locks id = some sid := by
  obtain ⟨row, hPhase, rfl⟩ := sends_eq_some.mp hSends
  have hLocked : RowLocked (c.held sid) row c.db := by simpa [Knowledge, hPhase] using hKnown
  simpa [Config.held] using hLocked.held

/-- Taking a row starts no sending. -/
theorem sending_locked (hState : h.states sid = some w) (hKnown : Knowledge w (c.held sid) c.db)
    {key : Nat} (hFree : c.free sid key = true) (hLocks : c'.locks = c.grant sid key) :
    sending c'.locks (Function.update h.states sid (some (working.after w (.locked key c.db)))) id =
      sending c.locks h.states id := by
  have hLock : c'.locks id = if outbox.hasRow c.db key && decide (id = key) then some sid
      else c.locks id := congrFun hLocks id
  have hAfter (hMine : c'.locks id = some sid) : sending c'.locks (Function.update h.states sid
      (some (working.after w (.locked key c.db)))) id = w.phase.sends id := by
    rw [sending_of_lock hMine (Function.update_self ..), sends_after_locked]
  by_cases hMine : c.locks id = some sid
  · have hStill : c'.locks id = some sid := by rw [hLock, hMine, ite_self]
    rw [hAfter hStill, sending_of_lock hMine hState]
  · have hNone : w.phase.sends id = none := by
      cases hSends : w.phase.sends id with
      | none => rfl
      | some error => exact absurd (lock_of_sends hKnown hSends) hMine
    by_cases hGranted : outbox.hasRow c.db key && decide (id = key)
    · rw [if_pos hGranted] at hLock
      obtain rfl : id = key := by simpa using (Bool.and_eq_true_iff.mp hGranted).2
      have hNobody : c.locks id = none := by simpa [Config.free, hMine] using hFree
      rw [hAfter hLock, hNone, sending_of_free hNobody]
    · rw [if_neg hGranted] at hLock
      apply sending_congr hLock
      intro other hOther
      apply Function.update_of_ne
      rintro rfl
      exact hMine hOther

/-- An attempt is started. -/
theorem step_updated {note : Option EmailOutbox} {write : State → State}
    (hAnswer : answered c a = some (sid, .updated note)) (hState : h.states sid = some w)
    (hKnown : Knowledge w (c.held sid) c.db) (hMay : working.update w note write)
    (hDb : c'.db = write c.db) (hLocks : c'.locks = c.locks) :
    (Delivering.mail (c, h) id).Step (Delivering.mail (c', h.record c a c') id) := by
  obtain ⟨row, start, hPhase, rfl⟩ := hMay
  have hLocked : RowLocked (c.held sid) row c.db := by simpa [Knowledge, hPhase] using hKnown
  have hLock : c.locks row.id = some sid := by simpa [Config.held] using hLocked.held
  have hAfter : (working.after w (.updated note)).phase =
      .attempted row (w.request.outcome row.id) := by simp [working, Phase.after, hPhase]
  by_cases hId : row.id = id
  · subst hId
    have hSending : sending c.locks h.states row.id = none := by
      rw [sending_of_lock hLock hState, hPhase]
      rfl
    have hSending' : sending c'.locks
        (Function.update h.states sid (some (working.after w (.updated note)))) row.id =
          some (w.request.outcome row.id) := by
      rw [sending_of_lock (hLocks ▸ hLock) (Function.update_self ..), hAfter]
      simp [Phase.sends]
    have hSuccess : (if w.succeeds (.updated note) = some row.id then 1 else 0) =
        success (w.request.outcome row.id) := by
      simp [Working.succeeds, hPhase, success]
    rw [mail_of_answered hAnswer hState, hSending', hSuccess, hDb]
    have hStep := Mail.Step.attempt (m := Delivering.mail (c, h) row.id) row
      (w.request.outcome row.id) hLocked.stored hLocked.pending hSending
    simpa [Delivering.mail, State.recordAttempt, Working.fails, Working.loses] using hStep
  · rw [mail_same hAnswer hState (by rw [hDb]; rfl)]
    · exact .rest
    · simp [hDb, State.recordAttempt, hId]
    · apply sending_kept hLocks hState
      simp [hAfter, hPhase, Phase.sends, hId]
    · simp [Working.succeeds, hPhase, hId]
    · simp [Working.fails]
    · simp [Working.loses]

/-- A commit stores a new mail or concludes an attempt. -/
theorem step_committed {note : Option EmailOutbox} {write : State → State} {d : State}
    (hAnswer : answered c a = some (sid, .committed note d))
    (hState : h.states sid = some w) (hKnown : Knowledge w (c.held sid) c.db)
    (hMay : working.commit w note write) (hDb : c'.db = write c.db)
    (hLocks : c'.locks = c.release sid) :
    (Delivering.mail (c, h) id).Step (Delivering.mail (c', h.record c a c') id) := by
  have hSending' : sending c'.locks (Function.update h.states sid
      (some (working.after w (.committed note d)))) id =
        if c.locks id = some sid then none else sending c.locks h.states id :=
    sending_release hLocks fun other hOther => Function.update_of_ne hOther _ _
  obtain ⟨request, phase⟩ := w
  cases phase with
  | claimed row => exact False.elim hMay
  | idle =>
      obtain ⟨row, hFresh, rfl⟩ := hMay
      have hNotHeld : c.locks id ≠ some sid := by
        have hNone : c.held sid id = false := congrFun (show c.held sid = Held.none from hKnown) id
        simpa [Config.held] using hNone
      rw [if_neg hNotHeld] at hSending'
      by_cases hId : id = c.db.rows.serial
      · rw [mail_of_answered hAnswer hState, hSending', hDb]
        have hStep := Mail.Step.store (m := Delivering.mail (c, h) id) (row id)
          (by rw [hId]; exact c.db.rows.unused _ le_rfl) (hFresh id).2
        simpa [Delivering.mail, State.add, Working.succeeds, Working.fails, Working.loses, hId]
          using hStep
      · rw [mail_same hAnswer hState _ _ hSending']
        · exact .rest
        · simp [Working.succeeds]
        · simp [Working.fails]
        · simp [Working.loses]
        · simp [hDb, State.add, hId]
        · simp [hDb, State.add]
  | attempted row error =>
      obtain ⟨changed, hSame, hConcluded, rfl⟩ := hMay
      have hLocked : RowLocked (c.held sid) row c.db := hKnown
      have hLock : c.locks row.id = some sid := by simpa [Config.held] using hLocked.held
      replace hDb : c'.db = c.db.setRow changed :=
        hDb.trans (State.flushRow_eq hLocked.stored hSame)
      by_cases hId : row.id = id
      · subst hId
        rw [if_pos hLock] at hSending'
        have hFailure : (if Working.fails ⟨request, .attempted row error⟩
            (.committed note d) = some row.id then 1 else 0) = failure error := by
          cases error <;> simp [Working.fails, failure]
        have hStored : (c.db.setRow changed).rows.get row.id = some changed :=
          hSame ▸ State.get_setRow_self (hSame ▸ hLocked.stored)
        have hSending : sending c.locks h.states row.id = some error := by
          rw [sending_of_lock hLock hState]
          simp [Phase.sends]
        rw [mail_of_answered hAnswer hState, hSending', hFailure, hDb, hStored]
        have hStep := Mail.Step.conclude (m := Delivering.mail (c, h) row.id) row changed error
          hLocked.stored hLocked.pending hSending hConcluded
        simpa [Delivering.mail, State.setRow, Working.succeeds, Working.loses] using hStep
      · have hSends : (if c.locks id = some sid then none else sending c.locks h.states id) =
            sending c.locks h.states id := by
          split_ifs with hMine
          · rw [sending_of_lock hMine hState]
            simp [Phase.sends, hId]
          · rfl
        rw [mail_same hAnswer hState _ _ (hSending'.trans hSends)]
        · exact .rest
        · simp [Working.succeeds]
        · cases error <;> simp [Working.fails, hId]
        · simp [Working.loses]
        · rw [hDb, State.get_setRow_other _ (by rw [hSame]; exact Ne.symm hId)]
        · rw [hDb]
          rfl

/-- A session that gives up its locks loses the attempt it has in progress. -/
theorem step_release (hState : h.states sid = some w) (hKnown : Knowledge w (c.held sid) c.db) :
    (Delivering.mail (c, h) id).Step
      { Delivering.mail (c, h) id with
        sending := if c.locks id = some sid then none else sending c.locks h.states id
        losses := h.losses.count id + if w.phase.unsaved = some id then 1 else 0 } := by
  cases hSends : w.phase.sends id with
  | none =>
      have hSaved : w.phase.unsaved ≠ some id := by
        intro hUnsaved
        obtain ⟨request, phase⟩ := w
        cases phase with
        | idle => cases hUnsaved
        | claimed row => cases hUnsaved
        | attempted row error =>
            cases error with
            | none =>
                obtain rfl : row.id = id := Option.some.inj hUnsaved
                simp [Phase.sends] at hSends
            | some error => cases hUnsaved
      have hSending : (if c.locks id = some sid then none else sending c.locks h.states id) =
          sending c.locks h.states id := by
        split_ifs with hMine
        · rw [sending_of_lock hMine hState, hSends]
        · rfl
      rw [hSending, if_neg hSaved]
      exact .rest
  | some error =>
      have hMine := lock_of_sends hKnown hSends
      have hSending : sending c.locks h.states id = some error := by
        rw [sending_of_lock hMine hState, hSends]
      obtain ⟨row, hPhase, rfl⟩ := sends_eq_some.mp hSends
      have hLoss : (if w.phase.unsaved = some row.id then 1 else 0) = success error := by
        rw [hPhase]
        cases error <;> simp [Phase.unsaved, success]
      rw [if_pos hMine, hLoss]
      exact .lose error hSending

/-- Every action is a step in the life of each mail. -/
theorem mail_step (hKnows : working.Knows WellFormed Knowledge h.states c)
    (hTurn : working.Turn h.states c c' a) (id : Nat) :
    (Delivering.mail (c, h) id).Step (Delivering.mail (c', h.record c a c') id) := by
  cases hTurn with
  | started sid request hIdle hDb hLocks =>
      have hSending : sending c'.locks
          (Function.update h.states sid (some (Working.begin request))) id =
            sending c.locks h.states id := by
        apply sending_congr (by rw [hLocks])
        intro other hOther
        apply Function.update_of_ne
        rintro rfl
        have hHeld : c.held other id = false := congrFun (hKnows.idle other hIdle) id
        exact absurd hOther (by simpa [Config.held] using hHeld)
      have hSame : Delivering.mail (c', h.record c (.start sid request) c') id =
          Delivering.mail (c, h) id := by
        simp [Delivering.mail, History.record, History.noted, History.lost, answered,
          Typestate.track, hSending, hDb]
      rw [hSame]
      exact .rest
  | told sid w answer p next hAnswer hSession hState hSessions hTold =>
      have hKnown := hKnows.holds sid p w hSession hState
      have hNever : none ≠ some id := (Option.some_ne_none id).symm
      cases hTold with
      | read note hDb hLocks =>
          rw [mail_same hAnswer hState (by rw [hDb]) (by rw [hDb])
            (sending_kept hLocks hState (by rw [working_after_read])) hNever hNever hNever]
          exact .rest
      | locked key hFree hDb hLocks =>
          rw [mail_same hAnswer hState (by rw [hDb]) (by rw [hDb])
            (sending_locked hState hKnown hFree hLocks) hNever hNever hNever]
          exact .rest
      | refused key hDb hLocks =>
          rw [mail_same hAnswer hState (by rw [hDb]) (by rw [hDb])
            (sending_kept hLocks hState (by rw [working_after_refused])) hNever hNever hNever]
          exact .rest
      | clock time hReadable hDb hLocks =>
          rw [mail_same hAnswer hState (by rw [hDb]) (by rw [hDb])
            (sending_kept hLocks hState (by rw [working_after_clock])) hNever hNever hNever]
          exact .rest
      | updated note write hMay hDb hLocks =>
          exact step_updated hAnswer hState hKnown hMay hDb hLocks
      | committed note write hMay hDb hLocks =>
          exact step_committed hAnswer hState hKnown hMay hDb hLocks
      | failed note hDb hLocks =>
          rw [mail_of_answered hAnswer hState, hDb,
            sending_release hLocks fun other hOther => Function.update_of_ne hOther _ _]
          exact step_release hState hKnown
  | closed sid hDb hLocks hSessions =>
      have hSending : sending c'.locks h.states id =
          if c.locks id = some sid then none else sending c.locks h.states id :=
        sending_release hLocks fun _ _ => rfl
      cases hSession : c.sessions sid with
      | none =>
          have hHeld : c.held sid id = false := congrFun (hKnows.idle sid hSession) id
          have hNotMine : c.locks id ≠ some sid := by simpa [Config.held] using hHeld
          have hSame : Delivering.mail (c', h.record c (.close sid) c') id =
              Delivering.mail (c, h) id := by
            simp [Delivering.mail, History.record, History.noted, History.lost, answered,
              Typestate.track, Typestate.hear, hSending, hDb, hSession, hNotMine]
          rw [hSame]
          exact .rest
      | some p =>
          obtain ⟨w, hState, _⟩ := hKnows.within sid p hSession
          have hLost : Delivering.mail (c', h.record c (.close sid) c') id =
              { Delivering.mail (c, h) id with
                sending := if c.locks id = some sid then none else sending c.locks h.states id
                losses := h.losses.count id + if w.phase.unsaved = some id then 1 else 0 } := by
            simp [Delivering.mail, History.record, History.noted, History.lost, answered,
              Typestate.track, Typestate.hear, hSending, hDb, hSession, hState,
              count_toList]
          rw [hLost]
          exact step_release hState (hKnows.holds sid p w hSession hState)

end Mail

theorem mail_initial (now : Time) (id : Nat) : (Delivering.initial now).mail id = .unused := by
  cases id <;> rfl

/-- What every step in the life of a mail keeps, a run keeps. -/
theorem mail_run {now : Time} {J : Mail → Prop} {s s' : Delivering} (id : Nat)
    (past : Reached (.initial now) s) (hStart : J (s.mail id))
    (hStep : ∀ {m m' : Mail}, J m → m.Step m' → J m') (run : Reached s s') : J (s'.mail id) := by
  have hWell : WellFormed (State.initial [] now) := .of_initial [] now
  have hPast := Typestate.Knows.run (V := History.states) (J := fun _ => True)
    (fun _ _ _ _ => rfl) outline handle_follows (fun _ _ _ _ => trivial) (.initial hWell) trivial past
  exact (Typestate.Knows.run (V := History.states) (J := fun s : Delivering => J (s.mail id))
    (fun _ _ _ _ => rfl) outline handle_follows
    (fun hKnows h hTurn _ => hStep h (mail_step hKnows hTurn id)) hPast.1 hStart run).2

/-- A stored row with a budget, as a state of a run has it. -/
structure Accounted (s : Delivering) (id : Nat) (row : EmailOutbox) : Prop where
  attempts : row.attempts = s.2.failures.count id
  withinBudget : row.attempts ≤ row.maxAttempts
  failed_iff : row.status = .failed ↔ row.attempts = row.maxAttempts
  sent : row.status = .sent → id ∈ s.2.succeeded
  duplicates : s.2.succeeded.count id ≤ 1 + s.2.losses.count id

/-- The row in a later state: a row that was sent or dead-lettered is as it was,
and no attempt has started for it since. -/
structure Moved (s s' : Delivering) (id : Nat) (row row' : EmailOutbox) : Prop where
  stored : s'.1.db.rows.get id = some row'
  budget : row'.maxAttempts = row.maxAttempts
  attempts : row.attempts ≤ row'.attempts
  absorbed : row.status ≠ .pending → row' = row
  noAttempt : row.status ≠ .pending →
    s'.1.db.started.countP (·.id = id) = s.1.db.started.countP (·.id = id)

/-- Over any number of workers, for every answer of the SMTP server and wherever
a worker crashes, is cancelled or fails to commit. -/
theorem outbox_deliveries {now : Time} {s s' : Delivering} (past : Reached (.initial now) s)
    (run : Reached s s') (id : Nat) (row : EmailOutbox) (hRow : s.1.db.rows.get id = some row)
    (hBudget : 1 ≤ row.maxAttempts) :
    Accounted s id row ∧ ∃ row', Moved s s' id row row' := by
  constructor
  · have hOrder : (s.mail id).InOrder := mail_run id .init
      (by rw [mail_initial]; exact .of_unused) (fun h hStep => h.step hStep) past
    refine ⟨hOrder.attempts row hRow, hOrder.attempts_le hRow hBudget,
      hOrder.failed_iff hRow hBudget, fun hSent => ?_, hOrder.succeeded_le hRow⟩
    exact List.count_pos_iff.mp (hOrder.succeeded_of_sent hRow hSent)
  · have hSince : (s.mail id).Since (s'.mail id) := mail_run id past (.refl _)
      (fun h hStep => h.trans (.of_step hStep)) run
    obtain ⟨row', hRow', hMax, hAttempts, hDone⟩ := hSince row hRow
    exact ⟨row', hRow', hMax, hAttempts, fun hStatus => (hDone hStatus).1,
      fun hStatus => (hDone hStatus).2⟩

def letterStored : List (Action outbox Request) :=
  [.start 1 (.enqueue "alice@example.org" "Hello" "<p>Hello</p>" defaultMaxAttempts),
    .clock 1 0, .clock 1 0, .step 1]

def delivered (_ : Nat) : Option String := none

/-- Session 2 selects the mail, claims it and sends it. -/
def letterSent (sid : Nat) : List (Action outbox Request) :=
  [.start sid (.tick delivered), .clock sid 0, .step sid, .step sid, .clock sid 0, .step sid,
    .clock sid 0]

/-- A worker crashes before it commits the mail it has sent, and another one
sends it again. -/
theorem outbox_deliveries_letter : ∃ s : Delivering,
    (s.2.succeeded = [1, 1] ∧ s.2.losses = [1]) ∧ ∃ row, Accounted s 1 row := by
  obtain ⟨s, run, hCounts, hStored⟩ := Runs.exists_reaches deliver (fun _ _ => True)
    (.initial 0) (letterStored ++ letterSent 2 ++ [.close 2] ++ letterSent 3 ++ [.step 3])
    (fun s => (s.2.succeeded = [1, 1] ∧ s.2.losses = [1]) ∧
      (s.1.db.rows.get 1).any (fun row => 1 ≤ row.maxAttempts) = true) (by decide +kernel)
  obtain ⟨row, hRow, hBudget⟩ := (Option.any_eq_true _ _).mp hStored
  exact ⟨s, hCounts, row, (outbox_deliveries run .init 1 row hRow (of_decide_eq_true hBudget)).1⟩

end OnlineAuction.Outbox
