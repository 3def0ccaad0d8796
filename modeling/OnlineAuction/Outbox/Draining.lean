import Mathlib.Algebra.Order.BigOperators.Group.Finset
import OnlineAuction.Library.Alone
import OnlineAuction.Outbox.Deliveries

/-! No mail is stuck. Whatever state the workers have left the table in, one worker
that ticks often enough settles every row, whatever the SMTP server answers. -/

namespace OnlineAuction.Outbox

open RowLocks

variable {smtp : Nat → Option String} {d d' : State} {now : Time} {row : EmailOutbox}

/-- What a tick makes of a pending row, all of whose readings of the clock show `now`. -/
def outcome (smtp : Nat → Option String) (now : Time) (row : EmailOutbox) : EmailOutbox :=
  match smtp row.id with
  | some error =>
      let row := { row with attempts := row.attempts + 1, lastError := some error }
      if row.maxAttempts ≤ row.attempts then { row with status := .failed }
      else { row with nextAttemptAt := now + backoffForAttempt row.attempts }
  | none => { row with status := .sent, sentAt := some now }

/-- The attempts that a row may still take to settle, at least one while it is pending. -/
def EmailOutbox.remaining (row : EmailOutbox) : Nat :=
  if row.status = .pending then max (row.maxAttempts - row.attempts) 1 else 0

theorem outcome_id (smtp : Nat → Option String) (now : Time) (row : EmailOutbox) :
    (outcome smtp now row).id = row.id := by
  unfold outcome
  cases smtp row.id with
  | none => rfl
  | some error =>
      dsimp only
      split_ifs <;> rfl

/-- Every attempt uses one up. -/
theorem remaining_outcome (hPending : row.status = .pending) :
    (outcome smtp now row).remaining < row.remaining := by
  unfold outcome
  cases smtp row.id with
  | none => simp [EmailOutbox.remaining, hPending]
  | some error =>
      dsimp only
      split_ifs with hLast
      · simp [EmailOutbox.remaining, hPending]
      · simp only [EmailOutbox.remaining, hPending, if_true]
        omega

/-- A letter that the server takes is sent. -/
theorem sent_outcome (hSent : smtp row.id = none) : (outcome smtp now row).status = .sent := by
  simp [outcome, hSent]

theorem backoffForAttempt_le : ∀ attempts, backoffForAttempt attempts ≤ backoffMax
  | 0 | 1 | 2 | 3 | 4 | 5 => by decide
  | n + 6 => by simp [backoffForAttempt, backoffByAttempt, List.lookup_cons]

/-- A letter that is put off is due again within the greatest backoff. -/
theorem nextAttemptAt_outcome (hPending : (outcome smtp now row).status = .pending) :
    row.status = .pending → (outcome smtp now row).nextAttemptAt ≤ now + backoffMax := by
  intro hRow
  unfold outcome at hPending ⊢
  cases hSmtp : smtp row.id with
  | none => simp [hSmtp] at hPending
  | some error =>
      simp only [hSmtp] at hPending ⊢
      split_ifs at hPending ⊢
      exact add_le_add_right (backoffForAttempt_le _) now

/-- What becomes of a row: once sent or dead-lettered it stays as it is, and its letter
never changes. Where every attempt succeeds it is not dead-lettered. -/
structure Advanced (succeeding : Prop) (row row' : EmailOutbox) : Prop where
  final : row.status ≠ .pending → row' = row
  letter : row'.toEmail = row.toEmail ∧ row'.subject = row.subject ∧ row'.htmlBody = row.htmlBody
  sent : succeeding → row.status = .pending → row'.status = .pending ∨ row'.status = .sent

theorem Advanced.refl (succeeding : Prop) (row : EmailOutbox) : Advanced succeeding row row :=
  ⟨fun _ => rfl, ⟨rfl, rfl, rfl⟩, fun _ hPending => .inl hPending⟩

theorem Advanced.trans {succeeding : Prop} {row' row'' : EmailOutbox}
    (h : Advanced succeeding row row') (h' : Advanced succeeding row' row'') :
    Advanced succeeding row row'' where
  final hSettled := by
    have hSame := h.final hSettled
    rw [h'.final (hSame ▸ hSettled), hSame]
  letter := ⟨h'.letter.1.trans h.letter.1, h'.letter.2.1.trans h.letter.2.1,
    h'.letter.2.2.trans h.letter.2.2⟩
  sent hSucceeding hPending := by
    rcases h.sent hSucceeding hPending with hStill | hSent
    · exact h'.sent hSucceeding hStill
    · rw [h'.final (by simp [hSent])]
      exact .inr hSent

/-- An attempt advances its row. -/
theorem Advanced.outcome {succeeding : Prop} (hSmtp : succeeding → ∀ id, smtp id = none)
    (hPending : row.status = .pending) : Advanced succeeding row (outcome smtp now row) where
  final hSettled := absurd hPending hSettled
  letter := by
    unfold Outbox.outcome
    cases smtp row.id with
    | none => exact ⟨rfl, rfl, rfl⟩
    | some error =>
        dsimp only
        split_ifs <;> exact ⟨rfl, rfl, rfl⟩
  sent hSucceeding _ := .inr (sent_outcome (hSmtp hSucceeding _))

theorem alone_utcnow (held : Held outbox) (hNow : d.now ≤ now) :
    utcnow.alone now held d = some (now, held, { d with now := now }) := by
  simp [utcnow, Prog.alone, hNow]

/-- One attempt, run alone: its outcome is stored. -/
theorem alone_processOne (smtp : Nat → Option String) (row : EmailOutbox) (held : Held outbox)
    (hNow : d.now ≤ now) :
    ∃ d', (processOne smtp row).alone now held d = some (outcome smtp now row, held, d') ∧
      d'.rows = d.rows ∧ d'.now = now := by
  set attempted := State.recordAttempt { d with now := now } ⟨row.id, row.nextAttemptAt, now⟩
  have hSend : (sendEmailNotification smtp row).alone now held d =
      some (smtp row.id, held, attempted) := by
    unfold sendEmailNotification
    rw [Prog.alone_bind, alone_utcnow held hNow]
    rfl
  refine ⟨attempted, ?_, rfl, rfl⟩
  unfold processOne
  rw [Prog.alone_bind, hSend, Option.bind_some]
  dsimp only
  have hClock := alone_utcnow (d := attempted) held (le_refl now)
  cases hSmtp : smtp row.id with
  | none =>
      dsimp only
      rw [Prog.alone_bind, hClock]
      simp only [outcome, hSmtp]
      rfl
  | some error =>
      simp only [outcome, hSmtp]
      split_ifs
      · rfl
      · rw [Prog.alone_bind, hClock]
        rfl

/-- The pending rows under these numbers are settled or rescheduled. -/
structure Ticked (smtp : Nat → Option String) (time : Time) (ids : List Nat) (d d' : State) :
    Prop where
  now : d'.now ≤ time
  serial : d'.rows.serial = d.rows.serial
  rows : ∀ id, d'.rows.get id = (d.rows.get id).map fun row =>
    if id ∈ ids ∧ row.status = .pending then outcome smtp time row else row

theorem Ticked.wellFormed {ids : List Nat} (h : Ticked smtp now ids d d') (hWell : WellFormed d) :
    WellFormed d' := by
  intro id row hRow
  rw [h.rows] at hRow
  obtain ⟨old, hOld, rfl⟩ := Option.map_eq_some_iff.mp hRow
  split_ifs
  · rw [outcome_id]
    exact hWell id old hOld
  · exact hWell id old hOld

/-- Claiming, run alone: the row is held when it is still pending. -/
theorem alone_claim (held : Held outbox) (candidate : EmailOutbox) :
    (claim candidate).alone now held d = some
      ((d.rows.get candidate.id).filter fun row => row.status = .pending,
        held.grant d candidate.id, d) := rfl

/-- The candidates of a tick, run alone, by induction on the list. -/
theorem alone_processEach (smtp : Nat → Option String) (hWell : WellFormed d) (hNow : d.now ≤ now)
    (held : Held outbox) (processed : Nat) {candidates : List EmailOutbox}
    (hDistinct : (candidates.map (·.id)).Nodup) :
    ∃ processed' held' d', (processEach smtp candidates processed).alone now held d =
      some (processed', held', d') ∧ Ticked smtp now (candidates.map (·.id)) d d' := by
  induction candidates generalizing d held processed with
  | nil =>
      refine ⟨processed, held, d, rfl, hNow, rfl, fun id => ?_⟩
      simp
  | cons candidate rest ih =>
      obtain ⟨hFresh, hRest⟩ := List.nodup_cons.mp hDistinct
      rw [processEach, Prog.alone_bind, alone_claim, Option.bind_some]
      dsimp only
      cases hClaimed : (d.rows.get candidate.id).filter fun row => row.status = .pending with
      | none =>
          obtain ⟨processed', held', d', hEnds, hTicked⟩ := ih hWell hNow _ processed hRest
          refine ⟨processed', held', d', hEnds, hTicked.now, hTicked.serial, fun id => ?_⟩
          rw [hTicked.rows]
          apply Option.map_congr
          intro row hRow
          by_cases hId : id = candidate.id
          · have hSettled : row.status ≠ .pending := by
              rw [← hId, Option.mem_def.mp hRow] at hClaimed
              simpa [Option.filter] using hClaimed
            simp [hSettled]
          · simp [hId]
      | some row =>
          obtain ⟨hStored, hPending⟩ := Option.filter_eq_some_iff.mp hClaimed
          have hId : row.id = candidate.id := hWell _ _ hStored
          obtain ⟨d₁, hProcess, hRows, hClock⟩ := alone_processOne smtp row
            (held.grant d candidate.id) hNow
          have hStored₁ : d₁.rows.get row.id = some row := by rw [hRows, hId, hStored]
          have hFlush : d₁.flushRow row (outcome smtp now row) = d₁.setRow (outcome smtp now row) :=
            State.flushRow_eq hStored₁ (outcome_id smtp now row)
          have hWell₁ : WellFormed d₁ := fun id row hRow => hWell id row (hRows ▸ hRow)
          have hReplaced : d₁.rows.get (outcome smtp now row).id = some row := by
            rw [outcome_id, hStored₁]
          have hWell₂ := hWell₁.setRow hReplaced
          obtain ⟨processed', held', d', hEnds, hTicked⟩ :=
            ih hWell₂ (hClock.le : (d₁.setRow _).now ≤ now) Held.none (processed + 1) hRest
          refine ⟨processed', held', d', ?_, hTicked.now, ?_, fun id => ?_⟩
          · dsimp only
            rw [Prog.alone_bind, hProcess, Option.bind_some]
            dsimp only
            rw [← hFlush] at hEnds
            exact hEnds
          · rw [hTicked.serial, ← hRows]
            rfl
          · rw [hTicked.rows]
            by_cases hSame : id = candidate.id
            · subst hSame
              have hSet := State.get_setRow_self hReplaced
              rw [outcome_id, hId] at hSet
              rw [hSet, hStored, Option.map_some, Option.map_some]
              simp [hFresh, of_decide_eq_true hPending]
            · have hOther : id ≠ (outcome smtp now row).id := by rwa [outcome_id, hId]
              rw [State.get_setRow_other _ hOther, hRows]
              simp [hSame]

theorem State.get_of_mem_candidates (hWell : WellFormed d) (h : row ∈ d.candidates now) :
    d.rows.get row.id = some row ∧ row.status = .pending := by
  obtain ⟨hMem, hSelected⟩ := List.mem_filter.mp
    ((List.perm_insertionSort _ _).subset (List.mem_of_mem_take h))
  obtain ⟨id, _, hRow⟩ := List.mem_filterMap.mp hMem
  exact ⟨hWell id row hRow ▸ hRow, (of_decide_eq_true hSelected).1⟩

theorem State.nodup_rows (hWell : WellFormed d) :
    ((List.range d.rows.serial).filterMap d.rows.get).Nodup := by
  apply List.nodup_range.filterMap
  intro id id' row hRow hRow'
  exact (hWell id row hRow).symm.trans (hWell id' row hRow')

/-- No row is a candidate twice. -/
theorem State.nodup_candidates (hWell : WellFormed d) (now : Time) :
    ((d.candidates now).map (·.id)).Nodup := by
  have hSorted := ((List.perm_insertionSort (fun a b => a.createdAt ≤ b.createdAt) _).nodup_iff).mpr
    ((State.nodup_rows hWell).filter fun row => row.status = .pending ∧ row.nextAttemptAt ≤ now)
  apply List.Nodup.map_on _ (hSorted.sublist (List.take_sublist workerBatchSize _))
  intro row (hRow : row ∈ d.candidates now) row' (hRow' : row' ∈ d.candidates now) hSame
  have hGet := (State.get_of_mem_candidates hWell hRow).1
  rw [hSame, (State.get_of_mem_candidates hWell hRow').1] at hGet
  exact (Option.some.inj hGet).symm

/-- What is pending and due makes a batch. -/
theorem State.candidates_ne_nil {id : Nat} (hRow : d.rows.get id = some row)
    (hPending : row.status = .pending) (hDue : row.nextAttemptAt ≤ now) :
    d.candidates now ≠ [] := by
  have hMem : row ∈ ((List.range d.rows.serial).filterMap d.rows.get).filter fun row =>
      row.status = .pending ∧ row.nextAttemptAt ≤ now := by
    refine List.mem_filter.mpr ⟨List.mem_filterMap.mpr ⟨id, ?_, hRow⟩, decide_eq_true ⟨hPending, hDue⟩⟩
    exact List.mem_range.mpr (Table.lt_serial hRow)
  have hSorted := (List.perm_insertionSort (fun a b => a.createdAt ≤ b.createdAt) _).symm.subset hMem
  rw [State.candidates, ne_eq, List.take_eq_nil_iff]
  rintro (hZero | hNil)
  · cases hZero
  · rw [hNil] at hSorted
    cases hSorted

/-- A tick, run alone, attempts every candidate once. -/
theorem alone_runOneTick (smtp : Nat → Option String) (hWell : WellFormed d) (hNow : d.now ≤ now)
    (held : Held outbox) : ∃ processed held' d',
      (runOneTick smtp).alone now held d = some (processed, held', d') ∧
        Ticked smtp now ((d.candidates now).map (·.id)) d d' := by
  obtain ⟨processed, held', d', hEnds, hTicked⟩ := alone_processEach smtp
    (d := { d with now := now }) hWell le_rfl held 0 (State.nodup_candidates hWell now)
  refine ⟨processed, held', d', ?_, hTicked.now, hTicked.serial, hTicked.rows⟩
  unfold runOneTick
  rw [Prog.alone_bind, alone_utcnow held hNow]
  exact hEnds

def State.remaining (d : State) : Nat :=
  ∑ id ∈ Finset.range d.rows.serial, ((d.rows.get id).map EmailOutbox.remaining).getD 0

structure DueBy (d : State) (time : Time) : Prop where
  now : d.now ≤ time
  rows : ∀ id row, d.rows.get id = some row → row.status = .pending → row.nextAttemptAt ≤ time

/-- After a tick what is pending is due within the greatest backoff. -/
theorem Ticked.dueBy {ids : List Nat} (h : Ticked smtp now ids d d') (hDue : DueBy d now) :
    DueBy d' (now + backoffMax) := by
  have hBackoff : (0 : Time) ≤ backoffMax := by decide
  have hLater : now ≤ now + backoffMax := le_add_of_nonneg_right hBackoff
  refine ⟨h.now.trans hLater, fun id new hNew hPending => ?_⟩
  rw [h.rows] at hNew
  obtain ⟨old, hOld, rfl⟩ := Option.map_eq_some_iff.mp hNew
  split_ifs at hPending ⊢ with hTried
  · exact nextAttemptAt_outcome hPending hTried.2
  · exact (hDue.rows id old hOld hPending).trans hLater

theorem EmailOutbox.remaining_eq_zero : row.remaining = 0 ↔ row.status ≠ .pending := by
  unfold EmailOutbox.remaining
  split_ifs with hPending
  · simp [hPending]
  · simp [hPending]

/-- No attempts are left exactly when nothing is pending. -/
theorem State.remaining_eq_zero :
    d.remaining = 0 ↔ ∀ id row, d.rows.get id = some row → row.status ≠ .pending := by
  unfold State.remaining
  rw [Finset.sum_eq_zero_iff]
  constructor
  · intro h id row hRow
    have hZero := h id (Finset.mem_range.mpr (Table.lt_serial hRow))
    rw [hRow, Option.map_some, Option.getD_some] at hZero
    exact EmailOutbox.remaining_eq_zero.mp hZero
  · intro h id _
    cases hRow : d.rows.get id with
    | none => rfl
    | some row => exact EmailOutbox.remaining_eq_zero.mpr (h id row hRow)

section Ticked

variable {ids : List Nat} (h : Ticked smtp now ids d d')

include h

/-- No row may take more attempts than before. -/
theorem Ticked.value_le (id : Nat) :
    ((d'.rows.get id).map EmailOutbox.remaining).getD 0 ≤
      ((d.rows.get id).map EmailOutbox.remaining).getD 0 := by
  rw [h.rows]
  cases d.rows.get id with
  | none => exact le_rfl
  | some old =>
      simp only [Option.map_some, Option.getD_some]
      split_ifs with hTried
      · exact (remaining_outcome hTried.2).le
      · exact le_rfl

/-- A tick gives back no attempts. -/
theorem Ticked.remaining_le : d'.remaining ≤ d.remaining := by
  unfold State.remaining
  rw [h.serial]
  exact Finset.sum_le_sum fun id _ => h.value_le id

/-- A tick that finds a row takes an attempt. -/
theorem Ticked.remaining_lt {id : Nat} (hId : id ∈ ids) (hRow : d.rows.get id = some row)
    (hPending : row.status = .pending) : d'.remaining < d.remaining := by
  unfold State.remaining
  rw [h.serial]
  apply Finset.sum_lt_sum fun other _ => h.value_le other
  refine ⟨id, Finset.mem_range.mpr (Table.lt_serial hRow), ?_⟩
  rw [h.rows, hRow]
  simpa [hId, hPending] using remaining_outcome hPending

/-- A tick advances every row. -/
theorem Ticked.advanced {succeeding : Prop} (hSmtp : succeeding → ∀ id, smtp id = none) {id : Nat}
    (hRow : d.rows.get id = some row) :
    ∃ row', d'.rows.get id = some row' ∧ Advanced succeeding row row' := by
  rw [h.rows, hRow]
  refine ⟨_, rfl, ?_⟩
  dsimp only
  split_ifs with hTried
  · exact .outcome hSmtp hTried.2
  · exact .refl succeeding row

end Ticked

/-- Ticks of one worker, one after the other: the answers of the SMTP server and the
time of each. -/
abbrev Ticks := List ((Nat → Option String) × Time)

/-- Each tick comes when every row is due again. -/
def Spaced : Time → Ticks → Prop
  | _, [] => True
  | earliest, (_, time) :: rest => earliest ≤ time ∧ Spaced (time + backoffMax) rest

def drain (d : State) : Ticks → Option State
  | [] => some d
  | (smtp, time) :: rest =>
      ((handle (.tick smtp)).alone time Held.none d).bind fun (_, _, d') => drain d' rest

def Settled (succeeding : Prop) (d d' : State) : Prop :=
  ∀ id row, d.rows.get id = some row → ∃ row', d'.rows.get id = some row' ∧
    row'.status ≠ .pending ∧ Advanced succeeding row row'

theorem alone_tick (smtp : Nat → Option String) (hWell : WellFormed d) (hNow : d.now ≤ now) :
    ∃ held' d', (handle (.tick smtp)).alone now Held.none d = some ((), held', d') ∧
      Ticked smtp now ((d.candidates now).map (·.id)) d d' := by
  obtain ⟨processed, held', d', hEnds, hTicked⟩ := alone_runOneTick smtp hWell hNow Held.none
  refine ⟨held', d', ?_, hTicked⟩
  show (runOneTick smtp >>= fun _ => pure ()).alone now Held.none d = _
  rw [Prog.alone_bind, hEnds]
  rfl

/-- As many ticks as there are attempts left settle the store, by induction on
the ticks. -/
theorem settled_drain {succeeding : Prop} (hWell : WellFormed d) {earliest : Time}
    (hDue : DueBy d earliest) {ticks : Ticks} (hSpaced : Spaced earliest ticks)
    (hEnough : d.remaining ≤ ticks.length)
    (hSmtp : succeeding → ∀ tick ∈ ticks, ∀ id, tick.1 id = none) :
    ∃ d', drain d ticks = some d' ∧ Settled succeeding d d' := by
  induction ticks generalizing d earliest with
  | nil =>
      refine ⟨d, rfl, fun id row hRow => ⟨row, hRow, ?_, .refl succeeding row⟩⟩
      exact State.remaining_eq_zero.mp (Nat.le_zero.mp hEnough) id row hRow
  | cons tick rest ih =>
      obtain ⟨smtp, time⟩ := tick
      obtain ⟨hEarliest, hLater⟩ := hSpaced
      have hDue : DueBy d time := ⟨hDue.now.trans hEarliest, fun id row hRow hPending =>
        (hDue.rows id row hRow hPending).trans hEarliest⟩
      obtain ⟨held', d₁, hEnds, hTicked⟩ := alone_tick smtp hWell hDue.now
      have hFewer : d₁.remaining ≤ rest.length := by
        by_cases hNone : d.remaining = 0
        · have := hTicked.remaining_le
          omega
        · rw [State.remaining_eq_zero] at hNone
          simp only [not_forall, ne_eq, not_not] at hNone
          obtain ⟨id, row, hRow, hPending⟩ := hNone
          obtain ⟨candidate, hMem⟩ := List.exists_mem_of_ne_nil _
            (State.candidates_ne_nil hRow hPending (hDue.rows id row hRow hPending))
          obtain ⟨hStored, hStatus⟩ := State.get_of_mem_candidates hWell hMem
          have := hTicked.remaining_lt (List.mem_map_of_mem hMem) hStored hStatus
          rw [List.length_cons] at hEnough
          omega
      obtain ⟨d', hDrain, hSettled⟩ := ih (hTicked.wellFormed hWell) (hTicked.dueBy hDue) hLater hFewer
        fun hAll tick hTick => hSmtp hAll tick (List.mem_cons_of_mem _ hTick)
      refine ⟨d', ?_, fun id row hRow => ?_⟩
      · rw [drain, hEnds]
        exact hDrain
      · obtain ⟨row₁, hRow₁, hFirst⟩ := hTicked.advanced
          (fun hAll => hSmtp hAll (smtp, time) List.mem_cons_self) hRow
        obtain ⟨row', hRow', hFinal, hRest⟩ := hSettled id row₁ hRow₁
        exact ⟨row', hRow', hFinal, hFirst.trans hRest⟩

/-- A worker that is served alone, also among other programs, makes of the store what
the ticks make of it. -/
theorem continues_drain {Req : Type} {program : Req → Prog outbox Unit} (worker : Request → Req)
    (hWorker : ∀ request, program (worker request) = handle request) {c : Config outbox} {sid : Nat}
    (hIdle : c.sessions sid = none) (hUnlocked : ∀ key, c.locks key = none) {ticks : Ticks}
    (hDrain : drain c.db ticks = some d') : ∃ c', Continues program c c' ∧ c'.db = d' := by
  induction ticks generalizing c with
  | nil => exact ⟨c, .init, Option.some.inj hDrain⟩
  | cons tick rest ih =>
      obtain ⟨⟨_, held', d₁⟩, hEnds, hRest⟩ := Option.bind_eq_some_iff.mp hDrain
      rw [← hWorker] at hEnds
      obtain ⟨c₁, run, hDb, hSessions, hUnlocked₁⟩ := serves_alone hIdle hUnlocked hEnds
      obtain ⟨c', rest, hEnd⟩ := ih (hSessions ▸ hIdle) hUnlocked₁ (hDb ▸ hRest)
      exact ⟨c', run.trans rest, hEnd⟩

theorem wellFormed_of_reaches {rows : List EmailOutbox} {c : Config outbox}
    (run : Reaches handle (fun _ _ _ => True) (State.initial rows now) c) : WellFormed c.db := by
  suffices ∃ states, working.Knows WellFormed Knowledge states c from this.choose_spec.inv
  induction run with
  | init => exact ⟨fun _ => none, .initial (.of_initial rows now)⟩
  | next _ a moves _ ih =>
      obtain ⟨states, hKnows⟩ := ih
      exact ⟨_, (hKnows.turn outline handle_follows moves).2⟩

/-- From any state of any number of workers in which nobody holds a lock, as when the
others have crashed: one worker settles every row with as many ticks as the rows may
still take attempts, whatever the SMTP server answers, if each tick comes when the rows
are due again. If the server takes every mail, each pending one is sent. -/
theorem outbox_drains {rows : List EmailOutbox} {c : Config outbox}
    (run : Reaches handle (fun _ _ _ => True) (State.initial rows now) c) {sid : Nat}
    (hIdle : c.sessions sid = none) (hUnlocked : ∀ key, c.locks key = none) {earliest : Time}
    (hDue : DueBy c.db earliest) (ticks : Ticks) (hSpaced : Spaced earliest ticks)
    (hEnough : c.db.remaining ≤ ticks.length) :
    ∃ d', drain c.db ticks = some d' ∧ (∃ c', Continues handle c c' ∧ c'.db = d') ∧
      Settled (∀ tick ∈ ticks, ∀ id, tick.1 id = none) c.db d' := by
  obtain ⟨d', hDrain, hSettled⟩ :=
    settled_drain (wellFormed_of_reaches run) hDue hSpaced hEnough fun hAll => hAll
  exact ⟨d', hDrain, continues_drain id (fun _ => rfl) hIdle hUnlocked hDrain, hSettled⟩

/-- The server takes no mail for half a day. -/
def afterAnOutage : Ticks :=
  [(refused, 0), (refused, hours 6), (refused, hours 12), (delivered, hours 18),
    (delivered, hours 24)]

theorem outbox_drains_letter : ∃ d', drain (State.initial [letter] 0) afterAnOutage = some d' ∧
    ∃ row', d'.rows.get 1 = some row' ∧ row'.status ≠ .pending := by
  have hDue : DueBy (State.initial [letter] 0) 0 := by
    refine ⟨le_rfl, fun id row hRow _ => ?_⟩
    match id, hRow with
    | 1, hRow => exact (Option.some.inj hRow) ▸ le_rfl
  let c : Config outbox := .initial (State.initial [letter] 0)
  have hIdle : c.sessions 1 = none := rfl
  obtain ⟨d', hDrain, _, hSettled⟩ := outbox_drains (c := c) .init hIdle (fun _ => rfl) hDue
    afterAnOutage
    ⟨by decide, by decide, by decide, by decide, by decide, trivial⟩ (by decide +kernel)
  obtain ⟨row', hRow', hFinal, _⟩ := hSettled 1 letter rfl
  exact ⟨d', hDrain, row', hRow', hFinal⟩

end OnlineAuction.Outbox
