import OnlineAuction.Outbox.Draining

/-! `scripts/inspect_outbox.py`, which puts dead-lettered rows back in the queue while the
workers run, and what it does after an outage of the SMTP server. -/

namespace OnlineAuction.Outbox

open RowLocks

variable {d d' : State} {now : Time} {row : EmailOutbox} {id : Nat}

/-- `_retry_one`, with its exit status. The row is not locked between its two
statements. -/
def retryOne (outboxId : Nat) : Prog outbox Nat := do
  match ← .read none fun d => .pure (d.rows.get outboxId) with
  | none => pure 1
  | some row =>
      if row.status ≠ .failed then pure 1
      else do
        let now ← utcnow
        let changed := { row with
          status := .pending, attempts := 0, lastError := none, nextAttemptAt := now }
        .commit none (State.flushRow · row changed) fun done => do
          let _ ← Prog.orRaise done internalServerError
          pure 0

def EmailOutbox.retry (row : EmailOutbox) (now : Time) : EmailOutbox :=
  if row.status = .failed then
    { row with status := .pending, attempts := 0, lastError := none, nextAttemptAt := now }
  else row

/-- The `UPDATE` of `_retry_all`. -/
def State.retryFailed (d : State) (now : Time) : State :=
  { d with rows := d.rows.mapRows fun _ row => row.retry now }

/-- `_retry_all`, with its exit status. -/
def retryAll : Prog outbox Nat := do
  let now ← utcnow
  .commit none (State.retryFailed · now) fun done => do
    let _ ← Prog.orRaise done internalServerError
    pure 0

inductive Command where
  | worker (request : Request)
  | retryOne (outboxId : Nat)
  | retryAll

def operate : Command → Prog outbox Unit
  | .worker request => handle request
  | .retryOne outboxId => do let _ ← retryOne outboxId
  | .retryAll => do let _ ← retryAll

def EmailOutbox.letter (row : EmailOutbox) : String × String × String :=
  (row.toEmail, row.subject, row.htmlBody)

/-- Every row is stored under its number, and says what it said at first. -/
structure Genuine (d : State) : Prop where
  wellFormed : WellFormed d
  letter : ∀ id row, d.rows.get id = some row →
    ∃ first, d.origin id = some first ∧ row.letter = first.letter

theorem letter_flush {loaded changed : EmailOutbox} (h : changed.letter = loaded.letter)
    (row : EmailOutbox) : (EmailOutbox.flush loaded changed row).letter = row.letter := by
  simp only [EmailOutbox.letter, Prod.mk.injEq] at h
  simp [EmailOutbox.letter, EmailOutbox.flush, column, h]

theorem letter_retry (row : EmailOutbox) (now : Time) : (row.retry now).letter = row.letter := by
  unfold EmailOutbox.retry
  split_ifs <;> rfl

theorem id_retry (row : EmailOutbox) (now : Time) : (row.retry now).id = row.id := by
  unfold EmailOutbox.retry
  split_ifs <;> rfl

namespace Genuine

theorem of_initial (rows : List EmailOutbox) (now : Time) : Genuine (State.initial rows now) :=
  ⟨.of_initial rows now, fun _ row hRow => ⟨row, hRow, rfl⟩⟩

/-- An update of some rows that leaves their numbers and their letters. -/
theorem mapRows (h : Genuine d) {f : Nat → EmailOutbox → EmailOutbox}
    (hId : ∀ id row, (f id row).id = row.id) (hLetter : ∀ id row, (f id row).letter = row.letter) :
    Genuine { d with rows := d.rows.mapRows f } where
  wellFormed id row hRow := by
    obtain ⟨old, hOld, rfl⟩ := Option.map_eq_some_iff.mp hRow
    rw [hId]
    exact h.wellFormed id old hOld
  letter id row hRow := by
    obtain ⟨old, hOld, rfl⟩ := Option.map_eq_some_iff.mp hRow
    obtain ⟨first, hFirst, hSame⟩ := h.letter id old hOld
    exact ⟨first, hFirst, (hLetter id old).trans hSame⟩

/-- An update that keeps the letter keeps the letters. -/
theorem flushRow (h : Genuine d) {loaded changed : EmailOutbox}
    (hLetter : changed.letter = loaded.letter) : Genuine (d.flushRow loaded changed) := by
  apply h.mapRows
  · intro id row
    split_ifs <;> rfl
  · intro id row
    split_ifs
    · exact letter_flush hLetter row
    · rfl

/-- The operator's command keeps the letters. -/
theorem retryFailed (h : Genuine d) (now : Time) : Genuine (d.retryFailed now) :=
  h.mapRows (fun _ row => id_retry row now) fun _ row => letter_retry row now

theorem add (h : Genuine d) {new : Nat → EmailOutbox} (hId : ∀ id, (new id).id = id) :
    Genuine (d.add new) where
  wellFormed := h.wellFormed.add (hId _)
  letter id row hRow := by
    simp only [State.add, Table.get_add] at hRow ⊢
    split_ifs at hRow with hNew
    · subst hNew
      obtain rfl := Option.some.inj hRow
      exact ⟨_, Function.update_self .., rfl⟩
    · rw [Function.update_of_ne hNew]
      exact h.letter id row hRow

end Genuine

def genuine : Discipline outbox where
  ok _ _ _ := True
  inv := Genuine
  may _ _ d' := Genuine d'
  inv_may _ h := h
  may_observe h _ _ := ⟨h.wellFormed, h.letter⟩

section Contracts

variable {held : Held outbox}

theorem genuine_reading {post : Time → Held outbox → State → Prop}
    (hPost : ∀ d' t, post t held d') : genuine.wp utcnow held post d :=
  fun _ t _ _ _ _ => hPost _ t

/-- A commit that keeps the letters, whatever comes next. -/
theorem genuine_commit {α : Type} {write : State → State} {next : Option State → Prog outbox α}
    {post : α → Held outbox → State → Prop} (hWrite : ∀ d', Genuine d' → Genuine (write d'))
    (hNext : ∀ done d', genuine.wp (next done) Held.none post d') :
    genuine.wp (.commit none write next) held post d :=
  fun d' _ hInv => ⟨fun _ => ⟨hWrite d' hInv, hNext _ _⟩, hNext _ _⟩

/-- An attempt keeps the letter of its row. -/
theorem genuine_processOne (smtp : Nat → Option String) (row : EmailOutbox)
    {post : EmailOutbox → Held outbox → State → Prop}
    (hPost : ∀ changed d', changed.letter = row.letter → post changed held d') :
    genuine.wp (processOne smtp row) held post d := by
  unfold processOne sendEmailNotification
  rw [Discipline.wp_bind, Discipline.wp_bind]
  apply genuine_reading
  intro d₁ start d₂ _ hInv₂ _
  refine ⟨⟨hInv₂.wellFormed, hInv₂.letter⟩, ?_⟩
  rw [Discipline.wp_pure]
  cases smtp row.id with
  | none =>
      dsimp only
      rw [Discipline.wp_bind]
      apply genuine_reading
      exact fun d₃ now => hPost _ d₃ rfl
  | some error =>
      dsimp only
      split_ifs
      · exact hPost _ _ rfl
      · rw [Discipline.wp_bind]
        apply genuine_reading
        exact fun d₃ now => hPost _ d₃ rfl

theorem genuine_processEach (smtp : Nat → Option String) (candidates : List EmailOutbox) (processed : Nat) :
    genuine.wp (processEach smtp candidates processed) held (fun _ _ _ => True) d := by
  induction candidates generalizing held d processed with
  | nil => trivial
  | cons candidate rest ih =>
      unfold processEach
      rw [Discipline.wp_bind]
      intro d₁ _ _
      refine ⟨fun _ => ih processed, fun _ => ?_⟩
      show genuine.wp (match (d₁.rows.get candidate.id).filter fun row => row.status = .pending with
        | none => _
        | some row => _) _ _ _
      cases (d₁.rows.get candidate.id).filter fun row => row.status = .pending with
      | none => exact ih processed
      | some row =>
          dsimp only
          rw [Discipline.wp_bind]
          apply genuine_processOne
          intro changed d₂ hLetter
          exact genuine_commit (fun d' h => h.flushRow hLetter) fun done d' => ih _

theorem operate_safe (command : Command) : genuine.Safe (operate command) Held.none d := by
  unfold Discipline.Safe
  cases command with
  | worker request =>
      cases request with
      | enqueue toEmail subject htmlBody maxAttempts =>
          show genuine.wp (enqueueEmail toEmail subject htmlBody maxAttempts) _ _ d
          unfold enqueueEmail
          rw [Discipline.wp_bind]
          apply genuine_reading
          intro d₁ _
          rw [Discipline.wp_bind]
          apply genuine_reading
          intro d₂ _
          exact genuine_commit (fun d' h => h.add fun _ => rfl) fun _ _ => trivial
      | tick smtp =>
          show genuine.wp (runOneTick smtp >>= fun _ => pure ()) _ _ d
          unfold runOneTick
          rw [Discipline.wp_bind, Discipline.wp_bind]
          apply genuine_reading
          intro d₁ _
          rw [Discipline.wp_bind]
          intro d₂ _ _ _
          exact genuine_processEach smtp _ 0
  | retryOne outboxId =>
      show genuine.wp (retryOne outboxId >>= fun _ => pure ()) _ _ d
      unfold retryOne
      rw [Discipline.wp_bind, Discipline.wp_bind]
      intro d₁ _ _ _
      show genuine.wp (match d₁.rows.get outboxId with
        | none => _
        | some row => _) _ _ d₁
      cases d₁.rows.get outboxId with
      | none => trivial
      | some row =>
          dsimp only
          split_ifs
          · trivial
          · rw [Discipline.wp_bind]
            apply genuine_reading
            intro d₂ now
            refine genuine_commit (fun d' h => h.flushRow rfl) fun done d' => ?_
            rw [Discipline.wp_bind, Discipline.wp_orRaise]
            exact fun _ _ => trivial
  | retryAll =>
      show genuine.wp (retryAll >>= fun _ => pure ()) _ _ d
      unfold retryAll
      rw [Discipline.wp_bind, Discipline.wp_bind]
      apply genuine_reading
      intro d₁ now
      refine genuine_commit (fun d' h => h.retryFailed now) fun done d' => ?_
      rw [Discipline.wp_bind, Discipline.wp_orRaise]
      exact fun _ _ => trivial

end Contracts

/-- No run changes a letter. -/
theorem genuine_of_reaches {rows : List EmailOutbox} {c : Config outbox}
    (run : Reaches operate (fun _ _ _ => True) (State.initial rows now) c) : Genuine c.db :=
  Discipline.invariant_of_reaches (P := genuine) (.of_initial rows now)
    (fun command _ _ => operate_safe command) (.of_initial rows now) (fun _ _ h => h) run

def State.queue (d : State) : Finset Nat :=
  (Finset.range d.rows.serial).filter fun id =>
    (d.rows.get id).any fun row => row.status = .pending

theorem State.mem_queue : id ∈ d.queue ↔ ∃ row, d.rows.get id = some row ∧ row.status = .pending := by
  simp only [State.queue, Finset.mem_filter, Finset.mem_range, Option.any_eq_true,
    decide_eq_true_eq, and_iff_right_iff_imp, forall_exists_index, and_imp]
  exact fun row hRow _ => Table.lt_serial hRow

/-- Where every pending row is due, a tick takes a full batch, or all there are. -/
theorem State.length_candidates (hWell : WellFormed d) (hDue : DueBy d now) :
    (d.candidates now).length = min workerBatchSize d.queue.card := by
  set due := ((List.range d.rows.serial).filterMap d.rows.get).filter fun row =>
    row.status = .pending ∧ row.nextAttemptAt ≤ now with hDefinition
  have hMem (row : EmailOutbox) : row ∈ due ↔ d.rows.get row.id = some row ∧ row.status = .pending := by
    simp only [hDefinition, List.mem_filter, List.mem_filterMap, List.mem_range, decide_eq_true_eq]
    constructor
    · rintro ⟨⟨id, _, hRow⟩, hPending, _⟩
      exact ⟨hWell id row hRow ▸ hRow, hPending⟩
    · rintro ⟨hRow, hPending⟩
      exact ⟨⟨row.id, Table.lt_serial hRow, hRow⟩, hPending, hDue.rows _ _ hRow hPending⟩
  have hNodup : (due.map EmailOutbox.id).Nodup := by
    apply List.Nodup.map_on _ ((State.nodup_rows hWell).filter _)
    intro row hRow row' hRow' hSame
    have hGet := ((hMem row).mp hRow).1
    rw [hSame, ((hMem row').mp hRow').1] at hGet
    exact (Option.some.inj hGet).symm
  have hQueue : d.queue = (due.map EmailOutbox.id).toFinset := by
    ext id
    rw [State.mem_queue, List.mem_toFinset, List.mem_map]
    constructor
    · rintro ⟨row, hRow, hPending⟩
      have hId := hWell id row hRow
      exact ⟨row, (hMem row).mpr ⟨hId.symm ▸ hRow, hPending⟩, hId⟩
    · rintro ⟨row, hRow, rfl⟩
      exact ⟨row, (hMem row).mp hRow⟩
  rw [hQueue, List.toFinset_card_of_nodup hNodup, List.length_map, State.candidates,
    List.length_take, List.length_insertionSort]

/-- When the server takes everything, a tick takes its candidates off the
queue. -/
theorem Ticked.queue {smtp : Nat → Option String} {ids : List Nat} (h : Ticked smtp now ids d d')
    (hSmtp : ∀ id, smtp id = none) : d'.queue = d.queue \ ids.toFinset := by
  ext id
  rw [Finset.mem_sdiff, State.mem_queue, State.mem_queue, List.mem_toFinset, h.rows]
  cases d.rows.get id with
  | none => simp
  | some row =>
      by_cases hTried : id ∈ ids ∧ row.status = .pending
      · simp [hTried, sent_outcome (hSmtp row.id)]
      · simp only [hTried, if_false, Option.map_some, Option.some.injEq, exists_eq_left']
        exact ⟨fun hPending => ⟨hPending, fun hId => hTried ⟨hId, hPending⟩⟩, fun h => h.1⟩

/-- Nothing is retried, so what stays pending was due before. -/
theorem Ticked.dueBy_of_success {smtp : Nat → Option String} {ids : List Nat}
    (h : Ticked smtp now ids d d') (hSmtp : ∀ id, smtp id = none) (hDue : DueBy d now) :
    DueBy d' now := by
  refine ⟨h.now, fun id new hNew hPending => ?_⟩
  rw [h.rows] at hNew
  obtain ⟨old, hOld, rfl⟩ := Option.map_eq_some_iff.mp hNew
  split_ifs at hPending ⊢ with hTried
  · rw [sent_outcome (hSmtp old.id)] at hPending
    cases hPending
  · exact hDue.rows id old hOld hPending

/-- Ticks at times that do not go back. -/
def Ordered : Time → Ticks → Prop
  | _, [] => True
  | earliest, (_, time) :: rest => earliest ≤ time ∧ Ordered time rest

/-- Ticks that succeed empty the queue batch by batch. -/
theorem settled_of_success (hWell : WellFormed d) {earliest : Time} (hDue : DueBy d earliest)
    {ticks : Ticks} (hOrdered : Ordered earliest ticks)
    (hEnough : d.queue.card ≤ workerBatchSize * ticks.length)
    (hSmtp : ∀ tick ∈ ticks, ∀ id, tick.1 id = none) :
    ∃ d', drain d ticks = some d' ∧ Settled True d d' := by
  induction ticks generalizing d earliest with
  | nil =>
      refine ⟨d, rfl, fun id row hRow => ⟨row, hRow, fun hPending => ?_, .refl True row⟩⟩
      have hEmpty : d.queue = ∅ := Finset.card_eq_zero.mp (Nat.le_zero.mp hEnough)
      have hQueued := State.mem_queue.mpr ⟨row, hRow, hPending⟩
      rw [hEmpty] at hQueued
      cases hQueued
  | cons tick rest ih =>
      obtain ⟨smtp, time⟩ := tick
      obtain ⟨hEarliest, hLater⟩ := hOrdered
      have hDue : DueBy d time := ⟨hDue.now.trans hEarliest, fun id row hRow hPending =>
        (hDue.rows id row hRow hPending).trans hEarliest⟩
      have hTake : ∀ id, smtp id = none := hSmtp (smtp, time) List.mem_cons_self
      obtain ⟨held', d₁, hEnds, hTicked⟩ := alone_tick smtp hWell hDue.now
      have hBatch : d₁.queue.card = d.queue.card - min workerBatchSize d.queue.card := by
        have hSub : ((d.candidates time).map EmailOutbox.id).toFinset ⊆ d.queue := by
          intro id hId
          obtain ⟨row, hRow, rfl⟩ := List.mem_map.mp (List.mem_toFinset.mp hId)
          exact State.mem_queue.mpr ⟨row, State.get_of_mem_candidates hWell hRow⟩
        rw [hTicked.queue hTake, Finset.card_sdiff_of_subset hSub,
          List.toFinset_card_of_nodup (State.nodup_candidates hWell time), List.length_map,
          State.length_candidates hWell hDue]
      have hFewer : d₁.queue.card ≤ workerBatchSize * rest.length := by
        rw [List.length_cons, Nat.mul_succ] at hEnough
        omega
      obtain ⟨d', hDrain, hSettled⟩ := ih (hTicked.wellFormed hWell)
        (hTicked.dueBy_of_success hTake hDue) hLater hFewer
        fun tick hTick => hSmtp tick (List.mem_cons_of_mem _ hTick)
      refine ⟨d', ?_, fun id row hRow => ?_⟩
      · rw [drain, hEnds]
        exact hDrain
      · obtain ⟨row₁, hRow₁, hFirst⟩ := hTicked.advanced (fun _ => hTake) hRow
        obtain ⟨row', hRow', hFinal, hRest⟩ := hSettled id row₁ hRow₁
        exact ⟨row', hRow', hFinal, hFirst.trans hRest⟩

theorem retry_of_ne (h : row.status ≠ .failed) : row.retry now = row := if_neg h

/-- The operator's command, run alone: all failed rows are pending again. -/
theorem alone_retryAll (hNow : d.now ≤ now) :
    (operate .retryAll).alone now Held.none d =
      some ((), Held.none, State.retryFailed { d with now := now } now) := by
  show (retryAll >>= fun _ => pure ()).alone now Held.none d = _
  unfold retryAll
  rw [Prog.alone_bind, Prog.alone_bind, alone_utcnow Held.none hNow]
  rfl

theorem DueBy.retryFailed (h : DueBy d now) : DueBy (State.retryFailed { d with now := now } now) now := by
  refine ⟨le_rfl, fun id row hRow hPending => ?_⟩
  obtain ⟨old, hOld, rfl⟩ := Option.map_eq_some_iff.mp hRow
  by_cases hFailed : old.status = .failed
  · simp [EmailOutbox.retry, hFailed]
  · dsimp only at hPending ⊢
    rw [retry_of_ne hFailed] at hPending ⊢
    exact h.rows id old hOld hPending

namespace Advanced

variable {row' : EmailOutbox} {time : Time}

/-- No retried row is failed, so one that leaves the queue is sent. -/
theorem sent_of_retry (h : Advanced True (row.retry time) row') (hFinal : row'.status ≠ .pending) :
    row'.status = .sent := by
  cases hStatus : (row.retry time).status with
  | pending => exact (h.sent trivial hStatus).resolve_left hFinal
  | sent => rw [h.final (by simp [hStatus]), hStatus]
  | failed =>
      unfold EmailOutbox.retry at hStatus
      split_ifs at hStatus with hFailed
      exact absurd hStatus hFailed

/-- A letter that was sent is not touched again. -/
theorem eq_of_sent (h : Advanced True (row.retry time) row') (hSent : row.status = .sent) :
    row' = row := by
  have hKept : row.retry time = row := retry_of_ne (by simp [hSent])
  rw [h.final (by simp [hKept, hSent]), hKept]

/-- Recovery changes no letter. -/
theorem letter_of_retry (h : Advanced True (row.retry time) row') : row'.letter = row.letter := by
  obtain ⟨hTo, hSubject, hBody⟩ := h.letter
  rw [← letter_retry row time]
  simp only [EmailOutbox.letter, hTo, hSubject, hBody]

end Advanced

/-- The operator's command, and then the ticks of one worker. -/
def recover (d : State) (time : Time) (ticks : Ticks) : Option State :=
  ((operate .retryAll).alone time Held.none d).bind fun (_, _, d') => drain d' ticks

/-- From whatever state any number of workers and operators have left, in which nobody
holds a lock: once the SMTP server takes mail again and every pending row is due,
`retry --all` and as many ticks of one worker as there are batches of unsent rows send
every row, with the letter it was enqueued with. A row that was sent before is left
alone. -/
theorem outage_recovered {rows : List EmailOutbox} {c : Config outbox}
    (run : Reaches operate (fun _ _ _ => True) (State.initial rows now) c) {sid : Nat}
    (hIdle : c.sessions sid = none) (hUnlocked : ∀ key, c.locks key = none) {time : Time}
    (hDue : DueBy c.db time) (ticks : Ticks) (hOrdered : Ordered time ticks)
    (hEnough : (c.db.retryFailed time).queue.card ≤ workerBatchSize * ticks.length)
    (hSmtp : ∀ tick ∈ ticks, ∀ id, tick.1 id = none) :
    ∃ d', recover c.db time ticks = some d' ∧ (∃ c', Continues operate c c' ∧ c'.db = d') ∧
      ∀ id row, c.db.rows.get id = some row → ∃ row', d'.rows.get id = some row' ∧
        row'.status = .sent ∧ (row.status = .sent → row' = row) ∧
        ∃ first, c.db.origin id = some first ∧ row'.letter = first.letter := by
  have hGenuine := genuine_of_reaches run
  have hRetry := alone_retryAll (d := c.db) hDue.now
  have hWell : WellFormed (State.retryFailed { c.db with now := time } time) :=
    (hGenuine.retryFailed time).wellFormed
  obtain ⟨d', hDrain, hSettled⟩ :=
    settled_of_success hWell hDue.retryFailed hOrdered hEnough hSmtp
  obtain ⟨c₁, run₁, hDb, hSessions, hUnlocked₁⟩ := serves_alone hIdle hUnlocked hRetry
  have hWorker : ∀ request, operate (.worker request) = handle request := fun _ => rfl
  obtain ⟨c', run', hEnd⟩ :=
    continues_drain Command.worker hWorker (hSessions ▸ hIdle) hUnlocked₁ (hDb ▸ hDrain)
  refine ⟨d', ?_, ⟨c', run₁.trans run', hEnd⟩, fun id row hRow => ?_⟩
  · rw [recover, hRetry]
    exact hDrain
  · have hRetried : (State.retryFailed { c.db with now := time } time).rows.get id =
        some (row.retry time) := by
      simp [State.retryFailed, hRow]
    obtain ⟨row', hRow', hFinal, hAdvanced⟩ := hSettled id _ hRetried
    obtain ⟨first, hFirst, hLetter⟩ := hGenuine.letter id row hRow
    exact ⟨row', hRow', hAdvanced.sent_of_retry hFinal, hAdvanced.eq_of_sent, first, hFirst,
      hAdvanced.letter_of_retry.trans hLetter⟩

def deadLetter : EmailOutbox :=
  { letter with status := .failed, attempts := 5, lastError := some "timed out" }

theorem outage_recovered_deadLetter : ∃ d',
    recover (State.initial [deadLetter] 0) 0 [(delivered, 0)] = some d' ∧
    ∃ row', d'.rows.get 1 = some row' ∧ row'.status = .sent := by
  have hDue : DueBy (State.initial [deadLetter] 0) 0 := by
    refine ⟨le_rfl, fun id row hRow hPending => ?_⟩
    match id, hRow with
    | 1, hRow =>
        obtain rfl := Option.some.inj hRow
        cases hPending
  let c : Config outbox := .initial (State.initial [deadLetter] 0)
  have hIdle : c.sessions 1 = none := rfl
  have hSmtp : ∀ tick ∈ [(delivered, (0 : Time))], ∀ id, tick.1 id = none := by
    intro tick hTick id
    rw [List.mem_singleton.mp hTick]
    rfl
  obtain ⟨d', hRecover, _, hRows⟩ := outage_recovered (c := c) .init hIdle (fun _ => rfl) hDue
    [(delivered, 0)] ⟨le_rfl, trivial⟩ (by decide +kernel) hSmtp
  obtain ⟨row', hRow', hSent, _⟩ := hRows 1 deadLetter rfl
  exact ⟨d', hRecover, row', hRow', hSent⟩

end OnlineAuction.Outbox
