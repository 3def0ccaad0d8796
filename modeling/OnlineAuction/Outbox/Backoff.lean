import Mathlib.Algebra.BigOperators.Intervals
import Mathlib.Algebra.Order.Ring.Int
import Mathlib.Order.Interval.Finset.Nat
import OnlineAuction.Outbox.Commits

/-! When SMTP attempts start. A tick selects its candidates by their deadline and
claims them one by one by their status alone: a row that another worker has
failed and rescheduled in the meantime is claimed all the same. -/

namespace OnlineAuction.Outbox

open RowLocks

structure RowLocked (held : Held outbox) (row : EmailOutbox) (d : State) : Prop where
  held : held row.id = true
  stored : d.rows.get row.id = some row
  pending : row.status = .pending

section

variable {held : Held outbox} {d : State}

/-- What a worker knows of a row it holds stays true while the others run. -/
theorem RowLocked.rely {row : EmailOutbox} {d' : State} (h : RowLocked held row d)
    (hRely : discipline.Rely held d d') : RowLocked held row d' :=
  ⟨h.held, (Kept.of_rely hRely).row row.id row h.held h.stored, h.pending⟩

theorem wp_utcnow {post : Time → Held outbox → State → Prop}
    (h : ∀ d' t, discipline.Rely held d d' → d'.now ≤ t → post t held { d' with now := t }) :
    discipline.wp utcnow held post d :=
  fun d' t hRely _ hLater _ => h d' t hRely (by simpa using hLater)

/-- A granted claim finds the candidate as the tick selected it. -/
theorem wp_claim {candidate : EmailOutbox} {post : Option EmailOutbox → Held outbox → State → Prop}
    (hNone : ∀ d' held', discipline.Rely held d d' → post none held' d')
    (hSome : ∀ d' held' row, discipline.Rely held d d' → RowLocked held' row d' →
      row.nextAttemptAt = candidate.nextAttemptAt → post (some row) held' d') :
    discipline.wp (claim candidate) held post d := by
  intro d' hRely hWell
  refine ⟨fun _ => hNone d' held hRely, fun hOk => ?_⟩
  show post ((d'.rows.get candidate.id).filter fun row => row.status = .pending) _ d'
  cases hRow : d'.rows.get candidate.id with
  | none => exact hNone d' _ hRely
  | some row =>
      by_cases hPending : row.status = .pending
      · rw [Option.filter_some_pos (by simpa using hPending)]
        have hId : row.id = candidate.id := hWell _ _ hRow
        have hExists : outbox.hasRow d' candidate.id = true := by simp [hRow, hPending]
        refine hSome d' _ row hRely ⟨?_, by rw [hId, hRow], hPending⟩ (hOk row hRow hPending)
        rw [hId]
        exact held.grant_self hExists
      · rw [Option.filter_some_neg (by simpa using hPending)]
        exact hNone d' _ hRely

/-- The rule of an attempt: it must not come before the row is due. -/
theorem wp_sendEmailNotification {smtp : Nat → Option String} {row : EmailOutbox}
    {post : Option String → Held outbox → State → Prop} (hDue : row.nextAttemptAt ≤ d.now)
    (hPost : ∀ d', d.now ≤ d'.now → (RowLocked held row d → RowLocked held row d') →
      post (smtp row.id) held d') :
    discipline.wp (sendEmailNotification smtp row) held post d := by
  unfold sendEmailNotification
  rw [Discipline.wp_bind]
  apply wp_utcnow
  intro d₁ start hRely₁ hLater
  have hNow₁ := (Kept.of_rely hRely₁).now
  intro d₂ hRely₂ _ _
  have hNow₂ : start ≤ d₂.now := (Kept.of_rely hRely₂).now
  refine ⟨.start _ ((hDue.trans hNow₁).trans hLater), hPost _ ?_ fun hLocked => ?_⟩
  · exact (hNow₁.trans hLater).trans hNow₂
  · have hLocked₁ := hLocked.rely hRely₁
    have hLocked₂ := RowLocked.rely (d := { d₁ with now := start })
      ⟨hLocked₁.held, hLocked₁.stored, hLocked₁.pending⟩ hRely₂
    exact ⟨hLocked₂.held, hLocked₂.stored, hLocked₂.pending⟩

/-- What is to be committed for a locked row whose attempt was due. -/
theorem wp_processOne {smtp : Nat → Option String} {row : EmailOutbox}
    {post : EmailOutbox → Held outbox → State → Prop} (hLocked : RowLocked held row d)
    (hDue : row.nextAttemptAt ≤ d.now)
    (hPost : ∀ d' new, d.now ≤ d'.now → RowLocked held row d' → new.id = row.id →
      Processed row new → post new held d') :
    discipline.wp (processOne smtp row) held post d := by
  unfold processOne
  rw [Discipline.wp_bind]
  apply wp_sendEmailNotification hDue
  intro d₁ hNow₁ hKeeps
  have hLocked₁ := hKeeps hLocked
  cases smtp row.id with
  | none =>
      dsimp only
      rw [Discipline.wp_bind]
      apply wp_utcnow
      intro d₂ now hRely₂ hLater
      have hLocked₂ := hLocked₁.rely hRely₂
      exact hPost _ _ ((hNow₁.trans (Kept.of_rely hRely₂).now).trans hLater)
        ⟨hLocked₂.held, hLocked₂.stored, hLocked₂.pending⟩ rfl (.sent rfl rfl)
  | some error =>
      dsimp only
      split_ifs
      · exact hPost d₁ _ hNow₁ hLocked₁ rfl (.failed rfl rfl)
      · rw [Discipline.wp_bind]
        apply wp_utcnow
        intro d₂ now hRely₂ hLater
        have hLocked₂ := hLocked₁.rely hRely₂
        have hNow : d.now ≤ now := (hNow₁.trans (Kept.of_rely hRely₂).now).trans hLater
        exact hPost _ _ hNow ⟨hLocked₂.held, hLocked₂.stored, hLocked₂.pending⟩ rfl
          (.retried hLocked.pending rfl (add_le_add (hDue.trans hNow) le_rfl))

end

/-- The candidates left were due when the tick selected them. -/
theorem processEach_safe (smtp : Nat → Option String) {candidates : List EmailOutbox}
    (processed : Nat) {held : Held outbox} {d : State}
    (hDue : ∀ candidate ∈ candidates, candidate.nextAttemptAt ≤ d.now) :
    discipline.wp (processEach smtp candidates processed) held (fun _ _ _ => True) d := by
  induction candidates generalizing processed held d with
  | nil => trivial
  | cons candidate rest ih =>
      have hRest {d' : State} (hNow : d.now ≤ d'.now) :
          ∀ other ∈ rest, other.nextAttemptAt ≤ d'.now :=
        fun other hOther => (hDue other (List.mem_cons_of_mem _ hOther)).trans hNow
      rw [processEach, Discipline.wp_bind]
      refine wp_claim (fun d₁ held₁ hRely => ih processed (hRest (Kept.of_rely hRely).now))
        fun d₁ held₁ row hRely hLocked₁ hSame => ?_
      have hNow₁ := (Kept.of_rely hRely).now
      have hRowDue : row.nextAttemptAt ≤ d₁.now :=
        hSame ▸ (hDue candidate List.mem_cons_self).trans hNow₁
      dsimp only
      rw [Discipline.wp_bind]
      apply wp_processOne hLocked₁ hRowDue
      intro d₂ new hNow₂ hLocked₂ hId hProcessed d₃ hRely₃ _
      have hLocked₃ := hLocked₂.rely hRely₃
      have hNow₃ : d₁.now ≤ d₃.now := hNow₂.trans (Kept.of_rely hRely₃).now
      refine ⟨fun _ => ⟨?_, ?_⟩, ?_⟩
      · show Commit held₁ d₃ (d₃.flushRow row new)
        rw [State.flushRow_eq hLocked₃.stored hId]
        exact .process row new hLocked₃.held hLocked₃.stored hId hLocked₃.pending
          (hRowDue.trans hNow₃) hProcessed
      · exact ih _ (hRest (hNow₁.trans hNow₃))
      · exact ih _ (hRest (hNow₁.trans hNow₃))

theorem handle_safe (request : Request) {d : State} :
    discipline.Safe (handle request) Held.none d := by
  unfold Discipline.Safe
  cases request with
  | enqueue toEmail subject htmlBody maxAttempts =>
      show discipline.wp (enqueueEmail toEmail subject htmlBody maxAttempts) _ _ d
      unfold enqueueEmail
      rw [Discipline.wp_bind]
      apply wp_utcnow
      intro d₁ nextAttemptAt _ _
      rw [Discipline.wp_bind]
      apply wp_utcnow
      intro d₂ createdAt _ _ d₃ _ _
      exact ⟨fun _ => ⟨.enqueue _ rfl, trivial⟩, trivial⟩
  | tick smtp =>
      show discipline.wp (runOneTick smtp >>= fun _ => pure ()) _ _ d
      rw [Discipline.wp_bind]
      show discipline.wp (runOneTick smtp) _ (fun _ _ _ => True) d
      unfold runOneTick
      rw [Discipline.wp_bind]
      apply wp_utcnow
      intro d₁ now _ _
      rw [Discipline.wp_bind]
      intro d₂ hRely₂ _ _
      apply processEach_safe smtp 0
      intro candidate hCandidate
      have hNow : now ≤ d₂.now := (Kept.of_rely hRely₂).now
      exact (State.due_of_candidate hCandidate).trans hNow

/-- When a row becomes due after this many attempts, if each of them starts when
the row is due: the deadline it was stored with and the backoffs since. -/
def due (origin : EmailOutbox) (attempts : Nat) : Time :=
  origin.nextAttemptAt + ∑ i ∈ Finset.Ioc origin.attempts attempts, backoffForAttempt i

/-- The first attempt is due when the row says. -/
@[simp] theorem due_origin (origin : EmailOutbox) : due origin origin.attempts = origin.nextAttemptAt := by
  simp [due]

/-- Each further attempt is due one backoff later. -/
theorem due_succ {origin : EmailOutbox} {attempts : Nat} (h : origin.attempts ≤ attempts) :
    due origin (attempts + 1) = due origin attempts + backoffForAttempt (attempts + 1) := by
  unfold due
  rw [Finset.sum_Ioc_succ_top h, add_assoc]

/-- The row has not used up attempts faster than the schedule allows. -/
structure Scheduled (origin row : EmailOutbox) (now : Time) : Prop where
  used : origin.attempts ≤ row.attempts
  next : row.status = .pending → due origin row.attempts ≤ row.nextAttemptAt
  spent : origin.attempts < row.attempts → due origin (row.attempts - 1) ≤ now

theorem Scheduled.self (row : EmailOutbox) (now : Time) : Scheduled row row now where
  used := le_rfl
  next _ := (due_origin row).le
  spent h := absurd h (lt_irrefl _)

/-- A row on schedule stays so while time passes. -/
theorem Scheduled.later {origin row : EmailOutbox} {now now' : Time}
    (h : Scheduled origin row now) (hLater : now ≤ now') : Scheduled origin row now' :=
  ⟨h.used, h.next, fun hUsed => (h.spent hUsed).trans hLater⟩

/-- One more attempt, started when the row was due. -/
theorem Scheduled.process {origin old new : EmailOutbox} {now : Time} (h : Scheduled origin old now)
    (hPending : old.status = .pending) (hDue : old.nextAttemptAt ≤ now)
    (hProcessed : Processed old new) : Scheduled origin new now := by
  have hUsed := h.used
  have hSpent : due origin old.attempts ≤ now := (h.next hPending).trans hDue
  cases hProcessed with
  | sent hStatus hAttempts =>
      refine ⟨by omega, fun hNew => ?_, fun hMore => ?_⟩
      · rw [hStatus] at hNew
        cases hNew
      · rw [hAttempts] at hMore ⊢
        exact h.spent hMore
  | failed hStatus hAttempts =>
      refine ⟨by omega, fun hNew => ?_, fun _ => ?_⟩
      · rw [hStatus] at hNew
        cases hNew
      · rw [hAttempts]
        exact hSpent
  | retried hStatus hAttempts hBackoff =>
      refine ⟨by omega, fun _ => ?_, fun _ => ?_⟩
      · rw [hAttempts] at hBackoff ⊢
        rw [due_succ hUsed]
        exact (add_le_add (h.next hPending) le_rfl).trans hBackoff
      · rw [hAttempts]
        exact hSpent

/-- Every attempt started when its row was due, and every row is on schedule. -/
structure OnSchedule (d : State) : Prop where
  started : ∀ attempt ∈ d.started, attempt.nextAttemptAt ≤ attempt.start
  rows : ∀ id row, d.rows.get id = some row →
    ∃ origin, d.origin id = some origin ∧ Scheduled origin row d.now

namespace OnSchedule

theorem of_initial (rows : List EmailOutbox) (now : Time) : OnSchedule (State.initial rows now) where
  started := by simp [State.initial]
  rows id row hRow := ⟨row, hRow, .self row now⟩

/-- Every commit keeps the rows on schedule. -/
theorem commit {held : Held outbox} {d d' : State} (h : OnSchedule d) (hCommit : Commit held d d') :
    OnSchedule d' := by
  cases hCommit with
  | observe t hLater =>
      refine ⟨h.started, fun id row hRow => ?_⟩
      obtain ⟨origin, hOrigin, hScheduled⟩ := h.rows id row hRow
      exact ⟨origin, hOrigin, hScheduled.later hLater⟩
  | enqueue row hId =>
      refine ⟨h.started, fun id found hFound => ?_⟩
      change (d.rows.add row).get id = some found at hFound
      rcases Table.of_get_add hFound with ⟨rfl, rfl⟩ | hFound
      · exact ⟨row d.rows.serial, Function.update_self .., .self _ d.now⟩
      · obtain ⟨origin, hOrigin, hScheduled⟩ := h.rows id found hFound
        have hNew := (Table.lt_serial hFound).ne
        exact ⟨origin, (Function.update_of_ne hNew _ _).trans hOrigin, hScheduled⟩
  | start attempt hDue =>
      refine ⟨fun other hOther => ?_, h.rows⟩
      rcases List.mem_append.mp hOther with hOld | hNew
      · exact h.started other hOld
      · obtain rfl := List.mem_singleton.mp hNew
        exact hDue
  | process old new _ hRow hId hPending hDue hProcessed =>
      refine ⟨h.started, fun id row hFound => ?_⟩
      by_cases hSame : id = new.id
      · subst hSame
        rw [State.get_setRow_self (hId ▸ hRow), Option.some.injEq] at hFound
        subst hFound
        obtain ⟨origin, hOrigin, hScheduled⟩ := h.rows old.id old hRow
        exact ⟨origin, hId ▸ hOrigin, hScheduled.process hPending hDue hProcessed⟩
      · exact h.rows id row ((d.get_setRow_other hSame).symm.trans hFound)

end OnSchedule

/-- No attempt started before the `next_attempt_at` of the row as it was claimed,
and by the last reading of the clock the backoffs of all attempts used up but
the last had passed. -/
def BackoffRespected (d : State) : Prop :=
  (∀ attempt ∈ d.started, attempt.nextAttemptAt ≤ attempt.start) ∧
    ∀ id row origin, d.rows.get id = some row → d.origin id = some origin →
      origin.attempts < row.attempts → due origin (row.attempts - 1) ≤ d.now

/-- As long as no granted claim finds a row that was rescheduled after the tick
selected it, every attempt starts when the row it claimed was due, and no row
uses up its attempts faster than the backoff schedule allows. -/
theorem backoff_respected {rows : List EmailOutbox} {now : Time} {c : Config outbox}
    (run : Reaches handle NotRescheduled (State.initial rows now) c) : BackoffRespected c.db := by
  have hSchedule : OnSchedule c.db := Discipline.invariant_of_reaches (P := discipline)
    (.of_initial rows now) (fun request _ _ => handle_safe request) (.of_initial rows now)
    (fun _ h hCommit => h.commit hCommit) run
  refine ⟨hSchedule.started, fun id row origin hRow hOrigin hUsed => ?_⟩
  obtain ⟨found, hFound, hScheduled⟩ := hSchedule.rows id row hRow
  rw [hOrigin, Option.some.injEq] at hFound
  subst hFound
  exact hScheduled.spent hUsed

def letter : EmailOutbox :=
  ⟨1, "alice@example.org", "Hello", "<p>Hello</p>", .pending, 0, defaultMaxAttempts, none, 0, 0, none⟩

def refused (_ : Nat) : Option String := some "SMTP refused"

/-- A tick of the worker, up to its candidates. -/
def tickSelects (sid : Nat) : List (Action outbox Request) :=
  [.start sid (.tick refused), .clock sid 0, .step sid]

/-- It claims the letter and starts an attempt. -/
def tickSends (sid : Nat) : List (Action outbox Request) := [.step sid, .clock sid 0, .step sid]

/-- The attempt fails, and the letter is rescheduled. -/
def tickReschedules (sid : Nat) : List (Action outbox Request) := [.clock sid 0, .step sid]

/-- The letter is attempted no earlier than its backoff allows. -/
theorem backoff_respected_letter : ∃ c : Config outbox,
    c.db.started ≠ [] ∧ BackoffRespected c.db := by
  obtain ⟨c, run, hStarted⟩ := exists_reaches handle NotRescheduled (State.initial [letter] 0)
    (tickSelects 1 ++ tickSends 1 ++ tickReschedules 1) (fun c => c.db.started ≠ [])
    (by decide +kernel)
  exact ⟨c, hStarted, backoff_respected run⟩

/-- Two ticks select the letter; the second sends it again as soon as the first
has put it off by a minute. -/
theorem attempt_ignores_backoff : ¬∀ c : Config outbox,
    Reaches handle (fun _ _ _ => True) (State.initial [letter] 0) c → BackoffRespected c.db := by
  intro hAll
  obtain ⟨c, run, hStarted⟩ := exists_reaches handle (fun _ _ _ => True)
    (State.initial [letter] 0)
    (tickSelects 1 ++ tickSelects 2 ++ tickSends 1 ++ tickReschedules 1 ++ tickSends 2)
    (fun c => (⟨1, minutes 1, 0⟩ : Attempt) ∈ c.db.started) (by decide +kernel)
  exact absurd ((hAll c run).1 _ hStarted) (by decide)

end OnlineAuction.Outbox
