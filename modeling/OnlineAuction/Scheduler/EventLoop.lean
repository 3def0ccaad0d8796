import OnlineAuction.Library.Runs
import OnlineAuction.Scheduler.Registry

/-! The completion tasks in their event loop: `_wait_and_complete` and, within it,
`complete_auction`, from one await to the next, beside anybody else who schedules and
cancels lots. What the database answers is left open. -/

namespace OnlineAuction.Scheduler

/-- What a completion task is waiting for. `decided` is set once it has re-armed its lot
or gone on to settle it. -/
inductive Tick where
  /- its first turn, the time -/
  | starts
  | sleeps
  /- the lot, and in `complete_auction` the lot with its row lock -/
  | selects
  | locks
  /- the calls that settle the lot -/
  | settles
  /- the rollback after an exception, the end of the database session -/
  | rollsBack (decided : Bool)
  | closes (decided : Bool)
  | ended
  deriving DecidableEq

def Tick.decided : Tick → Bool
  | .starts | .sleeps | .selects | .locks => false
  | .rollsBack decided => decided
  | .closes decided => decided
  | .settles | .ended => true

/-- A task that is asked to stop before its first turn ends without one, and without its
`finally` clause. -/
def Registry.discard (r : Registry) (task : Nat) : Registry :=
  { r with tasks := r.tasks.modify task fun t => { t with status := .finished } }

/-- `_completion_tasks`, what each task is waiting for, and whether `_settle_handler` has
been registered. -/
structure EventLoop where
  registry : Registry
  ticks : Nat → Tick
  settleHandler : Bool

namespace EventLoop

def start (settleHandler : Bool) : EventLoop := ⟨.empty, fun _ => .starts, settleHandler⟩

variable (s : EventLoop) (task : Nat) (t : CompletionTask)

def enter (tick : Tick) : EventLoop := { s with ticks := Function.update s.ticks task tick }

@[simp] theorem ticks_enter_self (tick : Tick) : (s.enter task tick).ticks task = tick :=
  Function.update_self ..

theorem ticks_enter_other {other : Nat} (tick : Tick) (h : other ≠ task) :
    (s.enter task tick).ticks other = s.ticks other := Function.update_of_ne h _ _

def setRegistry (registry : Registry) : EventLoop := { s with registry := registry }

/-- The `finally` clause. -/
def finish : EventLoop := (s.setRegistry (s.registry.finish task t.auctionId)).enter task .ended

/-- The call has returned, a query for the lot with its answer. A task that has been asked
to stop sleeps no longer, but a query may be answered all the same. -/
def returned (now : Time) (answer : Option Auction) : Option EventLoop :=
  match s.ticks task with
  | .starts => if t.status = .sleeping then some (s.enter task .sleeps) else none
  | .sleeps =>
      if t.status = .sleeping then
        some ((s.setRegistry (s.registry.wake task)).enter task .selects)
      else none
  | .selects => match answer.filter fun auction => auction.isActive with
      | none => some (s.enter task (.closes false))
      | some auction =>
          if now < auction.endTime then
            some ((s.setRegistry (s.registry.armCompletionTask (some task) t.auctionId
              auction.endTime)).enter task (.closes true))
          else some (s.enter task (if s.settleHandler then .locks else .closes false))
  | .locks => match answer.filter fun auction => auction.isActive with
      | none => some (s.enter task (.closes false))
      | some auction =>
          if now < auction.endTime then
            some ((s.setRegistry (s.registry.scheduleAuction (some task) auction)).enter task
              (.closes true))
          else some (s.enter task .settles)
  | .settles => some (s.enter task (.closes true))
  | .rollsBack decided => some (s.enter task (.closes decided))
  | .closes _ => some (s.finish task t)
  | .ended => none

/-- The call, or the code that has its answer, has raised an `Exception`. -/
def raised : Option EventLoop :=
  match s.ticks task with
  | .starts | .sleeps => if t.status = .sleeping then some (s.finish task t) else none
  | .selects | .locks => some (s.enter task (.rollsBack false))
  | .settles => some (s.enter task (.rollsBack true))
  | .rollsBack decided => some (s.enter task (.closes decided))
  | .closes _ => some (s.finish task t)
  | .ended => none

/-- The call has raised `CancelledError`, which is no `Exception`. -/
def stopped : Option EventLoop :=
  match s.ticks task with
  | .starts => some ((s.setRegistry (s.registry.discard task)).enter task .ended)
  | .sleeps => some (s.finish task t)
  | .selects | .locks => some (s.enter task (.closes false))
  | .settles => some (s.enter task (.closes true))
  | .rollsBack decided => some (s.enter task (.closes decided))
  | .closes _ => some (s.finish task t)
  | .ended => none

end EventLoop

/-- `schedule_auction` and `cancel_auction`, called by no completion task, and the ways in
which the call that a task waits for ends. -/
inductive LoopEvent where
  | schedule (auction : Auction)
  | cancel (auctionId : LotId)
  | returned (task : Nat) (now : Time) (answer : Option Auction)
  | raised (task : Nat)
  | stopped (task : Nat)

/-- One step, `none` when it is not possible. -/
def EventLoop.step (s : EventLoop) : LoopEvent → Option EventLoop
  | .schedule auction => some (s.setRegistry (s.registry.scheduleAuction none auction))
  | .cancel auctionId => some (s.setRegistry (s.registry.cancelAuction auctionId))
  | .returned task now answer => match s.registry.tasks.get task with
      | none => none
      | some t =>
          if answer.all fun auction => auction.id = t.auctionId then s.returned task t now answer
          else none
  | .raised task => match s.registry.tasks.get task with
      | none => none
      | some t => s.raised task t
  | .stopped task => match s.registry.tasks.get task with
      | none => none
      | some t => if t.status = .cancelled then s.stopped task t else none

/-- The task is one of this lot that is not done, has not been asked to stop, and has
neither re-armed the lot nor gone on to settle it. -/
def EventLoop.Pending (s : EventLoop) (auctionId : LotId) (task : Nat) : Prop :=
  ∃ t, s.registry.tasks.get task = some t ∧ t.auctionId = auctionId ∧ t.live = true ∧
    (s.ticks task).decided = false

/-- No task is pending that cannot be reached by its slot. -/
structure NoOrphan (s : EventLoop) : Prop where
  single : ∀ auctionId task other, s.Pending auctionId task → s.Pending auctionId other →
    other = task
  stored : ∀ auctionId task, s.Pending auctionId task →
    s.registry.completionTasks auctionId = some task
  cancelled : ∀ auctionId s', s.step (.cancel auctionId) = some s' →
    ∀ task, ¬s'.Pending auctionId task
  finishing : ∀ e s' task, s.step e = some s' → s.ticks task ≠ .ended → s'.ticks task = .ended →
    ∀ auctionId other, other ≠ task → s.registry.completionTasks auctionId = some other →
      s'.registry.completionTasks auctionId = some other

namespace EventLoop

variable {s s' : EventLoop} {task : Nat} {t : CompletionTask}

inductive Moves (s : EventLoop) (task : Nat) (t : CompletionTask) : EventLoop → Prop where
  | waits {tick : Tick} (hDecided : (s.ticks task).decided = true → tick.decided = true)
      (hRuns : tick ≠ .ended) : Moves s task t (s.enter task tick)
  | wakes (hTick : s.ticks task = .sleeps) (hStatus : t.status = .sleeping) :
      Moves s task t ((s.setRegistry (s.registry.wake task)).enter task .selects)
  | rearms (endTime : Time) : Moves s task t ((s.setRegistry
      (s.registry.armCompletionTask (some task) t.auctionId endTime)).enter task (.closes true))
  | schedules (auction : Auction) : Moves s task t ((s.setRegistry
      (s.registry.scheduleAuction (some task) auction)).enter task (.closes true))
  | finishes : Moves s task t (s.finish task t)
  | discarded : Moves s task t ((s.setRegistry (s.registry.discard task)).enter task .ended)

/-- An await that returns moves the task on. -/
theorem returned_moves {now : Time} {answer : Option Auction}
    (h : s.returned task t now answer = some s') : Moves s task t s' := by
  unfold returned at h
  cases hTick : s.ticks task with
  | starts =>
      simp only [hTick] at h
      split_ifs at h
      cases h
      exact .waits (by simp [hTick, Tick.decided]) (by simp)
  | sleeps =>
      simp only [hTick] at h
      split_ifs at h with hStatus
      cases h
      exact .wakes hTick hStatus
  | selects =>
      simp only [hTick] at h
      split at h
      · cases h
        exact .waits (by simp [hTick, Tick.decided]) (by simp)
      · split_ifs at h
        · cases h
          exact .rearms _
        · cases h
          exact .waits (by simp [hTick, Tick.decided]) (by simp)
        · cases h
          exact .waits (by simp [hTick, Tick.decided]) (by simp)
  | locks =>
      simp only [hTick] at h
      split at h
      · cases h
        exact .waits (by simp [hTick, Tick.decided]) (by simp)
      · split_ifs at h
        · cases h
          exact .schedules _
        · cases h
          exact .waits (by simp [hTick, Tick.decided]) (by simp)
  | settles =>
      simp only [hTick] at h
      cases h
      exact .waits (fun _ => rfl) (by simp)
  | rollsBack decided =>
      simp only [hTick] at h
      cases h
      exact .waits (by simp [hTick, Tick.decided]) (by simp)
  | closes decided =>
      simp only [hTick] at h
      cases h
      exact .finishes
  | ended => simp [hTick] at h

/-- So does one that raises. -/
theorem raised_moves (h : s.raised task t = some s') : Moves s task t s' := by
  unfold raised at h
  cases hTick : s.ticks task with
  | starts =>
      simp only [hTick] at h
      split_ifs at h
      cases h
      exact .finishes
  | sleeps =>
      simp only [hTick] at h
      split_ifs at h
      cases h
      exact .finishes
  | closes decided =>
      simp only [hTick] at h
      cases h
      exact .finishes
  | ended => simp [hTick] at h
  | _ =>
      simp only [hTick] at h
      cases h
      exact .waits (by simp [hTick, Tick.decided]) (by simp)

/-- And a cancellation. -/
theorem stopped_moves (h : s.stopped task t = some s') : Moves s task t s' := by
  unfold stopped at h
  cases hTick : s.ticks task with
  | starts =>
      simp only [hTick] at h
      cases h
      exact .discarded
  | sleeps =>
      simp only [hTick] at h
      cases h
      exact .finishes
  | closes decided =>
      simp only [hTick] at h
      cases h
      exact .finishes
  | ended => simp [hTick] at h
  | _ =>
      simp only [hTick] at h
      cases h
      exact .waits (by simp [hTick, Tick.decided]) (by simp)

inductive Steps (s : EventLoop) : LoopEvent → EventLoop → Prop where
  | schedule (auction : Auction) : Steps s (.schedule auction)
      (s.setRegistry (s.registry.scheduleAuction none auction))
  | cancel (auctionId : LotId) : Steps s (.cancel auctionId)
      (s.setRegistry (s.registry.cancelAuction auctionId))
  | moves {e : LoopEvent} {s' : EventLoop} {task : Nat} {t : CompletionTask}
      (hTask : s.registry.tasks.get task = some t) (hMoves : Moves s task t s') : Steps s e s'

/-- Every step of the loop is one of those listed. -/
theorem step_steps {e : LoopEvent} (h : s.step e = some s') : Steps s e s' := by
  cases e with
  | schedule auction =>
      cases h
      exact .schedule auction
  | cancel auctionId =>
      cases h
      exact .cancel auctionId
  | returned task now answer =>
      simp only [step] at h
      split at h
      · cases h
      next t hTask =>
        split_ifs at h
        exact Steps.moves hTask (returned_moves h)
  | raised task =>
      simp only [step] at h
      split at h
      · cases h
      next t hTask => exact .moves hTask (raised_moves h)
  | stopped task =>
      simp only [step] at h
      split at h
      · cases h
      next t hTask =>
        split_ifs at h
        exact .moves hTask (stopped_moves h)

/-- A live task that has come to no decision is in the slot of its lot. -/
def Tracked (s : EventLoop) : Prop :=
  s.registry.Tracks fun task => (s.ticks task).decided = false

theorem undecided_enter {tick : Tick}
    (hDecided : (s.ticks task).decided = true → tick.decided = true) {other : Nat}
    (hOther : ((s.enter task tick).ticks other).decided = false) :
    (s.ticks other).decided = false := by
  by_cases hSame : other = task
  · subst hSame
    rw [ticks_enter_self] at hOther
    rw [← Bool.not_eq_true]
    intro hBefore
    rw [hDecided hBefore] at hOther
    cases hOther
  · rwa [ticks_enter_other _ _ _ hSame] at hOther

/-- The task that comes to its decision is undecided no longer. -/
theorem undecided_other {tick : Tick} (hDecided : tick.decided = true) {other : Nat}
    (hOther : ((s.enter task tick).ticks other).decided = false) :
    other ≠ task ∧ (s.ticks other).decided = false := by
  refine ⟨?_, undecided_enter (fun _ => hDecided) hOther⟩
  rintro rfl
  rw [ticks_enter_self, hDecided] at hOther
  cases hOther

theorem tracks_discard {r : Registry} {mine : Nat → Prop} (h : r.Tracks mine) (task : Nat) :
    (r.discard task).Tracks mine := by
  intro other t hMine hOther hLive
  by_cases hSame : other = task
  · subst hSame
    rw [Registry.discard, Table.get_modify_self] at hOther
    obtain ⟨was, -, rfl⟩ := Option.map_eq_some_iff.mp hOther
    cases hLive
  · rw [Registry.discard, Table.get_modify_other _ _ hSame] at hOther
    exact h other t hMine hOther hLive

theorem tracked_start (settleHandler : Bool) : (start settleHandler).Tracked := by
  intro task t _ hTask
  cases hTask

theorem Tracked.moves (h : s.Tracked) (hTask : s.registry.tasks.get task = some t)
    (hMoves : Moves s task t s') : s'.Tracked := by
  cases hMoves with
  | waits hDecided => exact h.mono fun _ _ _ hOther => undecided_enter hDecided hOther
  | wakes hTick hStatus =>
      have hLive : t.live = true := by simp [CompletionTask.live, hStatus]
      apply (h.wake hTask hLive).mono
      intro other _ _ hOther
      exact undecided_enter (by simp [hTick, Tick.decided]) hOther
  | rearms endTime =>
      apply (h.armCompletionTask (some task) endTime).mono
      intro other _ _ hOther
      obtain ⟨hNot, hBefore⟩ := undecided_other rfl hOther
      exact .inr ⟨hBefore, by simpa using hNot⟩
  | schedules auction =>
      apply (h.scheduleAuction (some task) auction).mono
      intro other _ _ hOther
      exact .inr (undecided_other rfl hOther).2
  | finishes =>
      apply (h.finish hTask).mono
      intro other _ _ hOther
      exact (undecided_other rfl hOther).2
  | discarded =>
      apply (tracks_discard h task).mono
      intro other _ _ hOther
      exact (undecided_other rfl hOther).2

theorem Tracked.step (h : s.Tracked) {e : LoopEvent} (hStep : s.step e = some s') :
    s'.Tracked := by
  cases step_steps hStep with
  | schedule auction =>
      apply (h.scheduleAuction none auction).mono
      intro task _ _ hTask
      exact .inr hTask
  | cancel auctionId => exact h.cancelAuction
  | moves hTask hMoves => exact h.moves hTask hMoves

theorem Tracked.stored (h : s.Tracked) {auctionId : LotId} (hPending : s.Pending auctionId task) :
    s.registry.completionTasks auctionId = some task := by
  obtain ⟨t, hTask, rfl, hLive, hTick⟩ := hPending
  exact h task t hTick hTask hLive

/-- A task that ends leaves every slot alone that it is not in. -/
theorem Moves.finishing {ended : Nat} (hMoves : Moves s task t s')
    (hRuns : s.ticks ended ≠ .ended) (hEnded : s'.ticks ended = .ended) {auctionId : LotId}
    {other : Nat} (hOther : other ≠ ended)
    (hSlot : s.registry.completionTasks auctionId = some other) :
    s'.registry.completionTasks auctionId = some other := by
  have hMine (r : Registry) (tick : Tick) (hTick : ((s.setRegistry r).enter task tick).ticks ended =
      .ended) : ended = task ∧ tick = .ended := by
    by_cases hSame : ended = task
    · subst hSame
      rw [ticks_enter_self] at hTick
      exact ⟨rfl, hTick⟩
    · rw [ticks_enter_other _ _ _ hSame] at hTick
      exact absurd hTick hRuns
  cases hMoves with
  | waits _ hNot => exact absurd (hMine s.registry _ hEnded).2 hNot
  | wakes => cases (hMine _ _ hEnded).2
  | rearms => cases (hMine _ _ hEnded).2
  | schedules => cases (hMine _ _ hEnded).2
  | finishes =>
      obtain ⟨rfl, -⟩ := hMine _ _ hEnded
      exact (s.registry.completionTasks_finish ended t.auctionId).mpr
        ⟨hSlot, fun hSame => hOther hSame.2⟩
  | discarded => exact hSlot

theorem Tracked.noOrphan (h : s.Tracked) : NoOrphan s where
  single auctionId task other hTask hOther :=
    Option.some.inj ((h.stored hOther).symm.trans (h.stored hTask))
  stored auctionId task hPending := h.stored hPending
  cancelled auctionId s' hStep task hPending := by
    cases hStep
    obtain ⟨t, hTask, hLot, hLive, hTick⟩ := hPending
    exact (h.live_cancelAuction hTick hTask hLive).1 hLot
  finishing e s' task hStep hRuns hEnded auctionId other hOther hSlot := by
    cases step_steps hStep with
    | schedule auction => exact absurd hEnded hRuns
    | cancel id => exact absurd hEnded hRuns
    | moves hTask hMoves => exact hMoves.finishing hRuns hEnded hOther hSlot

/-- Whoever schedules and cancels lots, and however the calls of the tasks end: at most one
task of a lot is pending, which is the one in its slot, none is after `cancel_auction`, and
a task that ends empties no slot that another one is in. -/
theorem no_orphan {settleHandler : Bool}
    (run : Runs.Reaches step (fun _ _ => True) (start settleHandler) s) : NoOrphan s := by
  have hTracked : s.Tracked :=
    run.invariant (tracked_start settleHandler) fun _ h hStep _ => h.step hStep
  exact hTracked.noOrphan

def openUntil (endTime : Time) : Auction where
  id := 7
  title := "Clock"
  description := ""
  startingPrice := 0
  currentPrice := 0
  imageUrl := none
  startTime := 0
  endTime := endTime
  isActive := true
  isCompleted := false
  winnerId := none
  createdBy := 1
  categoryId := none
  endingSoonNotified := false
  auctionType := .bid
  binPrice := none
  extensionsCount := 0

/-- A task is replaced while it waits for its lot, is answered all the same, and re-arms the
lot that has been extended. The task that has replaced it never runs. -/
theorem no_orphan_replaced :
    ∃ s : EventLoop, s.registry.completionTasks 7 = some 2 ∧ NoOrphan s := by
  obtain ⟨s, run, hSlot⟩ := Runs.exists_reaches step (fun _ _ => True) (start true)
    [.schedule (openUntil 10), .returned 0 0 none, .returned 0 10 none,
      .schedule (openUntil 20), .returned 0 11 (some (openUntil 30)), .stopped 0, .stopped 1]
    (fun s => s.registry.completionTasks 7 = some 2) (by decide +kernel)
  exact ⟨s, hSlot, no_orphan run⟩

end EventLoop

end OnlineAuction.Scheduler
