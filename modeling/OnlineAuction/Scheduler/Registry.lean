import OnlineAuction.Library.Table
import OnlineAuction.Market.Records

/-! The completion tasks of `app/services/auction_scheduler.py`: the functions
that change the registry run without a yield, each as one step. -/

namespace OnlineAuction.Scheduler

inductive TaskStatus where
  | sleeping
  | ticking
  | cancelled
  | finished
  deriving DecidableEq

/-- A task running `_wait_and_complete`. -/
structure CompletionTask where
  auctionId : LotId
  expectedEnd : Time
  status : TaskStatus
  deriving DecidableEq

/-- `not task.done()`, and not asked to stop. -/
def CompletionTask.live (task : CompletionTask) : Bool :=
  task.status = .sleeping || task.status = .ticking

/-- `_completion_tasks`, and every task ever created. -/
structure Registry where
  completionTasks : LotId → Option Nat
  tasks : Table CompletionTask

namespace Registry

def empty : Registry := ⟨fun _ => none, .empty⟩

/-- `if not task.done(): task.cancel()`. -/
def cancelTask (r : Registry) (task : Nat) : Registry :=
  { r with tasks := r.tasks.modify task fun t => if t.live then { t with status := .cancelled } else t }

/-- `cancel_auction`. -/
def cancelAuction (r : Registry) (auctionId : LotId) : Registry :=
  match r.completionTasks auctionId with
  | none => r
  | some task =>
      { r.cancelTask task with
        completionTasks := Function.update r.completionTasks auctionId none }

/-- `_arm_completion_task`, called by the task `current` or by a request. -/
def armCompletionTask (r : Registry) (current : Option Nat) (auctionId : LotId) (endTime : Time) :
    Registry :=
  let r := match r.completionTasks auctionId with
    | none => r
    | some existing => if some existing = current then r else r.cancelTask existing
  { completionTasks := Function.update r.completionTasks auctionId (some r.tasks.serial)
    tasks := r.tasks.add fun _ => ⟨auctionId, endTime, .sleeping⟩ }

/-- `schedule_auction`. -/
def scheduleAuction (r : Registry) (current : Option Nat) (auction : Auction) : Registry :=
  let r := r.cancelAuction auction.id
  if auction.isActive then r.armCompletionTask current auction.id auction.endTime else r

def wake (r : Registry) (task : Nat) : Registry :=
  { r with tasks := r.tasks.modify task fun t => { t with status := .ticking } }

/-- The `finally` clause of `_wait_and_complete`, with which the task ends. -/
def finish (r : Registry) (task : Nat) (auctionId : LotId) : Registry where
  completionTasks :=
    if r.completionTasks auctionId = some task then
      Function.update r.completionTasks auctionId none
    else r.completionTasks
  tasks := r.tasks.modify task fun t => { t with status := .finished }

/-- Every slot holds a live task of its own lot. -/
def Sound (r : Registry) : Prop :=
  ∀ auctionId task, r.completionTasks auctionId = some task →
    ∃ t, r.tasks.get task = some t ∧ t.auctionId = auctionId ∧ t.live = true

/-- The slot of the lot holds a live task that is due by then. -/
def Armed (r : Registry) (auctionId : LotId) (due : Time) : Prop :=
  ∃ task t, r.completionTasks auctionId = some task ∧ r.tasks.get task = some t ∧
    t.live = true ∧ t.expectedEnd ≤ due

theorem Armed.mono {r : Registry} {auctionId : LotId} {due due' : Time} (h : r.Armed auctionId due)
    (hDue : due ≤ due') : r.Armed auctionId due' := by
  obtain ⟨task, t, hSlot, hTask, hLive, hEnd⟩ := h
  exact ⟨task, t, hSlot, hTask, hLive, hEnd.trans hDue⟩

/-- A change on behalf of one lot: its slot is emptied or given a new task, and
no task is touched but that it may be cancelled if it was the lot's. -/
structure Reworks (auctionId : LotId) (r r' : Registry) : Prop where
  sound : r'.Sound
  others : ∀ id, id ≠ auctionId → r'.completionTasks id = r.completionTasks id
  fresh : ∀ task, r'.completionTasks auctionId = some task → r.tasks.serial ≤ task
  serial : r.tasks.serial ≤ r'.tasks.serial
  kept : ∀ task t, r.tasks.get task = some t → ∃ t', r'.tasks.get task = some t' ∧
    t'.auctionId = t.auctionId ∧ t'.expectedEnd = t.expectedEnd ∧
      (t'.status = t.status ∨ t.auctionId = auctionId ∧ t.live = true ∧ t'.status = .cancelled)
  created : ∀ task t', r'.tasks.get task = some t' →
    (r.tasks.get task).isSome ∨ t'.auctionId = auctionId ∧ t'.status ≠ .ticking

namespace Reworks

variable {auctionId : LotId} {r r' r'' : Registry}

/-- The tasks of the other lots are left alone. -/
theorem armed_other (h : Reworks auctionId r r') (hSound : r.Sound) {id : LotId}
    (hId : id ≠ auctionId) {due : Time} (hArmed : r.Armed id due) : r'.Armed id due := by
  obtain ⟨task, t, hSlot, hTask, hLive, hEnd⟩ := hArmed
  obtain ⟨owned, hOwned, hOwner, _⟩ := hSound id task hSlot
  rw [hTask, Option.some.injEq] at hOwned
  subst hOwned
  obtain ⟨t', hTask', _, hEnd', hStatus⟩ := h.kept task t hTask
  rcases hStatus with hSame | ⟨hMine, _⟩
  · refine ⟨task, t', (h.others id hId).trans hSlot, hTask', ?_, hEnd'.trans_le hEnd⟩
    simpa [CompletionTask.live, hSame] using hLive
  · exact absurd (hOwner.symm.trans hMine) hId

theorem trans (h : Reworks auctionId r r') (h' : Reworks auctionId r' r'') :
    Reworks auctionId r r'' where
  sound := h'.sound
  others id hId := (h'.others id hId).trans (h.others id hId)
  fresh task hTask := h.serial.trans (h'.fresh task hTask)
  serial := h.serial.trans h'.serial
  kept task t hTask := by
    obtain ⟨t', hTask', hLot', hEnd', hStatus'⟩ := h.kept task t hTask
    obtain ⟨t'', hTask'', hLot'', hEnd'', hStatus''⟩ := h'.kept task t' hTask'
    refine ⟨t'', hTask'', hLot''.trans hLot', hEnd''.trans hEnd', ?_⟩
    rcases hStatus' with hSame | ⟨hMine, hLive, hCancelled⟩
    · refine hStatus''.imp (fun hSame' => hSame'.trans hSame) fun ⟨hMine, hLive, hCancelled⟩ => ?_
      exact ⟨hLot' ▸ hMine, by simpa [CompletionTask.live, hSame] using hLive, hCancelled⟩
    · rcases hStatus'' with hSame' | ⟨_, _, hCancelled'⟩
      · exact .inr ⟨hMine, hLive, hSame'.trans hCancelled⟩
      · exact .inr ⟨hMine, hLive, hCancelled'⟩
  created task t'' hTask'' := by
    rcases h'.created task t'' hTask'' with hOld | hNew
    · obtain ⟨t', hTask'⟩ := Option.isSome_iff_exists.mp hOld
      refine (h.created task t' hTask').imp_right fun ⟨hMine, hStatus⟩ => ?_
      obtain ⟨found, hFound, hLot, _, hLater⟩ := h'.kept task t' hTask'
      rw [hTask'', Option.some.injEq] at hFound
      subst hFound
      refine ⟨hLot.trans hMine, ?_⟩
      rcases hLater with hSame | ⟨_, _, hCancelled⟩
      · rwa [hSame]
      · simp [hCancelled]
    · exact .inr hNew

end Reworks

/-- Cancelling changes the status of one task at most, and of a live one only. -/
theorem cancelTask_kept {r : Registry} (cancelled : Nat) {task : Nat} {t : CompletionTask}
    (hTask : r.tasks.get task = some t) :
    ∃ t', (r.cancelTask cancelled).tasks.get task = some t' ∧ t'.auctionId = t.auctionId ∧
      t'.expectedEnd = t.expectedEnd ∧
        (t'.status = t.status ∨ task = cancelled ∧ t.live = true ∧ t'.status = .cancelled) := by
  by_cases hSame : task = cancelled
  · subst hSame
    unfold cancelTask
    rw [Table.get_modify_self, hTask, Option.map_some]
    by_cases hLive : t.live = true
    · exact ⟨_, rfl, by simp [hLive], by simp [hLive], .inr ⟨rfl, hLive, by simp [hLive]⟩⟩
    · exact ⟨_, rfl, by simp [hLive], by simp [hLive], .inl (by simp [hLive])⟩
  · exact ⟨t, (Table.get_modify_other _ _ hSame).trans hTask, rfl, rfl, .inl rfl⟩

theorem cancelTask_isSome (r : Registry) (cancelled task : Nat) :
    ((r.cancelTask cancelled).tasks.get task).isSome = (r.tasks.get task).isSome := by
  simp [cancelTask, Table.modify]

section

variable {r : Registry} (hSound : r.Sound) (auctionId : LotId)

include hSound

/-- The owner of the slot, when a task of it is cancelled, is the lot. -/
theorem Sound.cancel_kept {existing : Nat} (hSlot : r.completionTasks auctionId = some existing)
    {task : Nat} {t : CompletionTask} (hTask : r.tasks.get task = some t) :
    ∃ t', (r.cancelTask existing).tasks.get task = some t' ∧ t'.auctionId = t.auctionId ∧
      t'.expectedEnd = t.expectedEnd ∧
        (t'.status = t.status ∨ t.auctionId = auctionId ∧ t.live = true ∧
          t'.status = .cancelled) := by
  obtain ⟨t', hTask', hLot, hEnd, hStatus⟩ := cancelTask_kept existing hTask
  refine ⟨t', hTask', hLot, hEnd, hStatus.imp_right fun ⟨hSame, hLive, hCancelled⟩ => ?_⟩
  subst hSame
  obtain ⟨owner, hOwner, hOwned, _⟩ := hSound auctionId task hSlot
  rw [hTask, Option.some.injEq] at hOwner
  exact ⟨hOwner ▸ hOwned, hLive, hCancelled⟩

/-- A live task of another lot is live afterwards. -/
theorem Sound.live_other {existing : Nat} (hSlot : r.completionTasks auctionId = some existing)
    {id : LotId} (hId : id ≠ auctionId) {task : Nat} (hOther : r.completionTasks id = some task) :
    ∃ t, (r.cancelTask existing).tasks.get task = some t ∧ t.auctionId = id ∧ t.live = true := by
  obtain ⟨t, hTask, hLot, hLive⟩ := hSound id task hOther
  obtain ⟨t', hTask', hLot', _, hStatus⟩ := hSound.cancel_kept auctionId hSlot hTask
  rcases hStatus with hSame | ⟨hMine, _⟩
  · refine ⟨t', hTask', hLot'.trans hLot, ?_⟩
    simpa [CompletionTask.live, hSame] using hLive
  · exact absurd (hLot.symm.trans hMine) hId

/-- Cancelling reworks the slot of its lot alone. -/
theorem cancelAuction_reworks : Reworks auctionId r (r.cancelAuction auctionId) := by
  unfold cancelAuction
  cases hSlot : r.completionTasks auctionId with
  | none =>
      exact ⟨hSound, fun _ _ => rfl, fun task hTask => by simp [hSlot] at hTask, le_rfl,
        fun task t hTask => ⟨t, hTask, rfl, rfl, .inl rfl⟩,
        fun task t hTask => .inl (by simp [hTask])⟩
  | some existing =>
      refine ⟨fun id task hTask => ?_, fun id hId => Function.update_of_ne hId _ _, ?_, le_rfl,
        fun task t hTask => hSound.cancel_kept auctionId hSlot hTask, fun task t hTask => .inl ?_⟩
      · by_cases hId : id = auctionId
        · subst hId
          simp at hTask
        · exact hSound.live_other auctionId hSlot hId
            ((Function.update_of_ne hId _ _).symm.trans hTask)
      · intro task hTask
        simp at hTask
      · rw [← r.cancelTask_isSome existing]
        exact Option.isSome_of_eq_some hTask

end

/-- The table in which a new task is created for a slot: the occupant is
cancelled unless it is the caller. -/
theorem armCompletionTask_eq (r : Registry) (current : Option Nat) (auctionId : LotId)
    (endTime : Time) : ∃ middle : Registry,
      (middle = r ∨ ∃ existing, r.completionTasks auctionId = some existing ∧
        middle = r.cancelTask existing) ∧
      r.armCompletionTask current auctionId endTime =
        { completionTasks := Function.update r.completionTasks auctionId (some r.tasks.serial)
          tasks := middle.tasks.add fun _ => ⟨auctionId, endTime, .sleeping⟩ } := by
  unfold armCompletionTask
  cases hSlot : r.completionTasks auctionId with
  | none => exact ⟨r, .inl rfl, rfl⟩
  | some existing =>
      by_cases hCurrent : some existing = current
      · refine ⟨r, .inl rfl, ?_⟩
        simp [hCurrent]
      · refine ⟨r.cancelTask existing, .inr ⟨existing, rfl, rfl⟩, ?_⟩
        simp [hCurrent, cancelTask]

/-- Arming reworks the slot of its lot alone. -/
theorem armCompletionTask_reworks {r : Registry} (hSound : r.Sound) (current : Option Nat)
    (auctionId : LotId) (endTime : Time) :
    Reworks auctionId r (r.armCompletionTask current auctionId endTime) := by
  obtain ⟨middle, hMiddle, hArmed⟩ := r.armCompletionTask_eq current auctionId endTime
  have hSerial : middle.tasks.serial = r.tasks.serial := by
    rcases hMiddle with rfl | ⟨existing, _, rfl⟩ <;> rfl
  have hIsSome (task : Nat) : (middle.tasks.get task).isSome = (r.tasks.get task).isSome := by
    rcases hMiddle with rfl | ⟨existing, _, rfl⟩
    · rfl
    · exact r.cancelTask_isSome existing task
  have hKept {task : Nat} {t : CompletionTask} (hTask : r.tasks.get task = some t) :
      ∃ t', middle.tasks.get task = some t' ∧ t'.auctionId = t.auctionId ∧
        t'.expectedEnd = t.expectedEnd ∧ (t'.status = t.status ∨
          t.auctionId = auctionId ∧ t.live = true ∧ t'.status = .cancelled) := by
    rcases hMiddle with rfl | ⟨existing, hSlot, rfl⟩
    · exact ⟨t, hTask, rfl, rfl, .inl rfl⟩
    · exact hSound.cancel_kept auctionId hSlot hTask
  have hOther {id : LotId} (hId : id ≠ auctionId) {task : Nat}
      (hSlot : r.completionTasks id = some task) :
      ∃ t, middle.tasks.get task = some t ∧ t.auctionId = id ∧ t.live = true := by
    rcases hMiddle with rfl | ⟨existing, hMine, rfl⟩
    · exact hSound id task hSlot
    · exact hSound.live_other auctionId hMine hId hSlot
  rw [hArmed]
  refine ⟨fun id task hTask => ?_, fun id hId => Function.update_of_ne hId _ _, ?_, ?_, ?_, ?_⟩
  · by_cases hId : id = auctionId
    · subst hId
      simp only [Function.update_self, Option.some.injEq] at hTask
      exact ⟨⟨id, endTime, .sleeping⟩, by simp [← hTask, hSerial], rfl, rfl⟩
    · obtain ⟨t, hFound, hLot, hLive⟩ := hOther hId ((Function.update_of_ne hId _ _).symm.trans hTask)
      exact ⟨t, Table.get_add_old hFound _, hLot, hLive⟩
  · intro task hTask
    simp only [Function.update_self, Option.some.injEq] at hTask
    exact hTask.le
  · simp [hSerial]
  · intro task t hTask
    obtain ⟨t', hTask', hRest⟩ := hKept hTask
    exact ⟨t', Table.get_add_old hTask' _, hRest⟩
  · intro task t hTask
    rcases Table.of_get_add hTask with ⟨_, rfl⟩ | hTask
    · exact .inr ⟨rfl, by simp⟩
    · exact .inl (by rw [← hIsSome, hTask, Option.isSome_some])

/-- A lot is armed by arming it. -/
theorem armed_armCompletionTask (r : Registry) (current : Option Nat) (auctionId : LotId)
    (endTime : Time) : (r.armCompletionTask current auctionId endTime).Armed auctionId endTime := by
  obtain ⟨middle, hMiddle, hArmed⟩ := r.armCompletionTask_eq current auctionId endTime
  have hSerial : middle.tasks.serial = r.tasks.serial := by
    rcases hMiddle with rfl | ⟨existing, _, rfl⟩ <;> rfl
  rw [hArmed]
  exact ⟨r.tasks.serial, ⟨auctionId, endTime, .sleeping⟩, Function.update_self _ _ _,
    by simp [← hSerial], rfl, le_rfl⟩

/-- Scheduling reworks the slot of its lot alone. -/
theorem scheduleAuction_reworks {r : Registry} (hSound : r.Sound) (current : Option Nat)
    (auction : Auction) : Reworks auction.id r (r.scheduleAuction current auction) := by
  have hCancel := cancelAuction_reworks hSound auction.id
  unfold scheduleAuction
  dsimp only
  split_ifs
  · exact hCancel.trans (armCompletionTask_reworks hCancel.sound current auction.id auction.endTime)
  · exact hCancel

/-- Scheduling an active lot arms it for its deadline. -/
theorem armed_scheduleAuction (r : Registry) (current : Option Nat) {auction : Auction}
    (hActive : auction.isActive = true) :
    (r.scheduleAuction current auction).Armed auction.id auction.endTime := by
  unfold scheduleAuction
  dsimp only
  rw [if_pos hActive]
  exact armed_armCompletionTask _ current auction.id auction.endTime

/-- The slot is emptied if the task that ends is in it. -/
theorem completionTasks_finish (r : Registry) (task : Nat) (auctionId : LotId) {id : LotId}
    {occupant : Nat} : (r.finish task auctionId).completionTasks id = some occupant ↔
      r.completionTasks id = some occupant ∧ ¬(id = auctionId ∧ occupant = task) := by
  unfold finish
  dsimp only
  by_cases hId : id = auctionId
  · subst hId
    split_ifs with hSlot
    · simp only [Function.update_self, reduceCtorEq, false_iff, not_and, not_not, true_and]
      exact fun hOccupied => Option.some.inj (hOccupied.symm.trans hSlot)
    · simp only [true_and, iff_self_and]
      rintro hOccupied rfl
      exact hSlot hOccupied
  · split_ifs <;> simp [hId]

theorem tasks_finish_other (r : Registry) {task other : Nat} (auctionId : LotId)
    (hOther : other ≠ task) : (r.finish task auctionId).tasks.get other = r.tasks.get other :=
  Table.get_modify_other _ _ hOther

theorem tasks_finish_self {r : Registry} {task : Nat} {t : CompletionTask} (auctionId : LotId)
    (hTask : r.tasks.get task = some t) :
    (r.finish task auctionId).tasks.get task = some { t with status := .finished } := by
  simp [finish, hTask]

theorem tasks_wake_other (r : Registry) {task other : Nat} (hOther : other ≠ task) :
    (r.wake task).tasks.get other = r.tasks.get other :=
  Table.get_modify_other _ _ hOther

theorem tasks_wake_self {r : Registry} {task : Nat} {t : CompletionTask}
    (hTask : r.tasks.get task = some t) :
    (r.wake task).tasks.get task = some { t with status := .ticking } := by
  simp [wake, hTask]

/-- Waking up leaves a task as live as it was. -/
theorem tasks_wake {r : Registry} {task other : Nat} {t : CompletionTask}
    (hOther : r.tasks.get other = some t) :
    ∃ t', (r.wake task).tasks.get other = some t' ∧ t'.auctionId = t.auctionId ∧
      t'.expectedEnd = t.expectedEnd ∧ (t.live = true → t'.live = true) := by
  by_cases hSame : other = task
  · subst hSame
    exact ⟨_, tasks_wake_self hOther, rfl, rfl, fun _ => rfl⟩
  · exact ⟨t, (r.tasks_wake_other hSame).trans hOther, rfl, rfl, fun hLive => hLive⟩

/-- Waking a task keeps the slots sound. -/
theorem Sound.wake {r : Registry} (h : r.Sound) (task : Nat) : (r.wake task).Sound := by
  intro auctionId occupant hSlot
  obtain ⟨t, hTask, hLot, hLive⟩ := h auctionId occupant hSlot
  obtain ⟨t', hTask', hLot', _, hLive'⟩ := tasks_wake hTask
  exact ⟨t', hTask', hLot'.trans hLot, hLive' hLive⟩

/-- A lot stays armed when its task wakes. -/
theorem Armed.wake {r : Registry} {auctionId : LotId} {due : Time} (h : r.Armed auctionId due)
    (task : Nat) : (r.wake task).Armed auctionId due := by
  obtain ⟨occupant, t, hSlot, hTask, hLive, hEnd⟩ := h
  obtain ⟨t', hTask', _, hEnd', hLive'⟩ := tasks_wake hTask
  exact ⟨occupant, t', hSlot, hTask', hLive' hLive, hEnd'.trans_le hEnd⟩

section

variable {r : Registry} (hSound : r.Sound) {task : Nat} {t : CompletionTask}
  (hTask : r.tasks.get task = some t)

include hSound hTask

/-- A task is in no slot but that of its lot. -/
theorem Sound.owner {auctionId : LotId} (hSlot : r.completionTasks auctionId = some task) :
    t.auctionId = auctionId := by
  obtain ⟨owner, hOwner, hLot, _⟩ := hSound auctionId task hSlot
  rw [hTask, Option.some.injEq] at hOwner
  exact hOwner ▸ hLot

/-- The end of a task that clears its slot keeps the slots sound. -/
theorem Sound.finish : (r.finish task t.auctionId).Sound := by
  intro id occupant hSlot
  obtain ⟨hOccupied, hNot⟩ := (r.completionTasks_finish task t.auctionId).mp hSlot
  have hOther : occupant ≠ task := by
    rintro rfl
    exact hNot ⟨(hSound.owner hTask hOccupied).symm, rfl⟩
  rw [r.tasks_finish_other _ hOther]
  exact hSound id occupant hOccupied

/-- The end of a task leaves the other slots alone, and that of its lot when it
is not in it. -/
theorem Armed.finish {id : LotId} {due : Time} (hArmed : r.Armed id due)
    (hNot : id = t.auctionId → r.completionTasks id ≠ some task) :
    (r.finish task t.auctionId).Armed id due := by
  obtain ⟨occupant, found, hSlot, hFound, hLive, hEnd⟩ := hArmed
  have hOther : occupant ≠ task := by
    rintro rfl
    exact hNot (hSound.owner hTask hSlot).symm hSlot
  refine ⟨occupant, found, ?_, ?_, hLive, hEnd⟩
  · exact (r.completionTasks_finish task t.auctionId).mpr ⟨hSlot, fun hSame => hOther hSame.2⟩
  · rwa [r.tasks_finish_other _ hOther]

end

/-- Of these tasks the live ones are in the slots of their lots. -/
def Tracks (r : Registry) (mine : Nat → Prop) : Prop :=
  ∀ task t, mine task → r.tasks.get task = some t → t.live = true →
    r.completionTasks t.auctionId = some task

section

variable {r : Registry} {mine other : Nat → Prop} {auctionId : LotId}

theorem Tracks.mono (h : r.Tracks mine)
    (hMine : ∀ task t, r.tasks.get task = some t → other task → mine task) : r.Tracks other :=
  fun task t hOther hTask => h task t (hMine task t hTask hOther) hTask

/-- A task that is live after a cancellation is another one. -/
theorem live_cancelTask {cancelled task : Nat} {t : CompletionTask}
    (hTask : (r.cancelTask cancelled).tasks.get task = some t) (hLive : t.live = true) :
    task ≠ cancelled ∧ r.tasks.get task = some t := by
  by_cases hSame : task = cancelled
  · subst hSame
    rw [cancelTask, Table.get_modify_self] at hTask
    obtain ⟨was, -, rfl⟩ := Option.map_eq_some_iff.mp hTask
    split_ifs at hLive with hWas
    · cases hLive
    · exact absurd hLive hWas
  · exact ⟨hSame, by rwa [cancelTask, Table.get_modify_other _ _ hSame] at hTask⟩

/-- After a cancellation no task of the lot is live. -/
theorem Tracks.live_cancelAuction (h : r.Tracks mine) {task : Nat} {t : CompletionTask}
    (hMine : mine task) (hTask : (r.cancelAuction auctionId).tasks.get task = some t)
    (hLive : t.live = true) : t.auctionId ≠ auctionId ∧ r.tasks.get task = some t := by
  unfold cancelAuction at hTask
  cases hSlot : r.completionTasks auctionId with
  | none =>
      rw [hSlot] at hTask
      refine ⟨?_, hTask⟩
      rintro rfl
      cases hSlot.symm.trans (h task t hMine hTask hLive)
  | some existing =>
      rw [hSlot] at hTask
      obtain ⟨hOther, hWas⟩ := live_cancelTask hTask hLive
      refine ⟨?_, hWas⟩
      rintro rfl
      exact hOther (Option.some.inj ((h task t hMine hWas hLive).symm.trans hSlot))

theorem completionTasks_cancelAuction_self (r : Registry) (auctionId : LotId) :
    (r.cancelAuction auctionId).completionTasks auctionId = none := by
  unfold cancelAuction
  cases hSlot : r.completionTasks auctionId with
  | none => exact hSlot
  | some existing => exact Function.update_self ..

theorem completionTasks_cancelAuction_other {id : LotId} (h : id ≠ auctionId) :
    (r.cancelAuction auctionId).completionTasks id = r.completionTasks id := by
  unfold cancelAuction
  split
  · rfl
  · exact Function.update_of_ne h _ _

theorem serial_cancelAuction (r : Registry) (auctionId : LotId) :
    (r.cancelAuction auctionId).tasks.serial = r.tasks.serial := by
  unfold cancelAuction
  split <;> rfl

/-- Cancelling loses no live task. -/
theorem Tracks.cancelAuction (h : r.Tracks mine) : (r.cancelAuction auctionId).Tracks mine := by
  intro task t hMine hTask hLive
  obtain ⟨hOther, hWas⟩ := h.live_cancelAuction hMine hTask hLive
  rw [completionTasks_cancelAuction_other hOther]
  exact h task t hMine hWas hLive

/-- A new task is put into a slot that none of these tasks is in. -/
theorem Tracks.add (h : r.Tracks mine) (endTime : Time) (hFree : ∀ task t, mine task →
      r.tasks.get task = some t → t.live = true → t.auctionId ≠ auctionId) :
    Tracks ⟨Function.update r.completionTasks auctionId (some r.tasks.serial),
      r.tasks.add fun _ => ⟨auctionId, endTime, .sleeping⟩⟩
        fun task => task = r.tasks.serial ∨ mine task := by
  intro task t hMine hTask hLive
  simp only [Table.get_add] at hTask
  split_ifs at hTask with hNew
  · cases hTask
    rw [hNew]
    exact Function.update_self ..
  · have hOld := hMine.resolve_left hNew
    show Function.update _ auctionId _ t.auctionId = _
    rw [Function.update_of_ne (hFree task t hOld hTask hLive)]
    exact h task t hOld hTask hLive

/-- A task in the slot arms it anew. -/
theorem armCompletionTask_self {current : Nat} (hSlot : r.completionTasks auctionId = some current)
    (endTime : Time) : r.armCompletionTask (some current) auctionId endTime =
      ⟨Function.update r.completionTasks auctionId (some r.tasks.serial),
        r.tasks.add fun _ => ⟨auctionId, endTime, .sleeping⟩⟩ := by
  unfold armCompletionTask
  rw [hSlot]
  simp

/-- Anybody else who arms the slot cancels whoever is in it. -/
theorem armCompletionTask_other {current : Option Nat}
    (hSlot : ∀ existing, r.completionTasks auctionId = some existing → some existing ≠ current)
    (endTime : Time) : r.armCompletionTask current auctionId endTime =
      ⟨Function.update (r.cancelAuction auctionId).completionTasks auctionId
        (some (r.cancelAuction auctionId).tasks.serial),
        (r.cancelAuction auctionId).tasks.add fun _ => ⟨auctionId, endTime, .sleeping⟩⟩ := by
  unfold armCompletionTask cancelAuction
  cases hExisting : r.completionTasks auctionId with
  | none => rfl
  | some existing => simp [hSlot existing hExisting, cancelTask]

theorem armCompletionTask_vacant (hSlot : r.completionTasks auctionId = none)
    (current : Option Nat) (endTime : Time) : r.armCompletionTask current auctionId endTime =
      r.armCompletionTask none auctionId endTime := by
  unfold armCompletionTask
  rw [hSlot]

/-- The new task is in the slot, and of these tasks all but the one that has armed it
are where they were, if they are live. -/
theorem Tracks.armCompletionTask (h : r.Tracks mine) (current : Option Nat) (endTime : Time) :
    (r.armCompletionTask current auctionId endTime).Tracks fun task =>
      task = r.tasks.serial ∨ (mine task ∧ some task ≠ current) := by
  by_cases hSelf : ∃ existing, r.completionTasks auctionId = some existing ∧ some existing = current
  · obtain ⟨existing, hSlot, rfl⟩ := hSelf
    rw [armCompletionTask_self hSlot]
    apply (h.mono fun _ _ _ hMine => hMine.1).add
    rintro task t ⟨hMine, hNot⟩ hTask hLive rfl
    exact hNot ((h task t hMine hTask hLive).symm.trans hSlot)
  · have hOther : ∀ existing, r.completionTasks auctionId = some existing →
        some existing ≠ current := fun existing hSlot hSame => hSelf ⟨existing, hSlot, hSame⟩
    rw [armCompletionTask_other hOther, ← r.serial_cancelAuction auctionId]
    apply (h.cancelAuction.add endTime fun task t hMine hTask hLive =>
      (h.live_cancelAuction hMine hTask hLive).1).mono
    intro task _ _ hMine
    exact hMine.imp_right And.left

/-- A task that schedules its own lot is cancelled like any other. -/
theorem Tracks.scheduleAuction (h : r.Tracks mine) (current : Option Nat) (auction : Auction) :
    (r.scheduleAuction current auction).Tracks fun task => task = r.tasks.serial ∨ mine task := by
  have hCancel : (r.cancelAuction auction.id).Tracks mine := h.cancelAuction
  unfold Registry.scheduleAuction
  dsimp only
  split_ifs
  · rw [armCompletionTask_vacant (r.completionTasks_cancelAuction_self auction.id),
      ← r.serial_cancelAuction auction.id]
    apply (hCancel.armCompletionTask none auction.endTime).mono
    intro task _ _ hMine
    exact hMine.imp_right fun hOld => ⟨hOld, by simp⟩
  · apply hCancel.mono
    intro task t hTask hMine
    apply hMine.resolve_left
    rintro rfl
    rw [Table.unused _ _ (r.serial_cancelAuction auction.id).le] at hTask
    cases hTask

theorem Tracks.wake (h : r.Tracks mine) {task : Nat} {t : CompletionTask}
    (hTask : r.tasks.get task = some t) (hLive : t.live = true) : (r.wake task).Tracks mine := by
  intro other t' hMine hOther hLive'
  by_cases hSame : other = task
  · subst hSame
    rw [tasks_wake_self hTask, Option.some.injEq] at hOther
    subst hOther
    exact h other t hMine hTask hLive
  · rw [r.tasks_wake_other hSame] at hOther
    exact h other t' hMine hOther hLive'

/-- The end of a task loses no other live task. -/
theorem Tracks.finish (h : r.Tracks mine) {task : Nat} {t : CompletionTask}
    (hTask : r.tasks.get task = some t) : (r.finish task t.auctionId).Tracks mine := by
  intro other t' hMine hOther hLive'
  have hNot : other ≠ task := by
    rintro rfl
    rw [tasks_finish_self t.auctionId hTask, Option.some.injEq] at hOther
    subst hOther
    cases hLive'
  rw [r.tasks_finish_other _ hNot] at hOther
  exact (r.completionTasks_finish task t.auctionId).mpr
    ⟨h other t' hMine hOther hLive', fun hSame => hNot hSame.2⟩

end

end Registry

end OnlineAuction.Scheduler
