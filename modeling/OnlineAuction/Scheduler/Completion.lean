import OnlineAuction.Scheduler.Requests

/-! The invariant across the steps of a completion tick, from the end of its
sleep to the end of its task. -/

namespace OnlineAuction.Scheduler

variable {sid task : Nat} {p p' : Process} {auctionId : LotId} {auction : Auction}
  {t : Time} {passes : Bool}

/-- A task that has been asked to stop is in no slot. -/
theorem Standing.slot_of_cancelled (h : Standing p) (hCancelled : p.cancelled task = true) :
    p.registry.completionTasks auctionId ≠ some task := by
  intro hSlot
  obtain ⟨found, hTask, _, hLive⟩ := h.sound auctionId task hSlot
  simp only [Process.cancelled, hTask, Option.any_some, decide_eq_true_eq] at hCancelled
  simp [CompletionTask.live, hCancelled] at hLive

/-- A tick that has armed the lot anew is no longer in its slot. -/
theorem Ticks.slot_of_reworks (h : Ticks p) {id : LotId}
    (hTick : (p.sessions sid).tick = some (task, id)) {registry : Registry}
    (hReworks : Registry.Reworks auctionId p.registry registry) :
    registry.completionTasks auctionId ≠ some task := fun hSlot =>
  absurd (h.lt_serial hTick) (not_lt.mpr (hReworks.fresh task hSlot))

theorem Frame.wake : Frame sid p (p.setRegistry (p.registry.wake task)) :=
  .setRegistry (fun _ _ hSlot => .inl hSlot) le_rfl

/-- A tick runs a task that is not asleep. -/
theorem Ticks.awake_of_runs (h : Ticks p) {id : LotId}
    (hRuns : (p.sessions sid).tick = some (task, id)) {found : CompletionTask}
    (hTask : p.registry.tasks.get task = some found) : found.status ≠ .sleeping := by
  obtain ⟨run, hRun, _, hStatus⟩ := h.runs sid task id hRuns
  rw [hTask, Option.some.injEq] at hRun
  subst hRun
  rcases hStatus with hStatus | hStatus <;> simp [hStatus]

theorem Ticks.wake (h : Ticks p) (hIdle : p.sessions sid = .idle) {woken : CompletionTask}
    (hTask : p.registry.tasks.get task = some woken) (hSleeping : woken.status = .sleeping) :
    Ticks ((p.setRegistry (p.registry.wake task)).enter sid (.tickLoads task woken.auctionId)) := by
  have hSelf : (((p.setRegistry (p.registry.wake task)).enter sid
      (.tickLoads task woken.auctionId)).sessions sid).tick = some (task, woken.auctionId) := by
    rw [Process.sessions_enter]
    rfl
  have hOther {s : Nat} (hSid : s ≠ sid) : ((p.setRegistry (p.registry.wake task)).enter sid
      (.tickLoads task woken.auctionId)).sessions s = p.sessions s :=
    Function.update_of_ne hSid _ _
  have hNew {s other : Nat} {id : LotId} (hRuns : (p.sessions s).tick = some (other, id)) :
      other ≠ task := by
    rintro rfl
    exact h.awake_of_runs hRuns hTask hSleeping
  refine ⟨fun s other id hRuns => ?_, fun s s' other id id' hRuns hRuns' => ?_,
    fun other found hFound hAwake => ?_, fun other found hFound => ?_⟩
  · by_cases hSid : s = sid
    · subst hSid
      rw [hSelf] at hRuns
      cases hRuns
      exact ⟨_, Registry.tasks_wake_self hTask, rfl, .inl rfl⟩
    · rw [hOther hSid] at hRuns
      obtain ⟨run, hRun, hRest⟩ := h.runs s other id hRuns
      exact ⟨run, (p.registry.tasks_wake_other (hNew hRuns)).trans hRun, hRest⟩
  · by_cases hSid : s = sid <;> by_cases hSid' : s' = sid
    · rw [hSid, hSid']
    · subst hSid
      rw [hSelf] at hRuns
      cases hRuns
      rw [hOther hSid'] at hRuns'
      exact absurd rfl (hNew hRuns')
    · subst hSid'
      rw [hSelf] at hRuns'
      cases hRuns'
      rw [hOther hSid] at hRuns
      exact absurd rfl (hNew hRuns)
    · rw [hOther hSid] at hRuns
      rw [hOther hSid'] at hRuns'
      exact h.unique s s' other id id' hRuns hRuns'
  · by_cases hSame : other = task
    · subst hSame
      obtain rfl := Option.some.inj (hFound.symm.trans (Registry.tasks_wake_self hTask))
      exact ⟨sid, hSelf⟩
    · obtain ⟨s, hRuns⟩ := h.awake other found
        ((p.registry.tasks_wake_other hSame).symm.trans hFound) hAwake
      have hSid : s ≠ sid := by
        rintro rfl
        simp [hIdle, Phase.tick] at hRuns
      exact ⟨s, by rw [hOther hSid, hRuns]⟩
  · by_cases hSame : other = task
    · subst hSame
      obtain rfl := Option.some.inj (hFound.symm.trans (Registry.tasks_wake_self hTask))
      exact h.lots other woken hTask
    · exact h.lots other found ((p.registry.tasks_wake_other hSame).symm.trans hFound)

/-- A task that wakes begins its tick. -/
theorem Standing.wake (h : Standing p) (hIdle : p.sessions sid = .idle) {woken : CompletionTask}
    (hTask : p.registry.tasks.get task = some woken) (hSleeping : woken.status = .sleeping) :
    Advances sid p ((p.setRegistry (p.registry.wake task)).enter sid (.tickLoads task woken.auctionId)) := by
  have frame : Frame sid p
      ((p.setRegistry (p.registry.wake task)).enter sid (.tickLoads task woken.auctionId)) :=
    Frame.wake.trans (.enter _ _)
  have hTicks := h.ticks.wake hIdle hTask hSleeping
  refine ⟨frame, ⟨h.rowIds, h.sound.wake task, hTicks, h.phases_next frame ?_⟩, ?_⟩
  · rw [Process.sessions_enter]
    exact h.ticks.lots task woken hTask
  · intro id row hRow hActive hCovered
    refine frame.covered_next (Table.lt_serial hRow) hRow hActive hCovered ?_ fun hOwed => ?_
    · exact fun due _ hArmed => .inl (hArmed.wake task)
    · rw [hIdle] at hOwed
      exact hOwed.elim

theorem Frame.finish (task : Nat) (auctionId : LotId) :
    Frame sid p (p.setRegistry (p.registry.finish task auctionId)) := by
  refine .setRegistry (fun id occupant hSlot => .inl ?_) le_rfl
  exact ((p.registry.completionTasks_finish task auctionId).mp hSlot).1

/-- A tick that ends leaves the other ticks as they are. -/
theorem Ticks.finish (h : Ticks p) {ended : CompletionTask}
    (hWas : (p.sessions sid).tick = some (task, ended.auctionId))
    (hTask : p.registry.tasks.get task = some ended) :
    Ticks ((p.setRegistry (p.registry.finish task ended.auctionId)).leave sid) := by
  have hOther {s : Nat} (hSid : s ≠ sid) :
      ((p.setRegistry (p.registry.finish task ended.auctionId)).leave sid).sessions s =
        p.sessions s :=
    Function.update_of_ne hSid _ _
  have hIdle {s other : Nat} {id : LotId}
      (hRuns : (((p.setRegistry (p.registry.finish task ended.auctionId)).leave sid).sessions s).tick =
        some (other, id)) : s ≠ sid ∧ (p.sessions s).tick = some (other, id) := by
    by_cases hSid : s = sid
    · subst hSid
      simp [Phase.tick] at hRuns
    · exact ⟨hSid, (congrArg Phase.tick (hOther hSid)).symm.trans hRuns⟩
  refine ⟨fun s other id hRuns => ?_, fun s s' other id id' hRuns hRuns' => ?_,
    fun other found hFound hAwake => ?_, fun other found hFound => ?_⟩
  · obtain ⟨hSid, hRan⟩ := hIdle hRuns
    have hNe : other ≠ task := by
      rintro rfl
      exact hSid (h.unique sid s other _ id hWas hRan)
    obtain ⟨run, hRun, hRest⟩ := h.runs s other id hRan
    exact ⟨run, (p.registry.tasks_finish_other _ hNe).trans hRun, hRest⟩
  · exact h.unique s s' other id id' (hIdle hRuns).2 (hIdle hRuns').2
  · have hNe : other ≠ task := by
      rintro rfl
      obtain rfl := Option.some.inj (hFound.symm.trans (Registry.tasks_finish_self _ hTask))
      simp at hAwake
    have hWasFound := (p.registry.tasks_finish_other ended.auctionId hNe).symm.trans hFound
    obtain ⟨s, hRan⟩ := h.awake other found hWasFound hAwake
    have hSid : s ≠ sid := by
      rintro rfl
      rw [hWas, Option.some.injEq] at hRan
      exact hNe (congrArg Prod.fst hRan).symm
    exact ⟨s, by rw [hOther hSid, hRan]⟩
  · by_cases hSame : other = task
    · subst hSame
      obtain rfl := Option.some.inj (hFound.symm.trans (Registry.tasks_finish_self _ hTask))
      exact h.lots other ended hTask
    · exact h.lots other found ((p.registry.tasks_finish_other _ hSame).symm.trans hFound)

/-- If the task is still in its slot, the lot is closed and needs no other. -/
theorem Standing.finish (h : Standing p) (hWas : p.sessions sid = .tickCloses task auctionId) :
    Advances sid p ((p.setRegistry (p.registry.finish task auctionId)).leave sid) := by
  have hTick : (p.sessions sid).tick = some (task, auctionId) := by rw [hWas, Phase.tick]
  have hOk : p.registry.completionTasks auctionId = some task → Closed p auctionId := by
    simpa [hWas, Phase.Ok] using h.phases sid
  obtain ⟨ended, hTask, rfl, _⟩ := h.ticks.runs sid task auctionId hTick
  have frame : Frame sid p ((p.setRegistry (p.registry.finish task ended.auctionId)).leave sid) :=
    (Frame.finish task ended.auctionId).trans (.leave _)
  have hTicks := h.ticks.finish hTick hTask
  refine ⟨frame, ⟨h.rowIds, h.sound.finish hTask, hTicks, h.phases_next frame ?_⟩, ?_⟩
  · rw [Process.sessions_leave]
    trivial
  · intro id row hRow hActive hCovered
    refine frame.covered_next (Table.lt_serial hRow) hRow hActive hCovered (fun due _ hArmed => ?_)
      fun hOwed => ?_
    · refine .inl (hArmed.finish h.sound hTask ?_)
      rintro rfl hSlot
      simp [(hOk hSlot).2 row hRow] at hActive
    · rw [hWas] at hOwed
      exact hOwed.elim

/-- The tick has loaded its lot. -/
theorem resume_tickLoads (h : Standing p) (hWas : p.sessions sid = .tickLoads task auctionId)
    (hStep : resume p sid t passes (.tickLoads task auctionId) = some p') : Advances sid p p' := by
  have hLot : auctionId < p.lots.serial := by simpa [hWas, Phase.Ok] using h.phases sid
  obtain rfl := Option.some.inj hStep
  refine h.enter hWas rfl ?_ fun _ hOwed => hOwed.elim
  cases hRow : p.lots.get auctionId with
  | none => exact ⟨hLot, fun row hFound => by simp [hRow] at hFound⟩
  | some auction =>
      obtain rfl := h.rowIds auctionId auction hRow
      exact ⟨rfl, Stale.of_stored hRow⟩

/-- A lot found closed or gone is so for good. -/
theorem Standing.closed_of_answer (h : Standing p) {answer : Option Auction}
    (hWas : p.sessions sid = .tickDecides task auctionId answer)
    (hNone : answer.filter (fun auction => auction.isActive) = none) : Closed p auctionId := by
  have hOk := h.phases sid
  rw [hWas] at hOk
  cases answer with
  | none => exact hOk
  | some auction =>
      obtain ⟨rfl, hStale⟩ := hOk
      exact hStale.closed fun hActive => by simp [Option.filter, hActive] at hNone

/-- The tick completes the lot, waits on, or ends. -/
theorem resume_tickDecides (h : Standing p) {answer : Option Auction}
    (hWas : p.sessions sid = .tickDecides task auctionId answer)
    (hStep : resume p sid t passes (.tickDecides task auctionId answer) = some p') : Advances sid p p' := by
  have hTick : (p.sessions sid).tick = some (task, auctionId) := by rw [hWas, Phase.tick]
  rw [resume] at hStep
  split_ifs at hStep with hCancelled
  · obtain rfl := Option.some.inj hStep
    refine h.enter hWas rfl (fun hSlot => ?_) fun _ hOwed => hOwed.elim
    exact absurd hSlot (h.slot_of_cancelled hCancelled)
  · cases hFound : answer.filter (fun auction => auction.isActive) with
    | none =>
        simp only [hFound] at hStep
        obtain rfl := Option.some.inj hStep
        refine h.enter hWas rfl (fun _ => ?_) fun _ hOwed => hOwed.elim
        exact h.closed_of_answer hWas hFound
    | some auction =>
        simp only [hFound] at hStep
        obtain ⟨rfl, hActive⟩ := Option.filter_eq_some_iff.mp hFound
        obtain ⟨rfl, hStale⟩ : auction.id = auctionId ∧ Stale p auction := by
          simpa [hWas, Phase.Ok] using h.phases sid
        split_ifs at hStep <;> obtain rfl := Option.some.inj hStep
        · have hReworks := Registry.armCompletionTask_reworks h.sound (some task) auction.id
            auction.endTime
          refine h.rework ((Frame.reworks hReworks).trans (.enter _ _)) rfl hReworks hStale.1
            ?_ ?_ ?_ fun row hRow hRowActive => .inl ?_
          · rw [hWas, Process.sessions_enter]
            rfl
          · rw [Process.sessions_enter]
            exact fun hSlot => absurd hSlot (h.ticks.slot_of_reworks hTick hReworks)
          · rw [hWas]
            exact fun _ hOwed => hOwed.elim
          · exact (Registry.armed_armCompletionTask _ (some task) auction.id auction.endTime).mono
              (hStale.2 row hRow hRowActive).2
        · exact h.enter hWas rfl ⟨hStale, hActive⟩ fun _ hOwed => hOwed.elim

/-- The tick takes the lock of its lot, or gives up. -/
theorem resume_tickWaits (h : Standing p) (hWas : p.sessions sid = .tickWaits task auction)
    (hStep : resume p sid t passes (.tickWaits task auction) = some p') : Advances sid p p' := by
  obtain ⟨hStale, hActive⟩ : Stale p auction ∧ auction.isActive = true := by
    simpa [hWas, Phase.Ok] using h.phases sid
  refine h.lockLot (.tickCloses task auction.id) hWas (fun _ hOwed => hOwed) (fun hGone => ?_) ?_ hStep
  · refine ⟨rfl, fun _ => ⟨hStale.1, fun row hRow => ?_⟩⟩
    have hRow : p.lots.get auction.id = some row := hRow
    simp [hRow] at hGone
  · intro row goesOn _ _ hCheck
    obtain rfl := Option.some.inj hCheck
    exact ⟨rfl, Function.update_self _ _ _, ⟨hStale.1, hStale.2⟩, hActive⟩

/-- The tick settles the copy that it locked. -/
theorem resume_tickLocked (h : Standing p) (hWas : p.sessions sid = .tickLocked task auction)
    (hStep : resume p sid t passes (.tickLocked task auction) = some p') : Advances sid p p' := by
  have hTick : (p.sessions sid).tick = some (task, auction.id) := by rw [hWas, Phase.tick]
  have hOk : p.locks auction.id = some sid ∧ Stale p auction ∧ auction.isActive = true := by
    simpa [hWas, Phase.Ok] using h.phases sid
  obtain ⟨hLock, hStale, hActive⟩ := hOk
  rw [resume] at hStep
  split_ifs at hStep with hCancelled <;> obtain rfl := Option.some.inj hStep
  · refine h.release hWas rfl (fun hSlot => ?_) fun _ hOwed => hOwed.elim
    exact absurd hSlot (h.slot_of_cancelled hCancelled)
  · have hReworks := Registry.scheduleAuction_reworks h.sound (some task) auction
    refine h.rework (((Frame.reworks hReworks).trans (.release _)).trans (.enter _ _)) rfl hReworks
      hStale.1 ?_ ?_ ?_ fun row hRow hRowActive => .inl ?_
    · rw [hWas, Process.sessions_enter]
      rfl
    · rw [Process.sessions_enter]
      exact fun hSlot => absurd hSlot (h.ticks.slot_of_reworks hTick hReworks)
    · rw [hWas]
      exact fun _ hOwed => hOwed.elim
    · exact (Registry.armed_scheduleAuction _ (some task) hActive).mono
        (hStale.2 row hRow hRowActive).2
  · exact h.enter hWas rfl ⟨hLock, hStale, hActive⟩ fun _ hOwed => hOwed.elim

end OnlineAuction.Scheduler
