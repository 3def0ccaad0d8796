import OnlineAuction.Scheduler.Invariant

/-! The parts of a step: what each leaves alone, and the invariant of a process
across a step that is made of such parts. -/

namespace OnlineAuction.Scheduler

variable {sid : Nat} {p p' p'' : Process}

theorem Evolves.trans {lots lots' lots'' : Table Auction} (h : Evolves lots lots')
    (h' : Evolves lots' lots'') : Evolves lots lots'' := by
  refine ⟨h.serial.trans h'.serial, fun id hId row'' hRow'' hActive'' => ?_⟩
  obtain ⟨row', hRow', hActive', hEnd'⟩ :=
    h'.active id (hId.trans_le h.serial) row'' hRow'' hActive''
  obtain ⟨row, hRow, hActive, hEnd⟩ := h.active id hId row' hRow' hActive'
  exact ⟨row, hRow, hActive, hEnd.trans hEnd'⟩

namespace Frame

theorem refl (sid : Nat) (p : Process) : Frame sid p p :=
  ⟨fun _ _ => rfl, .refl _, fun _ _ _ h => h, fun _ _ _ _ _ => rfl, fun _ _ => .inl, le_rfl⟩

theorem trans (h : Frame sid p p') (h' : Frame sid p' p'') : Frame sid p p'' where
  sessions other hOther := (h'.sessions other hOther).trans (h.sessions other hOther)
  lots := h.lots.trans h'.lots
  locks other hOther id hLock := h'.locks other hOther id (h.locks other hOther id hLock)
  rows other hOther id hId hLock :=
    (h'.rows other hOther id (hId.trans_le h.lots.serial) (h.locks other hOther id hLock)).trans
      (h.rows other hOther id hId hLock)
  slots id task hSlot := by
    rcases h'.slots id task hSlot with hWas | hFresh
    · exact h.slots id task hWas
    · exact .inr (h.serial.trans hFresh)
  serial := h.serial.trans h'.serial

theorem enter (p : Process) (phase : Phase) : Frame sid p (p.enter sid phase) :=
  { refl sid p with sessions := fun _ hOther => Function.update_of_ne hOther _ _ }

theorem release (p : Process) : Frame sid p (p.release sid) :=
  { refl sid p with
    locks := fun other hOther id hLock => by
      show (if p.locks id = some sid then none else p.locks id) = some other
      rw [if_neg (by simpa [hLock] using hOther)]
      exact hLock }

theorem leave (p : Process) : Frame sid p (p.leave sid) := (release p).trans (enter _ _)

theorem lock {auctionId : LotId} (h : p.locks auctionId = none ∨ p.locks auctionId = some sid) :
    Frame sid p { p with locks := Function.update p.locks auctionId (some sid) } :=
  { refl sid p with
    locks := fun other hOther id hLock => by
      have hId : id ≠ auctionId := by
        rintro rfl
        rcases h with hFree | hMine
        · simp [hLock] at hFree
        · exact hOther (by simpa [hLock] using hMine)
      exact (Function.update_of_ne hId _ _).trans hLock }

theorem setRegistry {registry : Registry}
    (hSlots : ∀ id task, registry.completionTasks id = some task →
      p.registry.completionTasks id = some task ∨ p.registry.tasks.serial ≤ task)
    (hSerial : p.registry.tasks.serial ≤ registry.tasks.serial) :
    Frame sid p (p.setRegistry registry) :=
  { refl sid p with
    slots := hSlots
    serial := hSerial }

/-- Reworking the slot of one lot is within what a session may do. -/
theorem reworks {auctionId : LotId} {registry : Registry}
    (h : Registry.Reworks auctionId p.registry registry) : Frame sid p (p.setRegistry registry) := by
  refine setRegistry (fun id task hTask => ?_) h.serial
  by_cases hId : id = auctionId
  · subst hId
    exact .inr (h.fresh task hTask)
  · exact .inl ((h.others id hId).symm.trans hTask)

/-- A commit on a lot whose lock the session holds. -/
theorem commit (hSessions : p'.sessions = p.sessions) (hLocks : p'.locks = p.locks)
    (hRegistry : p'.registry = p.registry) (hLots : Evolves p.lots p'.lots)
    (hRows : ∀ id < p.lots.serial, p.locks id ≠ some sid → p'.lots.get id = p.lots.get id) :
    Frame sid p p' where
  sessions _ _ := by rw [hSessions]
  lots := hLots
  locks _ _ _ hLock := by rwa [hLocks]
  rows other hOther id hId hLock :=
    hRows id hId fun hMine => hOther (by simpa [hLock] using hMine)
  slots _ _ hSlot := .inl (by rwa [hRegistry] at hSlot)
  serial := by rw [hRegistry]

end Frame

/-- Each tick runs a task of its lot that has woken up, no two ticks the same,
and a task that has woken up is run. -/
structure Ticks (p : Process) : Prop where
  runs : ∀ sid task auctionId, (p.sessions sid).tick = some (task, auctionId) →
    ∃ t, p.registry.tasks.get task = some t ∧ t.auctionId = auctionId ∧
      (t.status = .ticking ∨ t.status = .cancelled)
  unique : ∀ sid other task auctionId auctionId',
    (p.sessions sid).tick = some (task, auctionId) →
      (p.sessions other).tick = some (task, auctionId') → other = sid
  awake : ∀ task t, p.registry.tasks.get task = some t → t.status = .ticking →
    ∃ sid, (p.sessions sid).tick = some (task, t.auctionId)
  lots : ∀ task t, p.registry.tasks.get task = some t → t.auctionId < p.lots.serial

/-- The slot of the lot holds a task that is due in time, or a session will see
to the lot. -/
def Covered (p : Process) (auctionId : LotId) (due : Time) : Prop :=
  p.registry.Armed auctionId due ∨ ∃ sid, (p.sessions sid).owes auctionId

structure Inv (p : Process) : Prop where
  rowIds : ∀ id row, p.lots.get id = some row → row.id = id
  sound : p.registry.Sound
  ticks : Ticks p
  phases : ∀ sid, (p.sessions sid).Ok p sid
  covered : ∀ id row, p.lots.get id = some row → row.isActive = true → Covered p id row.endTime

/-- The task of a tick has a number that is not given to a new task. -/
theorem Ticks.lt_serial (h : Ticks p) {task : Nat} {auctionId : LotId}
    (hTick : (p.sessions sid).tick = some (task, auctionId)) : task < p.registry.tasks.serial := by
  obtain ⟨t, hTask, _⟩ := h.runs sid task auctionId hTick
  exact Table.lt_serial hTask

/-- A step after which every session runs the task it ran. -/
theorem Ticks.next (h : Ticks p) (hSame : ∀ s, (p'.sessions s).tick = (p.sessions s).tick)
    (hSerial : p.lots.serial ≤ p'.lots.serial)
    (hKept : ∀ task t, p.registry.tasks.get task = some t →
      ∃ t', p'.registry.tasks.get task = some t' ∧ t'.auctionId = t.auctionId ∧
        (t'.status = t.status ∨ t'.status = .cancelled))
    (hCreated : ∀ task t', p'.registry.tasks.get task = some t' →
      (p.registry.tasks.get task).isSome ∨ t'.auctionId < p'.lots.serial ∧ t'.status ≠ .ticking) :
    Ticks p' := by
  refine ⟨fun s task auctionId hRuns => ?_, fun s other task id id' hRuns hOther => ?_,
    fun task t' hTask' hAwake => ?_, fun task t' hTask' => ?_⟩
  · obtain ⟨t, hTask, hLot, hStatus⟩ := h.runs s task auctionId ((hSame s).symm.trans hRuns)
    obtain ⟨t', hTask', hLot', hStatus'⟩ := hKept task t hTask
    refine ⟨t', hTask', hLot'.trans hLot, ?_⟩
    rcases hStatus' with hKeep | hCancelled
    · rwa [hKeep]
    · exact .inr hCancelled
  · exact h.unique s other task id id' ((hSame s).symm.trans hRuns) ((hSame other).symm.trans hOther)
  · rcases hCreated task t' hTask' with hOld | ⟨_, hNot⟩
    · obtain ⟨t, hTask⟩ := Option.isSome_iff_exists.mp hOld
      obtain ⟨found, hFound, hLot, hStatus⟩ := hKept task t hTask
      rw [hTask', Option.some.injEq] at hFound
      subst hFound
      rcases hStatus with hKeep | hCancelled
      · obtain ⟨s, hRuns⟩ := h.awake task t hTask (hKeep.symm.trans hAwake)
        exact ⟨s, by rw [hSame, hRuns, hLot]⟩
      · simp [hCancelled] at hAwake
    · exact absurd hAwake hNot
  · rcases hCreated task t' hTask' with hOld | ⟨hLot, _⟩
    · obtain ⟨t, hTask⟩ := Option.isSome_iff_exists.mp hOld
      obtain ⟨found, hFound, hLot, _⟩ := hKept task t hTask
      rw [hTask', Option.some.injEq] at hFound
      subst hFound
      rw [hLot]
      exact (h.lots task t hTask).trans_le hSerial
    · exact hLot

/-- A session's step moves no other session's tick. -/
theorem Frame.tick_next (frame : Frame sid p p')
    (hTick : (p'.sessions sid).tick = (p.sessions sid).tick) (s : Nat) :
    (p'.sessions s).tick = (p.sessions s).tick := by
  by_cases hSid : s = sid
  · rw [hSid, hTick]
  · rw [frame.sessions s hSid]

structure Standing (p : Process) : Prop where
  rowIds : ∀ id row, p.lots.get id = some row → row.id = id
  sound : p.registry.Sound
  ticks : Ticks p
  phases : ∀ sid, (p.sessions sid).Ok p sid

/-- A step of session `sid`: the lots that were covered are so still, and new ones
are covered. -/
structure Advances (sid : Nat) (p p' : Process) : Prop where
  frame : Frame sid p p'
  standing : Standing p'
  covered : ∀ id row', p'.lots.get id = some row' → row'.isActive = true →
    (∀ row, p.lots.get id = some row → row.isActive = true → Covered p id row.endTime) →
      Covered p' id row'.endTime

theorem Inv.standing (h : Inv p) : Standing p := ⟨h.rowIds, h.sound, h.ticks, h.phases⟩

/-- An advance of a session that stands keeps the invariant. -/
theorem Inv.advance (h : Inv p) (hAdvances : Advances sid p p') : Inv p' :=
  { hAdvances.standing with
    covered := fun id row' hRow' hActive =>
      hAdvances.covered id row' hRow' hActive fun row => h.covered id row }

/-- The other sessions, and with them the lots they owe a timer to, are as they
were. -/
theorem Standing.phases_next (h : Standing p) (frame : Frame sid p p')
    (hOk : (p'.sessions sid).Ok p' sid) : ∀ s, (p'.sessions s).Ok p' s := by
  intro s
  by_cases hSid : s = sid
  · exact hSid ▸ hOk
  · rw [frame.sessions s hSid]
    exact (frame.spares hSid).ok (h.phases s) fun task auctionId hTick => h.ticks.lt_serial hTick

/-- An active lot that was there before was covered, and is so still or was by
the session itself. -/
theorem Frame.covered_next (frame : Frame sid p p') {id : LotId} {row' : Auction}
    (hId : id < p.lots.serial) (hRow' : p'.lots.get id = some row') (hActive : row'.isActive = true)
    (hCovered : ∀ row, p.lots.get id = some row → row.isActive = true → Covered p id row.endTime)
    (hArmed : ∀ due ≤ row'.endTime, p.registry.Armed id due → Covered p' id due)
    (hOwes : (p.sessions sid).owes id → Covered p' id row'.endTime) : Covered p' id row'.endTime := by
  obtain ⟨row, hRow, hWas, hEnd⟩ := frame.lots.active id hId row' hRow' hActive
  rcases hCovered row hRow hWas with hSlot | ⟨s, hSession⟩
  · exact (hArmed row.endTime hEnd hSlot).imp_left fun hSlot' => hSlot'.mono hEnd
  · by_cases hSid : s = sid
    · exact hOwes (hSid ▸ hSession)
    · exact .inr ⟨s, by rwa [frame.sessions s hSid]⟩

/-- A step that leaves the registry alone. -/
theorem Standing.keep (h : Standing p) (frame : Frame sid p p')
    (hRegistry : p'.registry = p.registry)
    (hIds : ∀ id row, p'.lots.get id = some row → row.id = id)
    (hTick : (p'.sessions sid).tick = (p.sessions sid).tick)
    (hOk : (p'.sessions sid).Ok p' sid)
    (hNew : ∀ id row, p.lots.serial ≤ id → p'.lots.get id = some row → (p'.sessions sid).owes id)
    (hOwes : ∀ id, (p.sessions sid).owes id → (p'.sessions sid).owes id ∨ Closed p' id) :
    Advances sid p p' := by
  have hTicks : Ticks p' := by
    apply h.ticks.next (frame.tick_next hTick) frame.lots.serial
    · exact fun task t hTask => ⟨t, by rwa [hRegistry], rfl, .inl rfl⟩
    · exact fun task t hTask => .inl (by rw [← hRegistry, hTask, Option.isSome_some])
  refine ⟨frame, ⟨hIds, ?_, hTicks, h.phases_next frame hOk⟩,
    fun id row hRow hActive hCovered => ?_⟩
  · rw [hRegistry]
    exact h.sound
  · rcases lt_or_ge id p.lots.serial with hId | hId
    · refine frame.covered_next hId hRow hActive hCovered ?_ fun hOwed => ?_
      · exact fun due _ hSlot => .inl (by rwa [hRegistry])
      · rcases hOwes id hOwed with hStill | hClosed
        · exact .inr ⟨sid, hStill⟩
        · simp [hClosed.2 row hRow] at hActive
    · exact .inr ⟨sid, hNew id row hId hRow⟩

/-- Moving the timer of one lot leaves every session running the task it ran. -/
theorem Ticks.reworks (h : Ticks p) (hSame : ∀ s, (p'.sessions s).tick = (p.sessions s).tick)
    (hLots : p'.lots = p.lots) {auctionId : LotId}
    (hReworks : Registry.Reworks auctionId p.registry p'.registry)
    (hLot : auctionId < p.lots.serial) : Ticks p' := by
  refine h.next hSame (by rw [hLots]) (fun task t hTask => ?_) fun task t' hTask' => ?_
  · obtain ⟨t', hTask', hOwner, _, hStatus⟩ := hReworks.kept task t hTask
    exact ⟨t', hTask', hOwner, hStatus.imp_right fun hCancelled => hCancelled.2.2⟩
  · refine (hReworks.created task t' hTask').imp_right fun ⟨hOwner, hNot⟩ => ⟨?_, hNot⟩
    rwa [hOwner, hLots]

/-- A step that moves the timer of one lot. -/
theorem Standing.rework (h : Standing p) (frame : Frame sid p p') (hLots : p'.lots = p.lots)
    {auctionId : LotId} (hReworks : Registry.Reworks auctionId p.registry p'.registry)
    (hLot : auctionId < p.lots.serial)
    (hTick : (p'.sessions sid).tick = (p.sessions sid).tick)
    (hOk : (p'.sessions sid).Ok p' sid)
    (hOwes : ∀ id, (p.sessions sid).owes id → id = auctionId)
    (hArmed : ∀ row, p.lots.get auctionId = some row → row.isActive = true →
      Covered p' auctionId row.endTime) : Advances sid p p' := by
  have hTicks := h.ticks.reworks (frame.tick_next hTick) hLots hReworks hLot
  refine ⟨frame, ⟨fun id row hRow => h.rowIds id row (by rwa [← hLots]), hReworks.sound, hTicks,
    h.phases_next frame hOk⟩, fun id row hRow hActive hCovered => ?_⟩
  have hWas : p.lots.get id = some row := by rwa [← hLots]
  by_cases hId : id = auctionId
  · subst hId
    exact hArmed row hWas hActive
  · refine frame.covered_next (Table.lt_serial hWas) hRow hActive hCovered ?_ fun hOwed => ?_
    · exact fun due _ hSlot => .inl (hReworks.armed_other h.sound hId hSlot)
    · exact absurd (hOwes id hOwed) hId

end OnlineAuction.Scheduler
