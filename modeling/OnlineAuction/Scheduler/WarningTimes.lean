import OnlineAuction.Scheduler.Coverage
import OnlineAuction.Scheduler.Warnings

/-! The warning of a lot and its deadline: what the steps of a process do to the task
that sleeps to `end_time - ENDING_SOON_LEAD`, and what the copies of a lot tell. -/

namespace OnlineAuction.Scheduler

/-- `end_time - ENDING_SOON_LEAD`. -/
def fireAt (auction : Auction) : Time := auction.endTime - endingSoonLead

structure Watch.Quiet (w : Watch) (auctionId : LotId) : Prop where
  sessions : ∀ sid, ¬(w.process.sessions sid).concerns auctionId
  warnings : ∀ task t, w.endingSoon.tasks.get task = some t → t.auctionId = auctionId →
    (w.warnings task).running = false

/-- The slot of the lot holds a task that sleeps to exactly that time. -/
def Registry.Sleeps (r : Registry) (auctionId : LotId) (due : Time) : Prop :=
  ∃ task t, r.completionTasks auctionId = some task ∧ r.tasks.get task = some t ∧
    t.status = .sleeping ∧ t.expectedEnd = due

/-- An active lot whose warning is ahead has it pending, at the right time, and has not
been marked as warned of. -/
def WarningFollowsDeadline (w : Watch) : Prop :=
  ∀ auctionId row, w.process.lots.get auctionId = some row → row.isActive = true →
    w.Quiet auctionId → w.now < fireAt row →
      row.endingSoonNotified = false ∧ w.endingSoon.Sleeps auctionId (fireAt row)

/-- Nothing fails, and nobody else calls the scheduler. A completion tick that has been
asked to stop may do so at any call. -/
def NoFailure (w : Watch) : WatchEvent → Prop
  | .act (.raise sid _) =>
      ((w.process.sessions sid).tick.any fun tick => w.process.cancelled tick.1) = true
  | .raise _ _ | .call _ => False
  | _ => True

/-- The session has yet to call `schedule_auction` for the lot, or is about to close
it. -/
def Phase.rearms (auctionId : LotId) : Phase → Prop
  | .createRefreshes id => id = auctionId
  | .bidRefreshes auction => auction.id = auctionId
  | .updateRefreshes id extended => id = auctionId ∧ extended = true
  | .schedules auction => auction.id = auctionId
  | .buyCommits row _ => row.id = auctionId
  | _ => False

def Watch.Due (w : Watch) (auctionId : LotId) : Prop :=
  ∀ row, w.process.lots.get auctionId = some row → row.isActive = true → fireAt row ≤ w.now

/-- The copy has the deadline of the lot, or the task that the call leaves does not
matter: the warning is not ahead, or another session is yet to call. -/
def Watch.UpToDate (w : Watch) (sid : Nat) (copy : Auction) : Prop :=
  (∀ row, w.process.lots.get copy.id = some row → row.endTime = copy.endTime) ∨
    w.Due copy.id ∨ ∃ other, other ≠ sid ∧ (w.process.sessions other).rearms copy.id

/-- The task of the warning is replaced by a copy that is up to date. -/
def Call.FollowsDeadline (w : Watch) (sid : Nat) : Call → Prop
  | .schedule auction => w.UpToDate sid auction
  | .rearm auction => fireAt auction ≤ w.now ∨ w.UpToDate sid auction
  | .cancel _ => True

/-- An extension finds the flag cleared unless it leaves the warning in the past, a call
of the scheduler is up to date, and the flag is set when the warning is due. -/
def FollowsDeadline (w : Watch) : WatchEvent → Prop
  | .act (.commit sid) => match w.process.sessions sid with
      | .updateCommits row changed true =>
          row.endingSoonNotified = false ∨ fireAt changed ≤ w.now
      | _ => True
  | .act (.resume sid t passes) =>
      ∀ call ∈ (w.process.sessions sid).call w.process t passes, call.FollowsDeadline w sid
  | .commit task | .land task => ∀ auction, w.warnings task = .flags auction → w.Due auction.id
  | _ => True

namespace Registry

variable {r r' : Registry} {auctionId id : LotId} {due : Time}

/-- The task of another lot sleeps on. -/
theorem Reworks.sleeps_other (h : Reworks auctionId r r') (hSound : r.Sound) (hId : id ≠ auctionId)
    (hSleeps : r.Sleeps id due) : r'.Sleeps id due := by
  obtain ⟨task, t, hSlot, hTask, hSleeping, hDue⟩ := hSleeps
  obtain ⟨t', hTask', hLot', hEnd', hStatus⟩ := h.kept task t hTask
  rcases hStatus with hSame | ⟨hMine, -, -⟩
  · exact ⟨task, t', (h.others id hId).trans hSlot, hTask', hSame.trans hSleeping, hEnd'.trans hDue⟩
  · exact absurd ((hSound.owner hTask hSlot).symm.trans hMine) hId

theorem sleeps_armCompletionTask (r : Registry) (auctionId : LotId) (endTime : Time) :
    (r.armCompletionTask none auctionId endTime).Sleeps auctionId endTime := by
  obtain ⟨middle, hMiddle, hArmed⟩ := r.armCompletionTask_eq none auctionId endTime
  have hSerial : middle.tasks.serial = r.tasks.serial := by
    rcases hMiddle with rfl | ⟨existing, -, rfl⟩ <;> rfl
  rw [hArmed]
  exact ⟨r.tasks.serial, ⟨auctionId, endTime, .sleeping⟩, Function.update_self _ _ _,
    by simp [← hSerial], rfl, rfl⟩

/-- Whoever wakes up was due. -/
theorem Sleeps.wake (h : r.Sleeps id due) {task : Nat} {t : CompletionTask}
    (hTask : r.tasks.get task = some t) : t.expectedEnd = due ∨ (r.wake task).Sleeps id due := by
  obtain ⟨sleeper, s, hSlot, hSleeper, hSleeping, hDue⟩ := h
  by_cases hSame : sleeper = task
  · subst hSame
    rw [hTask, Option.some.injEq] at hSleeper
    exact .inl (hSleeper ▸ hDue)
  · exact .inr ⟨sleeper, s, hSlot, (r.tasks_wake_other hSame).trans hSleeper, hSleeping, hDue⟩

/-- The end of another task leaves a task asleep. -/
theorem Sleeps.finish (h : r.Sleeps id due) {task : Nat} {t : CompletionTask}
    (hTask : r.tasks.get task = some t) (hAwake : t.status ≠ .sleeping) :
    (r.finish task t.auctionId).Sleeps id due := by
  obtain ⟨sleeper, s, hSlot, hSleeper, hSleeping, hDue⟩ := h
  have hOther : sleeper ≠ task := by
    rintro rfl
    rw [hTask, Option.some.injEq] at hSleeper
    exact hAwake (hSleeper ▸ hSleeping)
  refine ⟨sleeper, s, ?_, ?_, hSleeping, hDue⟩
  · exact (r.completionTasks_finish task t.auctionId).mpr ⟨hSlot, fun hSame => hOther hSame.2⟩
  · exact (r.tasks_finish_other t.auctionId hOther).trans hSleeper

/-- A copy without the flag arms the lot when its warning is ahead. -/
theorem armEndingSoonTask_ahead {auction : Auction} {now : Time}
    (hFlag : auction.endingSoonNotified = false) (hAhead : now < fireAt auction) :
    r.armEndingSoonTask auction now = r.armCompletionTask none auction.id (fireAt auction) := by
  have hArms : ¬(auction.endingSoonNotified = true ∨ fireAt auction ≤ now) := by
    rintro (hSet | hPast)
    · cases hFlag.symm.trans hSet
    · exact absurd hPast hAhead.not_ge
  exact if_neg hArms

/-- A warning whose time has passed is not armed. -/
theorem armEndingSoonTask_past {auction : Auction} {now : Time} (hPast : fireAt auction ≤ now) :
    r.armEndingSoonTask auction now = r := if_pos (.inr hPast)

/-- What `_arm_ending_soon_task` leaves alone. -/
theorem armEndingSoonTask_others (hSound : r.Sound) (auction : Auction) (now : Time) :
    (r.armEndingSoonTask auction now).Sound ∧ ∀ id, id ≠ auction.id → ∀ due, r.Sleeps id due →
      (r.armEndingSoonTask auction now).Sleeps id due := by
  unfold armEndingSoonTask
  dsimp only
  split_ifs
  · exact ⟨hSound, fun _ _ _ hSleeps => hSleeps⟩
  · have hReworks := armCompletionTask_reworks hSound none auction.id
      (auction.endTime - endingSoonLead)
    exact ⟨hReworks.sound, fun _ hId _ hSleeps => hReworks.sleeps_other hSound hId hSleeps⟩

end Registry

def Call.auctionId : Call → LotId
  | .schedule auction => auction.id
  | .cancel auctionId => auctionId
  | .rearm auction => auction.id

/-- A call is about one lot. -/
theorem Call.onEndingSoon_others {r : Registry} (hSound : r.Sound) (call : Call) (now : Time) :
    (call.onEndingSoon now r).Sound ∧ ∀ id, id ≠ call.auctionId → ∀ due, r.Sleeps id due →
      (call.onEndingSoon now r).Sleeps id due := by
  cases call with
  | schedule auction =>
      have hCancel := Registry.cancelAuction_reworks hSound auction.id
      obtain ⟨hArmed, hOthers⟩ := Registry.armEndingSoonTask_others hCancel.sound auction now
      simp only [Call.onEndingSoon, Call.auctionId]
      split_ifs
      · refine ⟨hArmed, fun id hId due hSleeps => ?_⟩
        exact hOthers id hId due (hCancel.sleeps_other hSound hId hSleeps)
      · exact ⟨hCancel.sound, fun id hId due hSleeps => hCancel.sleeps_other hSound hId hSleeps⟩
  | cancel auctionId =>
      have hCancel := Registry.cancelAuction_reworks hSound auctionId
      exact ⟨hCancel.sound, fun id hId due hSleeps => hCancel.sleeps_other hSound hId hSleeps⟩
  | rearm auction => exact Registry.armEndingSoonTask_others hSound auction now

/-- A lot that has been warned of is not to be warned of later. -/
def Flagged (now : Time) (auction : Auction) : Prop :=
  auction.isActive = true → auction.endingSoonNotified = true → fireAt auction ≤ now

/-- What the copies of a session tell of the warning. -/
def Phase.Tells (now : Time) : Phase → Prop
  | .createCommits row => ∀ id, (row id).endingSoonNotified = false
  | .bidCommits _ row changed extended =>
      (changed.endingSoonNotified = true →
        row.endingSoonNotified = true ∧ changed.endTime = row.endTime) ∧
      (extended = false → changed.endTime = row.endTime)
  | .updateCommits row changed extended =>
      changed.endingSoonNotified = row.endingSoonNotified ∧
        (extended = false → changed.endTime = row.endTime)
  | .bidRefreshes auction => Flagged now auction
  | .schedules auction => Flagged now auction
  | .tickDecides _ _ (some auction) => Flagged now auction
  | .tickWaits _ auction => Flagged now auction
  | .tickLocked _ auction => Flagged now auction
  | _ => True

/-- What was true of the copies stays true later. -/
theorem Phase.Tells.mono {now later : Time} {phase : Phase} (h : phase.Tells now)
    (hLater : now ≤ later) : phase.Tells later := by
  have hFlagged {auction : Auction} (hWas : Flagged now auction) : Flagged later auction :=
    fun hActive hFlag => (hWas hActive hFlag).trans hLater
  cases phase with
  | bidRefreshes | schedules | tickWaits | tickLocked => exact hFlagged h
  | tickDecides task auctionId answer =>
      cases answer with
      | none => trivial
      | some auction => exact hFlagged h
  | _ => exact h

/-- A bid clears the flag when it moves the deadline. -/
theorem acceptBid_tells (now t : Time) (userId : UserId) (row : Auction) (amount : Money) :
    (Phase.bidCommits userId row (acceptBid row amount t).1 (acceptBid row amount t).2).Tells
      now := by
  unfold acceptBid
  dsimp only
  split_ifs
  · constructor
    · intro hFlag
      cases hFlag
    · intro hExtended
      cases hExtended
  · exact ⟨fun hFlag => ⟨hFlag, rfl⟩, fun _ => rfl⟩

/-- An edit never touches the flag, and the deadline only to extend it. -/
theorem edit_tells (data : AuctionUpdate) (row : Auction) :
    let changed := data.dragAlong (data.edit row)
    changed.endingSoonNotified = row.endingSoonNotified ∧
      (data.extendMinutes.join.isSome = false → changed.endTime = row.endTime) := by
  have hDrag (edited : Auction) : (data.dragAlong edited).endingSoonNotified =
      edited.endingSoonNotified ∧ (data.dragAlong edited).endTime = edited.endTime := by
    unfold AuctionUpdate.dragAlong
    split
    · split_ifs <;> exact ⟨rfl, rfl⟩
    · exact ⟨rfl, rfl⟩
  have hEdit : (data.edit row).endingSoonNotified = row.endingSoonNotified ∧
      (data.extendMinutes.join.isSome = false → (data.edit row).endTime = row.endTime) := by
    apply AuctionUpdate.edit_keeps (P := fun edited =>
      edited.endingSoonNotified = row.endingSoonNotified ∧
        (data.extendMinutes.join.isSome = false → edited.endTime = row.endTime))
    case extendMinutes =>
      intro given hGiven edited hKept
      refine ⟨hKept.1, fun hNone => ?_⟩
      rw [Option.mem_def.mp hGiven] at hNone
      cases hNone
    case h => exact ⟨rfl, fun _ => rfl⟩
    all_goals exact fun _ _ _ hKept => hKept
  exact ⟨(hDrag _).1.trans hEdit.1, fun hNone => (hDrag _).2.trans (hEdit.2 hNone)⟩

section

variable {p p' : Process} {sid : Nat} {t : Time} {passes : Bool}

theorem lockLot_tells {auctionId : LotId} {givesUp : Phase} {checks : Auction → Option Phase}
    (hGivesUp : givesUp.Tells t) (hChecks : ∀ row next, checks row = some next → next.Tells t)
    (hStep : p.lockLot sid auctionId givesUp checks = some p') : (p'.sessions sid).Tells t := by
  unfold Process.lockLot at hStep
  split_ifs at hStep
  obtain rfl := Option.some.inj hStep
  split
  · rwa [Process.sessions_enter]
  · rename_i next hNext
    obtain ⟨row, -, hCheck⟩ := Option.bind_eq_some_iff.mp hNext
    rw [Process.sessions_enter]
    exact hChecks row next hCheck

/-- The next phase of a session tells what its copies do. -/
theorem resume_tells {phase : Phase} (hTells : phase.Tells t)
    (hRows : ∀ id row, p.lots.get id = some row → Flagged t row)
    (hStep : resume p sid t passes phase = some p') : (p'.sessions sid).Tells t := by
  cases phase
  case bidWaits | updateWaits | buyWaits | deleteWaits | tickWaits =>
    apply lockLot_tells _ _ hStep
    · trivial
    · intro row next hNext
      simp only [bidPhase, updatePhase, buyPhase, deletePhase, Option.ite_none_right_eq_some,
        Option.map_eq_some_iff, Option.some.injEq] at hNext
      grind [Phase.Tells]
  case bidChecks userId row amount =>
    simp only [resume] at hStep
    split_ifs at hStep <;> obtain rfl := Option.some.inj hStep
    · rw [Process.sessions_enter]
      exact acceptBid_tells t t userId row amount
    · simp [Phase.Tells]
  case updateChecks row data =>
    simp only [resume, updateCommitPhase] at hStep
    split_ifs at hStep <;> obtain rfl := Option.some.inj hStep
    · simp [Phase.Tells]
    · rw [Process.sessions_enter]
      exact edit_tells data row
    · simp [Phase.Tells]
  case createRefreshes auctionId =>
    rw [resume] at hStep
    split at hStep <;> obtain rfl := Option.some.inj hStep
    · simp [Phase.Tells]
    · rename_i auction hRow
      rw [Process.sessions_enter]
      exact hRows auctionId auction hRow
  case updateRefreshes auctionId extended =>
    rw [resume] at hStep
    split at hStep
    · obtain rfl := Option.some.inj hStep
      simp [Phase.Tells]
    · rename_i auction hRow
      split_ifs at hStep <;> obtain rfl := Option.some.inj hStep
      · rw [Process.sessions_enter]
        exact hRows auctionId auction hRow
      · simp [Phase.Tells]
  case tickLoads task auctionId =>
    obtain rfl := Option.some.inj hStep
    rw [Process.sessions_enter]
    cases hRow : p.lots.get auctionId with
    | none => trivial
    | some auction => exact hRows auctionId auction hRow
  case tickDecides task auctionId answer =>
    simp only [resume] at hStep
    split_ifs at hStep
    · obtain rfl := Option.some.inj hStep
      simp [Phase.Tells]
    · split at hStep
      · obtain rfl := Option.some.inj hStep
        simp [Phase.Tells]
      · rename_i auction hFound
        obtain ⟨rfl, -⟩ := Option.filter_eq_some_iff.mp hFound
        split_ifs at hStep <;> obtain rfl := Option.some.inj hStep
        · simp [Phase.Tells]
        · rw [Process.sessions_enter]
          exact hTells
  case bidRefreshes auction =>
    obtain rfl := Option.some.inj hStep
    rw [Process.sessions_enter]
    exact hTells
  all_goals
    rw [resume] at hStep
    repeat' split at hStep
    all_goals cases hStep
    all_goals simp [Phase.Tells, newAuction]

/-- A session that owes a lot its timers goes on to owe them, or calls. -/
theorem resume_rearms (h : Standing p) {auctionId : LotId} {row : Auction}
    (hRow : p.lots.get auctionId = some row) (hRearms : (p.sessions sid).rearms auctionId)
    (hStep : resume p sid t passes (p.sessions sid) = some p') :
    (p'.sessions sid).rearms auctionId ∨
      ∃ copy, p.sessions sid = .schedules copy ∧ copy.id = auctionId := by
  cases hWas : p.sessions sid <;> rw [hWas] at hRearms hStep
  case createRefreshes id =>
    obtain rfl : id = auctionId := hRearms
    simp only [resume, hRow] at hStep
    obtain rfl := Option.some.inj hStep
    rw [Process.sessions_enter]
    exact .inl (h.rowIds id row hRow)
  case updateRefreshes id extended =>
    obtain ⟨rfl, rfl⟩ : id = auctionId ∧ extended = true := hRearms
    simp only [resume, hRow, if_true] at hStep
    obtain rfl := Option.some.inj hStep
    rw [Process.sessions_enter]
    exact .inl (h.rowIds id row hRow)
  case bidRefreshes auction =>
    obtain rfl := Option.some.inj hStep
    rw [Process.sessions_enter]
    exact .inl hRearms
  case schedules copy => exact .inr ⟨copy, rfl, hRearms⟩
  case buyCommits row changed => cases hStep
  all_goals exact hRearms.elim

end

end OnlineAuction.Scheduler
