import OnlineAuction.Scheduler.Election

/-! Which worker has timers: the scheduler arms them wherever a request is served,
and a worker that loses the lock keeps those it has. -/

namespace OnlineAuction.Scheduler

variable {host : Nat → Nat} {c c' : Cluster} {w : Nat} {auctionId : LotId}

/-- A task of the lot is neither done nor asked to stop. -/
def Registry.HasTimer (r : Registry) (auctionId : LotId) : Prop :=
  ∃ task t, r.tasks.get task = some t ∧ t.auctionId = auctionId ∧ t.live = true

def Worker.HasTimer (worker : Worker) (auctionId : LotId) : Prop :=
  worker.completion.HasTimer auctionId ∨ worker.endingSoon.HasTimer auctionId

def Registry.pending (r : Registry) : Bool :=
  (List.range r.tasks.serial).any fun task => (r.tasks.get task).any CompletionTask.live

def Worker.pending (worker : Worker) : Bool := worker.completion.pending || worker.endingSoon.pending

/-- Every timer is in the worker whose connection holds the advisory lock, so at
most one worker has one for a lot. -/
structure TimersOnLeader (c : Cluster) : Prop where
  leader : ∀ w auctionId, (c.workers w).HasTimer auctionId → c.holder = some w
  once : ∀ w w' auctionId, (c.workers w).HasTimer auctionId → (c.workers w').HasTimer auctionId →
    w' = w

def Cluster.arms (host : Nat → Nat) (c : Cluster) : Action → Option Nat
  | .act e =>
      if (e.call (c.view host (host e.session))).any fun call => call.1.arms then
        some (host e.session)
      else none
  | .schedule w _ => match (c.workers w).duty with
      | .schedules (_ :: _) => some w
      | _ => none
  | _ => none

/-- The worker that the action takes the lock from, while it goes on. -/
def Cluster.frees (c : Cluster) : Action → Option Nat
  | .disconnect => c.holder
  | .ping w false => c.holder.filter fun h => h = w
  | _ => none

/-- Timers are created in the worker that holds the lock, and the lock is lost, or
given up after a ping that fails, by a worker without timers. -/
def ArmsOnLeader (host : Nat → Nat) (c : Cluster) (a : Action) : Prop :=
  (∀ w ∈ c.arms host a, c.holder = some w) ∧ ∀ w ∈ c.frees a, (c.workers w).pending = false

instance (host : Nat → Nat) (c : Cluster) (a : Action) : Decidable (ArmsOnLeader host c a) :=
  inferInstanceAs (Decidable (_ ∧ _))

theorem Registry.pending_iff {r : Registry} :
    r.pending = true ↔ ∃ auctionId, r.HasTimer auctionId := by
  constructor
  · intro h
    obtain ⟨task, _, hTask⟩ := List.any_eq_true.mp h
    obtain ⟨t, hFound, hLive⟩ := (Option.any_eq_true _ _).mp hTask
    exact ⟨t.auctionId, task, t, hFound, rfl, hLive⟩
  · intro ⟨auctionId, task, t, hTask, _, hLive⟩
    apply List.any_eq_true.mpr
    exact ⟨task, List.mem_range.mpr (Table.lt_serial hTask), by simp [hTask, hLive]⟩

theorem Worker.pending_iff {worker : Worker} :
    worker.pending = true ↔ ∃ auctionId, worker.HasTimer auctionId := by
  simp only [Worker.pending, Bool.or_eq_true, Registry.pending_iff, Worker.HasTimer, exists_or]

namespace Registry

variable {r : Registry}

theorem hasTimer_cancelTask {task : Nat} (h : (r.cancelTask task).HasTimer auctionId) :
    r.HasTimer auctionId := by
  obtain ⟨other, t', hFound, hLot, hLive⟩ := h
  by_cases hSame : other = task
  · subst hSame
    rw [cancelTask, Table.get_modify_self] at hFound
    obtain ⟨t, hTask, rfl⟩ := Option.map_eq_some_iff.mp hFound
    split_ifs at hLot hLive
    · cases hLive
    · exact ⟨other, t, hTask, hLot, hLive⟩
  · rw [cancelTask, Table.get_modify_other _ _ hSame] at hFound
    exact ⟨other, t', hFound, hLot, hLive⟩

/-- A cancellation creates no timer. -/
theorem hasTimer_cancelAuction {id : LotId} (h : (r.cancelAuction id).HasTimer auctionId) :
    r.HasTimer auctionId := by
  unfold cancelAuction at h
  cases hSlot : r.completionTasks id with
  | none => rwa [hSlot] at h
  | some task =>
      rw [hSlot] at h
      obtain ⟨other, t, hFound⟩ := h
      exact hasTimer_cancelTask ⟨other, t, hFound⟩

/-- Nor does the end of a task. -/
theorem hasTimer_finish {task : Nat} {id : LotId} (h : (r.finish task id).HasTimer auctionId) :
    r.HasTimer auctionId := by
  obtain ⟨other, t', hFound, hLot, hLive⟩ := h
  by_cases hSame : other = task
  · subst hSame
    rw [finish, Table.get_modify_self] at hFound
    obtain ⟨t, _, rfl⟩ := Option.map_eq_some_iff.mp hFound
    cases hLive
  · rw [r.tasks_finish_other id hSame] at hFound
    exact ⟨other, t', hFound, hLot, hLive⟩

/-- A task that wakes up was pending while it slept. -/
theorem hasTimer_wake {task : Nat} {woken : CompletionTask} (hTask : r.tasks.get task = some woken)
    (hSleeping : woken.status = .sleeping) (h : (r.wake task).HasTimer auctionId) :
    r.HasTimer auctionId := by
  obtain ⟨other, t', hFound, hLot, hLive⟩ := h
  by_cases hSame : other = task
  · subst hSame
    rw [tasks_wake_self hTask, Option.some.injEq] at hFound
    subst hFound
    exact ⟨other, woken, hTask, hLot, by simp [CompletionTask.live, hSleeping]⟩
  · rw [r.tasks_wake_other hSame] at hFound
    exact ⟨other, t', hFound, hLot, hLive⟩

theorem Armed.hasTimer {due : Time} (h : r.Armed auctionId due) : ∃ id, r.HasTimer id := by
  obtain ⟨task, t, _, hTask, hLive, _⟩ := h
  exact ⟨t.auctionId, task, t, hTask, rfl, hLive⟩

end Registry

/-- A call that creates no task creates no warning either. -/
theorem Call.hasTimer_onEndingSoon {call : Call} {t : Time} {r : Registry}
    (hNot : call.arms = false) (h : (call.onEndingSoon t r).HasTimer auctionId) :
    r.HasTimer auctionId := by
  cases call with
  | schedule auction =>
      have hInactive : auction.isActive = false := hNot
      simp only [Call.onEndingSoon, hInactive, Bool.false_eq_true, if_false] at h
      exact Registry.hasTimer_cancelAuction h
  | cancel id => exact Registry.hasTimer_cancelAuction h
  | rearm => cases hNot

structure Creates (creates : Bool) (r r' : Registry) : Prop where
  old : creates = false → ∀ id, r'.HasTimer id → r.HasTimer id
  new : creates = true → ∃ id, r'.HasTimer id

namespace Creates

variable {r r' : Registry}

/-- Where no timer is new none is created. -/
theorem of_kept (h : ∀ id, r'.HasTimer id → r.HasTimer id) : Creates false r r' where
  old _ := h
  new hCreates := by cases hCreates

theorem of_same (h : r' = r) : Creates false r r' := .of_kept fun _ hTimer => h ▸ hTimer

theorem of_armed {id : LotId} {due : Time} (h : r'.Armed id due) : Creates true r r' where
  old hNone := by cases hNone
  new _ := h.hasTimer

theorem cancelAuction (auctionId : LotId) : Creates false r (r.cancelAuction auctionId) :=
  .of_kept fun _ => Registry.hasTimer_cancelAuction

/-- Scheduling creates timers for active lots alone. -/
theorem scheduleAuction (current : Option Nat) (auction : Auction) :
    Creates auction.isActive r (r.scheduleAuction current auction) := by
  cases hActive : auction.isActive with
  | true => exact .of_armed (Registry.armed_scheduleAuction r current hActive)
  | false =>
      have hInactive : r.scheduleAuction current auction = r.cancelAuction auction.id := by
        simp [Registry.scheduleAuction, hActive]
      rw [hInactive]
      exact .cancelAuction auction.id

end Creates

section

variable {p p' : Process} {sid : Nat} {t : Time} {passes : Bool} {phase : Phase}

/-- Waiting for a lot changes no timer. -/
theorem registry_lockLot {id : LotId} {givesUp : Phase} {checks : Auction → Option Phase}
    (hStep : p.lockLot sid id givesUp checks = some p') : p'.registry = p.registry := by
  unfold Process.lockLot at hStep
  split_ifs at hStep
  obtain rfl := Option.some.inj hStep
  split <;> rfl

/-- A resumption creates a task if and only if its call does. -/
theorem creates_resume (hStep : resume p sid t passes phase = some p') :
    Creates ((phase.call p t passes).any Call.arms) p.registry p'.registry := by
  cases phase
  case bidWaits | updateWaits | buyWaits | deleteWaits | tickWaits =>
    exact .of_same (registry_lockLot hStep)
  case schedules auction =>
    obtain rfl := Option.some.inj hStep
    exact .scheduleAuction _ auction
  case buyChecks userId row price =>
    rw [resume] at hStep
    rw [Phase.call]
    split_ifs at hStep with hPasses <;> obtain rfl := Option.some.inj hStep
    · rw [if_pos hPasses]
      exact .cancelAuction _
    · rw [if_neg hPasses]
      exact .of_same rfl
  case deleteReturns auctionId =>
    obtain rfl := Option.some.inj hStep
    exact .cancelAuction auctionId
  case tickDecides task auctionId answer =>
    rw [resume] at hStep
    rw [Phase.call]
    split_ifs at hStep with hCancelled
    · obtain rfl := Option.some.inj hStep
      rw [if_pos hCancelled]
      exact .of_same rfl
    · rw [if_neg hCancelled]
      cases hFound : answer.filter fun auction => auction.isActive with
      | none =>
          simp only [hFound] at hStep
          obtain rfl := Option.some.inj hStep
          exact .of_same rfl
      | some auction =>
          simp only [hFound] at hStep
          split_ifs at hStep with hMoved <;> obtain rfl := Option.some.inj hStep
          · simp only [hMoved, if_true]
            exact .of_armed
              (Registry.armed_armCompletionTask p.registry (some task) auctionId auction.endTime)
          · simp only [hMoved, if_false]
            exact .of_same rfl
  case tickLocked task auction =>
    rw [resume] at hStep
    rw [Phase.call]
    split_ifs at hStep with hCancelled hMoved <;> obtain rfl := Option.some.inj hStep
    · rw [if_pos hCancelled]
      exact .of_same rfl
    · rw [if_neg hCancelled, if_pos hMoved]
      exact .scheduleAuction _ auction
    · rw [if_neg hCancelled, if_neg hMoved]
      exact .of_same rfl
  case tickCloses task auctionId =>
    obtain rfl := Option.some.inj hStep
    exact .of_kept fun _ => Registry.hasTimer_finish
  all_goals
    rw [resume] at hStep
    repeat' split at hStep
    all_goals cases hStep <;> exact .of_same rfl

theorem registry_commit {middle : Process} (hLanded : phase.commit p = some middle) :
    middle.registry = p.registry := by
  cases phase <;> cases hLanded <;> rfl

/-- A step creates a task if and only if its call does. -/
theorem creates_step {e : Event} (hStep : step p e = some p') :
    Creates ((e.call p).any fun call => call.1.arms) p.registry p'.registry := by
  cases Process.steps_of_step hStep with
  | request => exact .of_same rfl
  | wake _ hTask hSleeping => exact .of_kept fun _ => Registry.hasTimer_wake hTask hSleeping
  | resume hResume =>
      simp only [Event.call, Option.any_map]
      exact creates_resume hResume
  | commit hCommit =>
      have hRegistry := registry_commit hCommit
      exact .of_same hRegistry
  | fails => exact .of_same rfl
  | failsLate _ hCommit =>
      have hRegistry := registry_commit hCommit
      exact .of_same hRegistry

end

theorem Worker.hasTimer_down : ¬Worker.down.HasTimer auctionId := by
  intro h
  rcases h with ⟨task, t, hTask, _⟩ | ⟨task, t, hTask, _⟩ <;> cases hTask

@[simp] theorem Cluster.workers_setWorker (c : Cluster) (w : Nat) (worker : Worker) :
    (c.setWorker w worker).workers w = worker := by
  unfold Cluster.setWorker
  exact Function.update_self ..

theorem Cluster.workers_setWorker_other (c : Cluster) {v : Nat} (worker : Worker) (h : v ≠ w) :
    (c.setWorker w worker).workers v = c.workers v := Function.update_of_ne h ..

theorem hasTimer_setWorker {v : Nat} {worker : Worker}
    (hSame : worker.HasTimer auctionId → (c.workers w).HasTimer auctionId)
    (hTimer : ((c.setWorker w worker).workers v).HasTimer auctionId) :
    (c.workers v).HasTimer auctionId := by
  by_cases hV : v = w
  · subst hV
    rw [Cluster.workers_setWorker] at hTimer
    exact hSame hTimer
  · rwa [Cluster.workers_setWorker_other c worker hV] at hTimer

/-- A crash leaves no timer that was not there. -/
theorem hasTimer_crash {v : Nat} (hTimer : ((c.crash host w).workers v).HasTimer auctionId) :
    (c.workers v).HasTimer auctionId := by
  have hSame (hDown : Worker.down.HasTimer auctionId) : (c.workers w).HasTimer auctionId :=
    absurd hDown Worker.hasTimer_down
  exact hasTimer_setWorker hSame hTimer

/-- A worker has a timer that it had, or the action creates it. -/
theorem hasTimer_cluster {a : Action} (hStep : c.step host a = some c')
    (hTimer : (c'.workers w).HasTimer auctionId) :
    (c.workers w).HasTimer auctionId ∨ c.arms host a = some w := by
  cases Cluster.steps_of_step hStep with
  | @act e p hUp hMoves =>
      by_cases hW : w = host e.session
      · subst hW
        simp only [Function.update_self] at hTimer
        cases hArms : (e.call (c.view host (host e.session))).any fun call => call.1.arms with
        | true => exact .inr (if_pos hArms)
        | false =>
            left
            rcases hTimer with hCompletion | hWarning
            · exact .inl ((creates_step hMoves).old hArms auctionId hCompletion)
            · right
              cases hCall : e.call (c.view host (host e.session)) with
              | none => simpa only [hCall] using hWarning
              | some call =>
                  rw [hCall] at hArms
                  simp only [hCall] at hWarning
                  exact Call.hasTimer_onEndingSoon hArms hWarning
      · left
        simpa only [Function.update_of_ne hW] using hTimer
  | @schedule v t active hDuty =>
      cases active with
      | nil =>
          left
          apply hasTimer_setWorker _ hTimer
          exact fun hSame => hSame
      | cons first rest =>
          by_cases hW : w = v
          · subst hW
            right
            simp only [Cluster.arms, hDuty]
          · left
            rwa [Cluster.workers_setWorker_other c _ hW] at hTimer
  | lifespanFails => exact .inl (hasTimer_crash hTimer)
  | crash => exact .inl (hasTimer_crash hTimer)
  | disconnect => exact .inl hTimer
  | notified => exact .inl hTimer
  | warn hTask hSleeping =>
      left
      apply hasTimer_setWorker _ hTimer
      exact Or.imp_right (Registry.hasTimer_wake hTask hSleeping)
  | warned =>
      left
      apply hasTimer_setWorker _ hTimer
      exact Or.imp_right Registry.hasTimer_finish
  | _ =>
      left
      apply hasTimer_setWorker _ hTimer
      exact fun hSame => hSame

/-- The lock stays with its holder, unless it is taken from it or its process ends. -/
theorem holder_cluster {a : Action} (hStep : c.step host a = some c') (hHolder : c.holder = some w) :
    c'.holder = some w ∨ c.frees a = some w ∨ c'.workers w = .down := by
  have hCrash {v : Nat} : (c.crash host v).holder = some w ∨ c.frees a = some w ∨
      (c.crash host v).workers w = .down := by
    by_cases hV : w = v
    · subst hV
      exact .inr (.inr (Function.update_self ..))
    · left
      simp [Cluster.crash, hHolder, hV]
  cases Cluster.steps_of_step hStep with
  | elected _ hFree => cases hHolder.symm.trans hFree
  | lifespanFails => exact hCrash
  | crash => exact hCrash
  | @unanswered v =>
      by_cases hV : w = v
      · subst hV
        right
        left
        simp [Cluster.frees, hHolder]
      · left
        simp [hHolder, hV]
  | disconnect => exact .inr (.inl hHolder)
  | _ => exact .inl hHolder

/-- The lots that the answer of `schedule_active_auctions` lists are active. -/
def ActiveAnswers (c : Cluster) : Prop :=
  ∀ w active, (c.workers w).duty = .schedules active → ∀ auction ∈ active, auction.isActive = true

theorem active_of_mem {lots : Table Auction} {auction : Auction}
    (h : auction ∈ activeAuctions lots) :
    auction.isActive = true ∧ ∃ id, lots.get id = some auction := by
  obtain ⟨id, _, hRow⟩ := List.mem_filterMap.mp h
  obtain ⟨hStored, hActive⟩ := Option.filter_eq_some_iff.mp hRow
  exact ⟨hActive, id, hStored⟩

theorem ActiveAnswers.setWorker (h : ActiveAnswers c) {worker : Worker}
    (hNew : ∀ active, worker.duty = .schedules active → ∀ auction ∈ active, auction.isActive = true) :
    ActiveAnswers (c.setWorker w worker) := by
  intro v active hDuty
  by_cases hV : v = w
  · subst hV
    rw [Cluster.workers_setWorker] at hDuty
    exact hNew active hDuty
  · rw [Cluster.workers_setWorker_other c worker hV] at hDuty
    exact h v active hDuty

theorem ActiveAnswers.crash (h : ActiveAnswers c) : ActiveAnswers (c.crash host w) := by
  intro v active hDuty
  have hDown : ActiveAnswers (c.setWorker w .down) := h.setWorker fun _ hDown => by cases hDown
  exact hDown v active hDuty

/-- Every step keeps the answers of a load to active lots. -/
theorem activeAnswers_step {a : Action} (h : ActiveAnswers c) (hStep : c.step host a = some c') :
    ActiveAnswers c' := by
  cases Cluster.steps_of_step hStep with
  | @act e p hUp hMoves =>
      intro v active hDuty
      by_cases hV : v = host e.session
      · subst hV
        simp only [Function.update_self] at hDuty
        exact h _ active hDuty
      · simp only [Function.update_of_ne hV] at hDuty
        exact h v active hDuty
  | loads =>
      apply h.setWorker
      rintro active hDuty auction hMem
      obtain rfl := Duty.schedules.inj hDuty
      exact (active_of_mem hMem).1
  | lifespanFails => exact h.crash
  | crash => exact h.crash
  | disconnect => exact h
  | notified => exact h
  | @warn v => exact h.setWorker (h v)
  | @warned v => exact h.setWorker (h v)
  | @elected v wasLeader =>
      apply h.setWorker
      intro active hDuty
      cases wasLeader <;> cases hDuty
  | @heartbeat v =>
      apply h.setWorker
      intro active hDuty
      cases hLeads : (c.workers v).leaderConnection <;> rw [hLeads] at hDuty <;> cases hDuty
  | _ =>
      apply h.setWorker
      intro active hDuty
      cases hDuty

/-- The last lot of the answer is armed. -/
theorem hasTimer_schedule {active : List Auction} (hSome : active ≠ [])
    (hActive : ∀ auction ∈ active, auction.isActive = true) (r : Registry) :
    ∃ id, (active.foldl (fun r auction => r.scheduleAuction none auction) r).HasTimer id := by
  rcases List.eq_nil_or_concat active with hNil | ⟨earlier, last, rfl⟩
  · exact absurd hNil hSome
  · rw [List.concat_eq_append, List.foldl_append]
    exact (Registry.armed_scheduleAuction _ none (hActive last (by simp))).hasTimer

/-- The worker in which an action creates a timer has one afterwards. -/
theorem arms_cluster {a : Action} (hAnswers : ActiveAnswers c) (hStep : c.step host a = some c')
    (hArms : c.arms host a = some w) :
    c'.holder = c.holder ∧ ∃ auctionId, (c'.workers w).HasTimer auctionId := by
  cases Cluster.steps_of_step hStep with
  | act hUp hMoves =>
      simp only [Cluster.arms, Option.ite_none_right_eq_some] at hArms
      obtain ⟨hCall, hHost⟩ := hArms
      obtain rfl := Option.some.inj hHost
      obtain ⟨id, hTimer⟩ := (creates_step hMoves).new hCall
      refine ⟨rfl, id, ?_⟩
      simp only [Function.update_self]
      exact .inl hTimer
  | @schedule v t active hDuty =>
      simp only [Cluster.arms, hDuty] at hArms
      split at hArms
      next first rest hIs =>
        obtain rfl := Option.some.inj hArms
        have hSome : active ≠ [] := by
          rw [Duty.schedules.inj hIs]
          exact List.cons_ne_nil first rest
        obtain ⟨id, hTimer⟩ := hasTimer_schedule hSome (hAnswers v active hDuty)
          (c.workers v).completion
        refine ⟨rfl, id, ?_⟩
        rw [Cluster.workers_setWorker]
        exact .inl hTimer
      next => cases hArms
  | _ => cases hArms

/-- A worker that the lock is taken from keeps its timers. -/
theorem frees_cluster {a : Action} (hStep : c.step host a = some c') (hFrees : c.frees a = some w) :
    c'.holder = none ∧ ((c.workers w).HasTimer auctionId → (c'.workers w).HasTimer auctionId) := by
  cases Cluster.steps_of_step hStep with
  | disconnect => exact ⟨rfl, fun hTimer => hTimer⟩
  | @unanswered v =>
      obtain ⟨hHolder, hV⟩ := Option.filter_eq_some_iff.mp hFrees
      obtain rfl : w = v := by simpa using hV
      refine ⟨by simp [hHolder], fun hTimer => ?_⟩
      show ((c.setWorker w _).workers w).HasTimer auctionId
      rw [Cluster.workers_setWorker]
      exact hTimer
  | _ => cases hFrees

/-- It is enough that each timer is in the worker that holds the lock. -/
theorem TimersOnLeader.of_leader
    (h : ∀ w auctionId, (c.workers w).HasTimer auctionId → c.holder = some w) : TimersOnLeader c := by
  refine ⟨h, fun w w' auctionId hTimer hTimer' => ?_⟩
  exact Option.some.inj ((h w' auctionId hTimer').symm.trans (h w auctionId hTimer))

/-- A step leaves all timers with the leader if and only if it meets the condition. -/
theorem timersOnLeader_step {a : Action} (hAnswers : ActiveAnswers c) (h : TimersOnLeader c)
    (hStep : c.step host a = some c') : TimersOnLeader c' ↔ ArmsOnLeader host c a := by
  constructor
  · intro hNext
    constructor
    · intro w hArms
      obtain ⟨hHolder, auctionId, hTimer⟩ := arms_cluster hAnswers hStep hArms
      rw [← hHolder]
      exact hNext.leader w auctionId hTimer
    · intro w hFrees
      by_contra hPending
      obtain ⟨auctionId, hTimer⟩ := Worker.pending_iff.mp (by simpa using hPending)
      obtain ⟨hNone, hKept⟩ := frees_cluster hStep hFrees
      have hHolder := hNext.leader w auctionId (hKept hTimer)
      rw [hNone] at hHolder
      cases hHolder
  · intro ⟨hArms, hFrees⟩
    apply TimersOnLeader.of_leader
    intro w auctionId hTimer
    have hHolder : c.holder = some w := by
      rcases hasTimer_cluster hStep hTimer with hOld | hNew
      · exact h.leader w auctionId hOld
      · exact hArms w hNew
    rcases holder_cluster hStep hHolder with hKept | hLost | hDown
    · exact hKept
    · have hNone := hFrees w hLost
      rcases hasTimer_cluster hStep hTimer with hOld | hNew
      · simp [Worker.pending_iff.mpr ⟨auctionId, hOld⟩] at hNone
      · obtain ⟨hSame, _⟩ := arms_cluster hAnswers hStep hNew
        rw [hSame]
        exact hHolder
    · rw [hDown] at hTimer
      exact absurd hTimer Worker.hasTimer_down

/-- In every run in which timers are created by the leader only, and no leader with
a timer loses the lock, the timers are with the leader; and the first step that is
not so puts one elsewhere. -/
theorem timers_on_leader (host : Nat → Nat) (rows : List (Option Auction))
    (bidders : LotId → List UserId) {c : Cluster}
    (run : Runs.Reaches (Cluster.step host) (ArmsOnLeader host) (.start rows bidders) c) :
    TimersOnLeader c ∧
      ∀ a c', c.step host a = some c' → (TimersOnLeader c' ↔ ArmsOnLeader host c a) := by
  have hBoth : ActiveAnswers c ∧ TimersOnLeader c := by
    apply run.invariant (I := fun c => ActiveAnswers c ∧ TimersOnLeader c)
    · refine ⟨fun _ _ hDuty => (by cases hDuty), .of_leader fun w auctionId hTimer => ?_⟩
      exact absurd hTimer Worker.hasTimer_down
    · intro before after a h hStep hMeets
      exact ⟨activeAnswers_step h.1 hStep, (timersOnLeader_step h.1 h.2 hStep).mpr hMeets⟩
  exact ⟨hBoth.2, fun a c' hStep => timersOnLeader_step hBoth.1 hBoth.2 hStep⟩

/-- Worker 0 has the even sessions, worker 1 the odd ones. -/
def twoWorkers (sid : Nat) : Nat := sid % 2

/-- Worker 0 takes the lock and reads the lots, worker 1 does not get it. -/
def electsFirst : List Action :=
  [.start 0, .claim 0 true, .load 0 true, .schedule 0 0, .start 1, .claim 1 true]

/-- A creation that is served from its first check to the arming of the lot. -/
def createsChair (sid : Nat) : List Action :=
  [.act (.request sid (.createAuction 7 chair) 0), .act (.resume sid 0 true), .act (.commit sid),
    .act (.resume sid 0 true), .act (.resume sid 0 true)]

/-- A bid a second before the deadline. -/
def bidsLate (sid : Nat) : List Action :=
  [.act (.request sid (.placeBid 8 ⟨0, ⟨27000, by decide⟩⟩) 0),
    .act (.resume sid (seconds 599) true), .act (.resume sid (seconds 599) true),
    .act (.commit sid), .act (.resume sid (seconds 599) true),
    .act (.resume sid (seconds 599) true)]

/-- The leader serves a creation and a late bid, and a ping. -/
theorem timers_on_leader_chair : ∃ c : Cluster,
    (c.lots.get 0).map (·.endTime) = some (seconds 719) ∧ (c.workers 0).pending = true ∧
      TimersOnLeader c := by
  obtain ⟨c, run, hEnd, hPending⟩ := Runs.exists_reaches (Cluster.step twoWorkers)
    (ArmsOnLeader twoWorkers) (.start [] fun _ => [])
    (electsFirst ++ createsChair 2 ++ bidsLate 2 ++ [.heartbeat 0, .ping 0 true])
    (fun c => (c.lots.get 0).map (·.endTime) = some (seconds 719) ∧ (c.workers 0).pending = true)
    (by decide +kernel)
  exact ⟨c, hEnd, hPending, (timers_on_leader twoWorkers [] (fun _ => []) run).1⟩

/-- A timer elsewhere breaks the claim. -/
theorem not_timersOnLeader (hPending : (c.workers w).pending = true) (hHolder : c.holder ≠ some w) :
    ¬TimersOnLeader c := by
  intro h
  obtain ⟨auctionId, hTimer⟩ := Worker.pending_iff.mp hPending
  exact hHolder (h.leader w auctionId hTimer)

/-- A follower that serves a creation, or a late bid on a lot that the leader has a
timer for, and a leader whose connection is lost, have timers without the lock. -/
theorem timers_off_leader :
    (∃ c, Runs.Reaches (Cluster.step twoWorkers) (fun _ _ => True) (.start [] fun _ => []) c ∧
      ¬TimersOnLeader c) ∧
    (∃ c, Runs.Reaches (Cluster.step twoWorkers) (fun _ _ => True)
      (.start [some (newAuction 0 chair 0 0)] fun _ => []) c ∧
        ((c.workers 0).completion.pending = true ∧ (c.workers 1).completion.pending = true) ∧
          ¬TimersOnLeader c) ∧
    ∃ c, Runs.Reaches (Cluster.step twoWorkers) (fun _ _ => True)
      (.start [some (newAuction 0 chair 0 0)] fun _ => []) c ∧ ¬TimersOnLeader c := by
  refine ⟨?creation, ?bid, ?connection⟩
  case creation =>
    obtain ⟨c, run, hPending, hHolder⟩ := Runs.exists_reaches (Cluster.step twoWorkers)
      (fun _ _ => True) (.start [] fun _ => []) (electsFirst ++ createsChair 1)
      (fun c => (c.workers 1).pending = true ∧ c.holder ≠ some 1) (by decide +kernel)
    exact ⟨c, run, not_timersOnLeader hPending hHolder⟩
  case bid =>
    obtain ⟨c, run, hBoth, hPending, hHolder⟩ := Runs.exists_reaches (Cluster.step twoWorkers)
      (fun _ _ => True) (.start [some (newAuction 0 chair 0 0)] fun _ => [])
      (electsFirst ++ bidsLate 1)
      (fun c => ((c.workers 0).completion.pending = true ∧ (c.workers 1).completion.pending = true) ∧
        (c.workers 1).pending = true ∧ c.holder ≠ some 1) (by decide +kernel)
    exact ⟨c, run, hBoth, not_timersOnLeader hPending hHolder⟩
  case connection =>
    obtain ⟨c, run, hPending, hHolder⟩ := Runs.exists_reaches (Cluster.step twoWorkers)
      (fun _ _ => True) (.start [some (newAuction 0 chair 0 0)] fun _ => [])
      (electsFirst ++ [.disconnect])
      (fun c => (c.workers 0).pending = true ∧ c.holder ≠ some 0) (by decide +kernel)
    exact ⟨c, run, not_timersOnLeader hPending hHolder⟩

end OnlineAuction.Scheduler
