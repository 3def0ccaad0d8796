import OnlineAuction.Scheduler.NoStranding

/-! A cluster of workers over one database: `app/services/scheduler_election.py`,
the `lifespan` of `app/app_factory.py` and the tasks of `app/services/auction_scheduler.py`
in every worker, the warnings before a deadline included. -/

namespace OnlineAuction.Scheduler

/-- `ENDING_SOON_LEAD`. -/
def endingSoonLead : Time := minutes 5

/-- `_arm_ending_soon_task`. The store `_ending_soon_tasks` is kept as that of the
completion tasks is. -/
def Registry.armEndingSoonTask (r : Registry) (auction : Auction) (t : Time) : Registry :=
  let fireAt := auction.endTime - endingSoonLead
  if auction.endingSoonNotified = true ∨ fireAt ≤ t then r
  else r.armCompletionTask none auction.id fireAt

/-- The call of the scheduler that a resumption makes; `rearm` is the pair of calls
that `_wait_and_complete` makes when the deadline has moved. -/
inductive Call where
  | schedule (auction : Auction)
  | cancel (auctionId : LotId)
  | rearm (auction : Auction)

/-- What the call does to `_ending_soon_tasks`. -/
def Call.onEndingSoon (t : Time) : Call → Registry → Registry
  | .schedule auction, r =>
      let r := r.cancelAuction auction.id
      if auction.isActive then r.armEndingSoonTask auction t else r
  | .cancel auctionId, r => r.cancelAuction auctionId
  | .rearm auction, r => r.armEndingSoonTask auction t

def Call.arms : Call → Bool
  | .schedule auction => auction.isActive
  | .cancel _ => false
  | .rearm _ => true

/-- The call that `resume` makes. -/
def Phase.call (p : Process) (t : Time) (passes : Bool) : Phase → Option Call
  | .schedules auction => some (.schedule auction)
  | .buyChecks _ row _ => if passes then some (.cancel row.id) else none
  | .deleteReturns auctionId => some (.cancel auctionId)
  | .tickDecides task _ answer =>
      if p.cancelled task then none
      else match answer.filter fun auction => auction.isActive with
        | none => none
        | some auction => if t < auction.endTime then some (.rearm auction) else none
  | .tickLocked task auction =>
      if p.cancelled task then none
      else if t < auction.endTime then some (.schedule auction) else none
  | _ => none

/-- The call made by an event, with the time that it reads. -/
def Event.call (p : Process) : Event → Option (Call × Time)
  | .resume sid t passes => ((p.sessions sid).call p t passes).map fun call => (call, t)
  | _ => none

/-- What the `lifespan` of a worker, or its heartbeat, is waiting for. -/
inductive Duty where
  | down
  /- between two ticks of the heartbeat -/
  | rests
  /- `SELECT 1` on the leader connection -/
  | pings
  /- `pg_try_advisory_lock`; `wasLeader` is what the tick has noted at its start -/
  | claims (wasLeader : Bool)
  /- the query of `schedule_active_auctions`, and its answer -/
  | loads
  | schedules (active : List Auction)
  deriving DecidableEq

/-- A worker serves requests once its `lifespan` has yielded. `leaderConnection`
says that `_leader_connection` is not `None`. -/
structure Worker where
  duty : Duty
  serving : Bool
  leaderConnection : Bool
  completion : Registry
  endingSoon : Registry

def Worker.down : Worker := ⟨.down, false, false, .empty, .empty⟩

/-- The database, the sessions of all workers, the workers, and the one whose
connection holds the advisory lock. -/
structure Cluster where
  lots : Table Auction
  bidders : LotId → List UserId
  locks : LotId → Option Nat
  sessions : Nat → Phase
  workers : Nat → Worker
  holder : Option Nat

/-- Every row with `is_active`. -/
def activeAuctions (lots : Table Auction) : List Auction :=
  (List.range lots.serial).filterMap fun id => (lots.get id).filter fun auction => auction.isActive

namespace Cluster

/-- No worker has been started over a database with these lots. -/
def start (rows : List (Option Auction)) (bidders : LotId → List UserId) : Cluster where
  lots := storedLots rows
  bidders := bidders
  locks _ := none
  sessions _ := .idle
  workers _ := .down
  holder := none

def setWorker (c : Cluster) (w : Nat) (worker : Worker) : Cluster :=
  { c with workers := Function.update c.workers w worker }

variable (host : Nat → Nat)

/-- The cluster as a process that is one worker. `host` is the worker that a session
belongs to. -/
def view (c : Cluster) (w : Nat) : Process where
  lots := c.lots
  bidders := c.bidders
  locks := c.locks
  registry := (c.workers w).completion
  sessions sid := if host sid = w then c.sessions sid else .idle

def act (c : Cluster) (e : Event) : Option Cluster :=
  let w := host e.session
  let worker := c.workers w
  if worker.duty = .down ∨ (e matches .request _ _ _) ∧ worker.serving = false then none
  else (step (c.view host w) e).map fun p =>
    { c with
      lots := p.lots
      bidders := p.bidders
      locks := p.locks
      sessions := Function.update c.sessions e.session (p.sessions e.session)
      workers := Function.update c.workers w
        { worker with
          completion := p.registry
          endingSoon := match e.call (c.view host w) with
            | none => worker.endingSoon
            | some (call, t) => call.onEndingSoon t worker.endingSoon } }

/-- The process ends: its transactions are rolled back, its connections closed. -/
def crash (c : Cluster) (w : Nat) : Cluster :=
  { c with
    locks := fun id => (c.locks id).filter fun sid => host sid ≠ w
    sessions := fun sid => if host sid = w then .idle else c.sessions sid
    workers := Function.update c.workers w .down
    holder := c.holder.filter fun h => h ≠ w }

end Cluster

/-- A scheduling choice. A call to the database `answers` or raises. -/
inductive Action where
  | act (e : Event)
  | start (w : Nat)
  | claim (w : Nat) (answers : Bool)
  | load (w : Nat) (answers : Bool)
  | schedule (w : Nat) (t : Time)
  | heartbeat (w : Nat)
  | ping (w : Nat) (answers : Bool)
  /- the backend that holds the lock disconnects -/
  | disconnect
  | crash (w : Nat)
  /- a warning returns from its sleep, commits `ending_soon_notified`, ends -/
  | warn (w : Nat) (task : Nat)
  | notified (w : Nat) (task : Nat)
  | warned (w : Nat) (task : Nat)

/-- One step of the cluster, `none` when it is not possible. Only a fresh promotion goes
on to `on_promote`; when its query fails, so does the `lifespan`, while the heartbeat logs
the failure. A connection that answers is the one that took the lock, and the `UPDATE` of
a warning waits for whoever holds the row. -/
def Cluster.step (host : Nat → Nat) (c : Cluster) : Action → Option Cluster
  | .act e => c.act host e
  | .start w =>
      if (c.workers w).duty = .down then
        some (c.setWorker w { c.workers w with duty := .claims false })
      else none
  | .claim w answers => match (c.workers w).duty with
      | .claims wasLeader =>
          if answers = true ∧ c.holder = none then
            some { c.setWorker w { c.workers w with
                leaderConnection := true
                duty := if wasLeader then .rests else .loads } with
              holder := some w }
          else some (c.setWorker w { c.workers w with duty := .rests, serving := true })
      | _ => none
  | .load w answers => match (c.workers w).duty with
      | .loads =>
          if answers then
            some (c.setWorker w { c.workers w with duty := .schedules (activeAuctions c.lots) })
          else if (c.workers w).serving then
            some (c.setWorker w { c.workers w with duty := .rests })
          else some (c.crash host w)
      | _ => none
  | .schedule w t => match (c.workers w).duty with
      | .schedules active =>
          some (c.setWorker w { c.workers w with
            duty := .rests
            serving := true
            completion := active.foldl (fun r auction => r.scheduleAuction none auction)
              (c.workers w).completion
            endingSoon := active.foldl (fun r auction => (Call.schedule auction).onEndingSoon t r)
              (c.workers w).endingSoon })
      | _ => none
  | .heartbeat w =>
      if (c.workers w).duty = .rests then
        some (c.setWorker w { c.workers w with
          duty := if (c.workers w).leaderConnection then .pings else .claims false })
      else none
  | .ping w answers =>
      if (c.workers w).duty = .pings then
        if answers then
          if c.holder = some w then some (c.setWorker w { c.workers w with duty := .rests }) else none
        else
          some { c.setWorker w { c.workers w with
              leaderConnection := false
              duty := .claims true } with
            holder := c.holder.filter fun h => h ≠ w }
      else none
  | .disconnect => some { c with holder := none }
  | .crash w => if (c.workers w).duty = .down then none else some (c.crash host w)
  | .warn w task => match (c.workers w).endingSoon.tasks.get task with
      | some t =>
          if t.status = .sleeping then
            some (c.setWorker w { c.workers w with endingSoon := (c.workers w).endingSoon.wake task })
          else none
      | none => none
  | .notified w task => match (c.workers w).endingSoon.tasks.get task with
      | some t =>
          if t.status = .ticking ∧ c.locks t.auctionId = none then
            some { c with
              lots := c.lots.modify t.auctionId fun row => { row with endingSoonNotified := true } }
          else none
      | none => none
  | .warned w task => match (c.workers w).endingSoon.tasks.get task with
      | some t =>
          if t.status = .ticking ∨ t.status = .cancelled then
            some (c.setWorker w { c.workers w with
              endingSoon := (c.workers w).endingSoon.finish task t.auctionId })
          else none
      | none => none

inductive Cluster.Steps (host : Nat → Nat) (c : Cluster) : Action → Cluster → Prop where
  | act {e : Event} {p : Process} (hUp : (c.workers (host e.session)).duty ≠ .down)
      (hMoves : Scheduler.step (c.view host (host e.session)) e = some p) : Steps host c (.act e)
        { c with
          lots := p.lots
          bidders := p.bidders
          locks := p.locks
          sessions := Function.update c.sessions e.session (p.sessions e.session)
          workers := Function.update c.workers (host e.session)
            { c.workers (host e.session) with
              completion := p.registry
              endingSoon := match e.call (c.view host (host e.session)) with
                | none => (c.workers (host e.session)).endingSoon
                | some (call, t) => call.onEndingSoon t (c.workers (host e.session)).endingSoon } }
  | start {w : Nat} (hDown : (c.workers w).duty = .down) : Steps host c (.start w)
      (c.setWorker w { c.workers w with duty := .claims false })
  | elected {w : Nat} {wasLeader : Bool} (hDuty : (c.workers w).duty = .claims wasLeader)
      (hFree : c.holder = none) : Steps host c (.claim w true)
        { c.setWorker w { c.workers w with
            leaderConnection := true
            duty := if wasLeader then .rests else .loads } with
          holder := some w }
  | follows {w : Nat} {answers wasLeader : Bool} (hDuty : (c.workers w).duty = .claims wasLeader)
      (hNot : ¬(answers = true ∧ c.holder = none)) : Steps host c (.claim w answers)
        (c.setWorker w { c.workers w with duty := .rests, serving := true })
  | loads {w : Nat} (hDuty : (c.workers w).duty = .loads) : Steps host c (.load w true)
      (c.setWorker w { c.workers w with duty := .schedules (activeAuctions c.lots) })
  | loadFails {w : Nat} (hDuty : (c.workers w).duty = .loads)
      (hServing : (c.workers w).serving = true) : Steps host c (.load w false)
        (c.setWorker w { c.workers w with duty := .rests })
  | lifespanFails {w : Nat} (hDuty : (c.workers w).duty = .loads)
      (hStarting : ¬(c.workers w).serving = true) : Steps host c (.load w false) (c.crash host w)
  | schedule {w : Nat} {t : Time} {active : List Auction}
      (hDuty : (c.workers w).duty = .schedules active) : Steps host c (.schedule w t)
        (c.setWorker w { c.workers w with
          duty := .rests
          serving := true
          completion := active.foldl (fun r auction => r.scheduleAuction none auction)
            (c.workers w).completion
          endingSoon := active.foldl (fun r auction => (Call.schedule auction).onEndingSoon t r)
            (c.workers w).endingSoon })
  | heartbeat {w : Nat} (hRests : (c.workers w).duty = .rests) : Steps host c (.heartbeat w)
      (c.setWorker w { c.workers w with
        duty := if (c.workers w).leaderConnection then .pings else .claims false })
  | answered {w : Nat} (hPings : (c.workers w).duty = .pings) (hHolder : c.holder = some w) :
      Steps host c (.ping w true) (c.setWorker w { c.workers w with duty := .rests })
  | unanswered {w : Nat} (hPings : (c.workers w).duty = .pings) : Steps host c (.ping w false)
      { c.setWorker w { c.workers w with leaderConnection := false, duty := .claims true } with
        holder := c.holder.filter fun h => h ≠ w }
  | disconnect : Steps host c .disconnect { c with holder := none }
  | crash {w : Nat} (hUp : (c.workers w).duty ≠ .down) : Steps host c (.crash w) (c.crash host w)
  | warn {w task : Nat} {t : CompletionTask} (hTask : (c.workers w).endingSoon.tasks.get task = some t)
      (hSleeping : t.status = .sleeping) : Steps host c (.warn w task)
        (c.setWorker w { c.workers w with endingSoon := (c.workers w).endingSoon.wake task })
  | notified {w task : Nat} {t : CompletionTask}
      (hTask : (c.workers w).endingSoon.tasks.get task = some t) (hTicking : t.status = .ticking)
      (hFree : c.locks t.auctionId = none) : Steps host c (.notified w task)
        { c with
          lots := c.lots.modify t.auctionId fun row => { row with endingSoonNotified := true } }
  | warned {w task : Nat} {t : CompletionTask}
      (hTask : (c.workers w).endingSoon.tasks.get task = some t)
      (hAwake : t.status = .ticking ∨ t.status = .cancelled) : Steps host c (.warned w task)
        (c.setWorker w { c.workers w with
          endingSoon := (c.workers w).endingSoon.finish task t.auctionId })

namespace Cluster

variable {host : Nat → Nat} {c c' : Cluster} {w : Nat}

/-- A claim that answers elects the worker if the lock is free. -/
theorem steps_of_claim {answers : Bool} (hStep : c.step host (.claim w answers) = some c') :
    c.Steps host (.claim w answers) c' := by
  simp only [step] at hStep
  split at hStep
  next wasLeader hDuty =>
    by_cases hFree : answers = true ∧ c.holder = none
    · rw [if_pos hFree] at hStep
      cases hStep
      rw [hFree.1]
      exact .elected hDuty hFree.2
    · rw [if_neg hFree] at hStep
      cases hStep
      exact .follows hDuty hFree
  next => cases hStep

/-- A load that answers hands the active lots to the scheduler. -/
theorem steps_of_load {answers : Bool} (hStep : c.step host (.load w answers) = some c') :
    c.Steps host (.load w answers) c' := by
  simp only [step] at hStep
  split at hStep
  next hDuty =>
    cases answers with
    | true =>
        cases hStep
        exact .loads hDuty
    | false =>
        simp only [Bool.false_eq_true, if_false] at hStep
        split_ifs at hStep with hServing
        · cases hStep
          exact .loadFails hDuty hServing
        · cases hStep
          exact .lifespanFails hDuty hServing
  next => cases hStep

/-- A ping that fails takes the leadership away. -/
theorem steps_of_ping {answers : Bool} (hStep : c.step host (.ping w answers) = some c') :
    c.Steps host (.ping w answers) c' := by
  obtain ⟨hPings, hStep⟩ := Option.ite_none_right_eq_some.mp hStep
  cases answers with
  | true =>
      obtain ⟨hHolder, hStep⟩ := Option.ite_none_right_eq_some.mp hStep
      cases hStep
      exact .answered hPings hHolder
  | false =>
      cases hStep
      exact .unanswered hPings

/-- A step of a warning finds its task, in a status in which it may be taken. -/
theorem task_of_step {r : Registry} {task : Nat} (guard : CompletionTask → Prop)
    [DecidablePred guard] {next : CompletionTask → Cluster}
    (hStep : (match r.tasks.get task with
      | some t => if guard t then some (next t) else none
      | none => none) = some c') :
    ∃ t, r.tasks.get task = some t ∧ guard t ∧ c' = next t := by
  split at hStep
  next t hTask =>
    obtain ⟨hGuard, hStep⟩ := Option.ite_none_right_eq_some.mp hStep
    exact ⟨t, hTask, hGuard, (Option.some.inj hStep).symm⟩
  next => cases hStep

/-- Every step of the cluster is one of those listed. -/
theorem steps_of_step {a : Action} (hStep : c.step host a = some c') : c.Steps host a c' := by
  cases a with
  | act e =>
      simp only [step, act] at hStep
      split_ifs at hStep with hServes
      obtain ⟨p, hMoves, rfl⟩ := Option.map_eq_some_iff.mp hStep
      exact .act (fun hDown => hServes (.inl hDown)) hMoves
  | start w =>
      obtain ⟨hDown, hStep⟩ := Option.ite_none_right_eq_some.mp hStep
      cases hStep
      exact .start hDown
  | claim w answers => exact steps_of_claim hStep
  | load w answers => exact steps_of_load hStep
  | schedule w t =>
      simp only [step] at hStep
      split at hStep
      next active hDuty =>
        cases hStep
        exact .schedule hDuty
      next => cases hStep
  | heartbeat w =>
      obtain ⟨hRests, hStep⟩ := Option.ite_none_right_eq_some.mp hStep
      cases hStep
      exact .heartbeat hRests
  | ping w answers => exact steps_of_ping hStep
  | disconnect =>
      cases hStep
      exact .disconnect
  | crash w =>
      obtain ⟨hUp, hStep⟩ := Option.ite_none_left_eq_some.mp hStep
      cases hStep
      exact .crash hUp
  | warn w task =>
      obtain ⟨t, hTask, hSleeping, rfl⟩ := task_of_step (·.status = .sleeping) hStep
      exact .warn hTask hSleeping
  | notified w task =>
      obtain ⟨t, hTask, ⟨hTicking, hFree⟩, rfl⟩ := task_of_step
        (fun t => t.status = .ticking ∧ c.locks t.auctionId = none) hStep
      exact .notified hTask hTicking hFree
  | warned w task =>
      obtain ⟨t, hTask, hAwake, rfl⟩ := task_of_step
        (fun t => t.status = .ticking ∨ t.status = .cancelled) hStep
      exact .warned hTask hAwake

end Cluster

end OnlineAuction.Scheduler
