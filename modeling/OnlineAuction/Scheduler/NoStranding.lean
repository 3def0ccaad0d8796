import OnlineAuction.Library.Runs
import OnlineAuction.Market.HandlerContracts
import OnlineAuction.Scheduler.Commits

/-! No lot is stranded: unless a call fails where nobody takes the lot over, an
active lot that no session is about has a timer that is due in time. -/

namespace OnlineAuction.Scheduler

variable {sid : Nat} {p p' : Process}

def Process.active (p : Process) (auctionId : LotId) : Bool :=
  (p.lots.get auctionId).any fun row => row.isActive

/-- The pending call is one that leaves an active lot to nobody when it raises: nobody has
armed the new lot, `cancel_auction` has emptied the slot, or the `finally` clause is about
to. -/
def Phase.abandons (p : Process) (landed : Bool) : Phase → Bool
  | .createCommits _ => landed
  | .createRefreshes auctionId => p.active auctionId
  | .buyCommits _ _ => !landed
  | .tickLoads task auctionId => p.active auctionId && !p.cancelled task
  | .tickWaits task auction => p.active auction.id && !p.cancelled task
  | .tickCommits task auction => p.active auction.id && !landed && !p.cancelled task
  | _ => false

def abandons (p : Process) : Event → Bool
  | .raise sid landed => (p.sessions sid).abandons p landed
  | _ => false

/-- No call fails where that leaves an active lot to nobody. -/
def NothingAbandoned (p : Process) (e : Event) : Prop := abandons p e = false

instance (p : Process) (e : Event) : Decidable (NothingAbandoned p e) :=
  inferInstanceAs (Decidable (abandons p e = false))

/-- The lot a request or a tick is about, once it has been told which. -/
def Phase.concerns (auctionId : LotId) : Phase → Prop
  | .idle => False
  | .createChecks _ _ _ => False
  | .createCommits _ => False
  | .createRefreshes id => id = auctionId
  | .bidWaits _ bid => bid.auctionId = auctionId
  | .bidChecks _ row _ => row.id = auctionId
  | .bidCommits _ row _ _ => row.id = auctionId
  | .bidRefreshes auction => auction.id = auctionId
  | .updateWaits _ id _ => id = auctionId
  | .updateChecks row _ => row.id = auctionId
  | .updateCommits row _ _ => row.id = auctionId
  | .updateRefreshes id _ => id = auctionId
  | .schedules auction => auction.id = auctionId
  | .buyWaits _ id => id = auctionId
  | .buyChecks _ row _ => row.id = auctionId
  | .buyCommits row _ => row.id = auctionId
  | .deleteWaits _ id => id = auctionId
  | .deleteCommits id => id = auctionId
  | .deleteReturns id => id = auctionId
  | .tickLoads _ id => id = auctionId
  | .tickDecides _ id _ => id = auctionId
  | .tickWaits _ auction => auction.id = auctionId
  | .tickLocked _ auction => auction.id = auctionId
  | .tickCommits _ auction => auction.id = auctionId
  | .tickCloses _ id => id = auctionId

/-- Every active lot that no request and no tick is about has a task in its slot
that sleeps no longer than to the committed deadline. -/
def NoStrandedLot (p : Process) : Prop :=
  ∀ auctionId row, p.lots.get auctionId = some row → row.isActive = true →
    (∀ sid, ¬(p.sessions sid).concerns auctionId) →
      ∃ task t, p.registry.completionTasks auctionId = some task ∧
        p.registry.tasks.get task = some t ∧ t.status = .sleeping ∧ t.expectedEnd ≤ row.endTime

theorem Closed.of_inactive {auctionId : LotId} (hLot : auctionId < p.lots.serial)
    (hInactive : p.active auctionId = false) : Closed p auctionId := by
  refine ⟨hLot, fun row hRow => ?_⟩
  simpa [Process.active, hRow] using hInactive

/-- A request that goes on advances, one case for each phase. -/
theorem Standing.resume (h : Standing p) {t : Time} {passes : Bool}
    (hStep : resume p sid t passes (p.sessions sid) = some p') : Advances sid p p' := by
  cases hWas : p.sessions sid <;> rw [hWas] at hStep
  case createChecks => exact resume_createChecks h hWas hStep
  case createRefreshes => exact resume_createRefreshes h hWas hStep
  case bidWaits => exact resume_bidWaits h hWas hStep
  case bidChecks => exact resume_bidChecks h hWas hStep
  case bidRefreshes => exact resume_bidRefreshes h hWas hStep
  case updateWaits => exact resume_updateWaits h hWas hStep
  case updateChecks => exact resume_updateChecks h hWas hStep
  case updateRefreshes => exact resume_updateRefreshes h hWas hStep
  case schedules => exact resume_schedules h hWas hStep
  case buyWaits => exact resume_buyWaits h hWas hStep
  case buyChecks => exact resume_buyChecks h hWas hStep
  case deleteWaits => exact resume_deleteWaits h hWas hStep
  case deleteReturns => exact resume_deleteReturns h hWas hStep
  case tickLoads => exact resume_tickLoads h hWas hStep
  case tickDecides => exact resume_tickDecides h hWas hStep
  case tickWaits => exact resume_tickWaits h hWas hStep
  case tickLocked => exact resume_tickLocked h hWas hStep
  case tickCloses =>
    obtain rfl := Option.some.inj hStep
    exact h.finish hWas
  all_goals cases hStep

/-- A commit that has taken effect, whether or not the session learns of it. -/
theorem Standing.commit (h : Standing p) {middle : Process}
    (hCommit : (p.sessions sid).commit p = some middle) (next : Phase)
    (hNext : next = (p.sessions sid).afterCommit p ∨
      next = (p.sessions sid).onRaise ∧ (p.sessions sid).abandons p true = false) :
    Advances sid p ((middle.release sid).enter sid next) := by
  have hOk := h.phases sid
  cases hWas : p.sessions sid <;> rw [hWas] at hCommit hNext hOk
  case createCommits row =>
    obtain rfl := Option.some.inj hCommit
    rcases hNext with rfl | ⟨_, hNot⟩
    · exact h.landed_create hWas
    · cases hNot
  case bidCommits userId row changed extended =>
    obtain rfl := Option.some.inj hCommit
    refine h.landed_extends hWas hOk.1 hOk.2 _ ?_ (fun hStale => ?_) fun _ hOwed => hOwed
    · rcases hNext with rfl | ⟨rfl, _⟩
      · cases extended <;> rfl
      · rfl
    · rcases hNext with rfl | ⟨rfl, _⟩
      · cases extended
        · trivial
        · exact hStale
      · trivial
  case updateCommits row changed extended =>
    obtain rfl := Option.some.inj hCommit
    refine h.landed_extends hWas hOk.1 hOk.2 p.bidders ?_ (fun _ => ?_) fun _ hOwed => hOwed
    · rcases hNext with rfl | ⟨rfl, _⟩ <;> rfl
    · rcases hNext with rfl | ⟨rfl, _⟩ <;> trivial
  case buyCommits row changed =>
    obtain rfl := Option.some.inj hCommit
    obtain rfl : next = .idle := by rcases hNext with rfl | ⟨rfl, _⟩ <;> rfl
    obtain ⟨hHolds, hId, hInactive⟩ := hOk
    refine h.landed_closing hWas hHolds.lock (Table.lt_serial hHolds.stored) (fun found hFound => ?_)
      rfl (fun _ => trivial) fun _ hOwed => Eq.symm hOwed
    rw [hHolds.stored, Option.some.injEq] at hFound
    rw [← hFound, Auction.flush_loaded row changed hId, hInactive]
  case deleteCommits auctionId =>
    obtain rfl := Option.some.inj hCommit
    rcases hNext with rfl | ⟨rfl, _⟩
    · exact h.landed_delete hWas rfl fun _ hClosed => hClosed
    · exact h.landed_delete hWas rfl fun _ _ => trivial
  case tickCommits task auction =>
    obtain rfl := Option.some.inj hCommit
    obtain rfl : next = .tickCloses task auction.id := by
      rcases hNext with rfl | ⟨rfl, _⟩ <;> rfl
    refine h.landed_closing hWas hOk.1 hOk.2.1.1 (fun found _ => ?_) rfl (fun hClosed _ => hClosed)
      fun _ hOwed => hOwed.elim
    simp [Auction.flush, closed, column, hOk.2.2]
  all_goals cases hCommit

theorem Phase.abandons_of_no_commit {phase : Phase} (h : phase.commit p = none) :
    phase.abandons p false = phase.abandons p true := by
  cases phase <;> first | rfl | cases h

/-- A call that raises without effect. -/
theorem Standing.raise (h : Standing p) (hAwaits : (p.sessions sid).awaits = true)
    (hNot : (p.sessions sid).abandons p false = false) :
    Advances sid p ((p.release sid).enter sid (p.sessions sid).onRaise) := by
  have hOk := h.phases sid
  have hCloses {task : Nat} {auctionId : LotId} (hLot : auctionId < p.lots.serial)
      (hNot : (p.active auctionId && !p.cancelled task) = false) :
      p.registry.completionTasks auctionId = some task → Closed p auctionId := by
    intro hSlot
    cases hCancelled : p.cancelled task with
    | true => exact absurd hSlot (h.slot_of_cancelled hCancelled)
    | false => exact .of_inactive hLot (by simpa [hCancelled] using hNot)
  cases hWas : p.sessions sid <;> rw [hWas] at hAwaits hNot hOk
  case createRefreshes auctionId =>
    apply h.leave hWas rfl
    intro id hOwed
    obtain rfl : auctionId = id := hOwed
    exact .of_inactive hOk hNot
  case buyCommits => cases hNot
  case tickLoads task auctionId =>
    exact h.release hWas rfl (hCloses hOk hNot) fun _ hOwed => hOwed.elim
  case tickWaits task auction =>
    exact h.release hWas rfl (hCloses hOk.1.1 hNot) fun _ hOwed => hOwed.elim
  case tickCommits task auction =>
    refine h.release hWas rfl (hCloses hOk.2.1.1 ?_) fun _ hOwed => hOwed.elim
    simpa [Phase.abandons] using hNot
  case idle | schedules | deleteReturns | tickDecides | tickLocked | tickCloses => cases hAwaits
  all_goals exact h.leave hWas rfl fun _ hOwed => hOwed.elim

/-- A new request owes nothing yet. -/
theorem Standing.request (h : Standing p) (hIdle : p.sessions sid = .idle) (request : Request) (t : Time) :
    Advances sid p (p.enter sid (request.phase t)) := by
  cases request <;> exact h.enter hIdle rfl trivial fun _ hOwed => hOwed.elim

def Event.session : Event → Nat
  | .request sid _ _ => sid
  | .wake sid _ => sid
  | .resume sid _ _ => sid
  | .commit sid => sid
  | .raise sid _ => sid

/-- Any step but a failure that leaves an active lot to nobody. -/
theorem step_advances (e : Event) (h : Standing p) (hStep : step p e = some p')
    (hNot : NothingAbandoned p e) : Advances e.session p p' := by
  cases Process.steps_of_step hStep with
  | @request sid request t hIdle => exact h.request hIdle request t
  | wake hIdle hTask hSleeping => exact h.wake hIdle hTask hSleeping
  | resume hResume => exact h.resume hResume
  | commit hCommit => exact h.commit hCommit _ (.inl rfl)
  | @fails sid landed hAwaits hNone =>
      have hPhase : (p.sessions sid).abandons p landed = false := hNot
      cases landed with
      | false => exact h.raise hAwaits hPhase
      | true => exact h.raise hAwaits ((Phase.abandons_of_no_commit (hNone rfl)).trans hPhase)
  | failsLate hAwaits hCommit => exact h.commit hCommit _ (.inr ⟨rfl, hNot⟩)

/-- Every step that abandons nothing keeps the invariant. -/
theorem step_inv (e : Event) (h : Inv p) (hStep : step p e = some p')
    (hNot : NothingAbandoned p e) : Inv p' :=
  h.advance (step_advances e h.standing hStep hNot)

theorem storedLots_id {rows : List (Option Auction)} {id : LotId} {row : Auction}
    (hRow : (storedLots rows).get id = some row) : row.id = id := by
  obtain ⟨stored, _, rfl⟩ := Option.map_eq_some_iff.mp hRow
  rfl

/-- Walking the table arms the lots it has come by, each on its own. -/
theorem scheduleActiveAuctions_armed (rows : List (Option Auction)) (ids : List LotId) :
    let registry := scheduleActiveAuctions (storedLots rows) ids
    registry.Sound ∧
      (∀ task t, registry.tasks.get task = some t →
        t.auctionId < rows.length ∧ t.status ≠ .ticking) ∧
      ∀ id ∈ ids, ∀ row, (storedLots rows).get id = some row → row.isActive = true →
        registry.Armed id row.endTime := by
  induction ids with
  | nil =>
      refine ⟨fun id task hSlot => ?_, fun task t hTask => ?_, fun id hId => ?_⟩
      · cases hSlot
      · cases hTask
      · cases hId
  | cons head rest ih =>
      obtain ⟨hSound, hTasks, hArmed⟩ := ih
      simp only [scheduleActiveAuctions]
      cases hFound : ((storedLots rows).get head).filter fun auction => auction.isActive with
      | none =>
          refine ⟨hSound, hTasks, fun id hId row hRow hActive => ?_⟩
          rcases List.mem_cons.mp hId with rfl | hRest
          · simp [hRow, Option.filter, hActive] at hFound
          · exact hArmed id hRest row hRow hActive
      | some auction =>
          obtain ⟨hStored, hHeadActive⟩ := Option.filter_eq_some_iff.mp hFound
          obtain rfl := storedLots_id hStored
          have hReworks := Registry.scheduleAuction_reworks hSound none auction
          refine ⟨hReworks.sound, fun task t' hTask' => ?_, fun id hId row hRow hActive => ?_⟩
          · rcases hReworks.created task t' hTask' with hOld | ⟨hLot, hNot⟩
            · obtain ⟨t, hTask⟩ := Option.isSome_iff_exists.mp hOld
              obtain ⟨found, hSame, hLot, _, hStatus⟩ := hReworks.kept task t hTask
              rw [hTask', Option.some.injEq] at hSame
              subst hSame
              refine ⟨hLot ▸ (hTasks task t hTask).1, ?_⟩
              rcases hStatus with hKeep | ⟨_, _, hCancelled⟩
              · exact hKeep ▸ (hTasks task t hTask).2
              · simp [hCancelled]
            · exact ⟨hLot ▸ Table.lt_serial hStored, hNot⟩
          · by_cases hSame : id = auction.id
            · subst hSame
              obtain rfl := Option.some.inj (hRow.symm.trans hStored)
              exact Registry.armed_scheduleAuction _ none hHeadActive
            · refine hReworks.armed_other hSound hSame (hArmed id ?_ row hRow hActive)
              exact (List.mem_cons.mp hId).resolve_left hSame

/-- The process starts within the invariant. -/
theorem start_inv (rows : List (Option Auction)) (bidders : LotId → List UserId) :
    Inv (Process.start rows bidders) := by
  obtain ⟨hSound, hTasks, hArmed⟩ := scheduleActiveAuctions_armed rows (List.range rows.length)
  refine ⟨fun id row hRow => storedLots_id hRow, hSound, ⟨?_, ?_, ?_, ?_⟩, fun _ => trivial, ?_⟩
  · intro sid task auctionId hTick
    cases hTick
  · intro sid other task auctionId auctionId' hTick
    cases hTick
  · exact fun task t hTask hTicking => absurd hTicking (hTasks task t hTask).2
  · exact fun task t hTask => (hTasks task t hTask).1
  · intro id row hRow hActive
    exact .inl (hArmed id (List.mem_range.mpr (Table.lt_serial hRow)) row hRow hActive)

/-- A session owes only lots that it concerns. -/
theorem Phase.concerns_of_owes {auctionId : LotId} {phase : Phase} (h : phase.owes auctionId) :
    phase.concerns auctionId := by
  cases phase <;> first | exact h | exact h.elim

theorem Phase.concerns_of_tick {task : Nat} {auctionId : LotId} {phase : Phase}
    (h : phase.tick = some (task, auctionId)) : phase.concerns auctionId := by
  cases phase <;> cases h <;> rfl

/-- A covered lot that no session is about has a sleeping task. -/
theorem Inv.noStrandedLot (h : Inv p) : NoStrandedLot p := by
  intro auctionId row hRow hActive hQuiet
  rcases h.covered auctionId row hRow hActive with hArmed | ⟨sid, hOwes⟩
  · obtain ⟨task, t, hSlot, hTask, hLive, hEnd⟩ := hArmed
    refine ⟨task, t, hSlot, hTask, ?_, hEnd⟩
    by_contra hAwake
    have hTicking : t.status = .ticking := by simpa [CompletionTask.live, hAwake] using hLive
    obtain ⟨sid, hTick⟩ := h.ticks.awake task t hTask hTicking
    obtain rfl := h.sound.owner hTask hSlot
    exact hQuiet sid (Phase.concerns_of_tick hTick)
  · exact absurd (Phase.concerns_of_owes hOwes) (hQuiet sid)

/-- In every run of one process in which no call fails so that an active lot is
left to nobody, no lot is ever stranded. -/
theorem no_stranded_lot (rows : List (Option Auction)) (bidders : LotId → List UserId) {p : Process}
    (run : Runs.Reaches step NothingAbandoned (Process.start rows bidders) p) : NoStrandedLot p :=
  (run.invariant (start_inv rows bidders) fun e h hStep hNot =>
    step_inv e h hStep hNot).noStrandedLot

/-- A bid a second before the deadline of the lot moves it, and with it the
timer; a deletion that fails leaves it. -/
theorem no_stranded_lot_chair : ∃ p : Process,
    (p.lots.get 0).map (·.endTime) = some (seconds 719) ∧ NoStrandedLot p := by
  obtain ⟨p, run, hExtended⟩ := Runs.exists_reaches step NothingAbandoned
    (Process.start [some (newAuction 0 chair 0 0)] fun _ => [])
    [.request 1 (.deleteAuction 0 0) 0, .resume 1 0 true, .raise 1 false,
      .request 1 (.placeBid 7 ⟨0, ⟨20000, by decide⟩⟩) 0, .resume 1 (seconds 599) true,
      .resume 1 (seconds 599) true, .commit 1, .resume 1 (seconds 599) true,
      .resume 1 (seconds 599) true]
    (fun p => (p.lots.get 0).map (·.endTime) = some (seconds 719)) (by decide +kernel)
  exact ⟨p, hExtended, no_stranded_lot _ _ run⟩

section

variable {s : Nat} (hOther : s ≠ sid)

include hOther

theorem sessions_enter_other (p : Process) (phase : Phase) :
    (p.enter sid phase).sessions s = p.sessions s := Function.update_of_ne hOther _ _

theorem sessions_lockLot {auctionId : LotId} {givesUp : Phase} {checks : Auction → Option Phase}
    (hStep : p.lockLot sid auctionId givesUp checks = some p') :
    p'.sessions s = p.sessions s := by
  unfold Process.lockLot at hStep
  split_ifs at hStep
  obtain rfl := Option.some.inj hStep
  split <;> exact sessions_enter_other hOther _ _

theorem sessions_resume {t : Time} {passes : Bool} {phase : Phase}
    (hStep : resume p sid t passes phase = some p') : p'.sessions s = p.sessions s := by
  cases phase
  case bidWaits | updateWaits | buyWaits | deleteWaits | tickWaits =>
    exact sessions_lockLot hOther hStep
  all_goals
    rw [resume] at hStep
    repeat' split at hStep
    all_goals cases hStep <;> exact sessions_enter_other hOther _ _

end

theorem sessions_commit {phase : Phase} (hCommit : phase.commit p = some p') :
    p'.sessions = p.sessions := by
  cases phase <;> cases hCommit <;> rfl

/-- A step moves one session. -/
theorem sessions_step {e : Event} (hStep : step p e = some p') {s : Nat} (hOther : s ≠ e.session) :
    p'.sessions s = p.sessions s := by
  cases Process.steps_of_step hStep with
  | request => exact sessions_enter_other hOther _ _
  | wake => exact sessions_enter_other hOther _ _
  | resume hResume => exact sessions_resume hOther hResume
  | commit hCommit =>
      exact (sessions_enter_other hOther _ _).trans (congrFun (sessions_commit hCommit) s)
  | fails => exact sessions_enter_other hOther _ _
  | failsLate _ hCommit =>
      exact (sessions_enter_other hOther _ _).trans (congrFun (sessions_commit hCommit) s)

/-- A schedule of session 1 at whose end it is idle and a lot is active, with
nothing in its slot. -/
theorem stranded_of_schedule {rows : List (Option Auction)} {bidders : LotId → List UserId}
    (schedule : List Event) (auctionId : LotId)
    (h : (Runs.perform step (fun _ e => e.session = 1) (Process.start rows bidders) schedule).any
      (fun p => (p.sessions 1 matches .idle) && p.active auctionId &&
        (p.registry.completionTasks auctionId).isNone) = true) :
    ∃ p, Runs.Reaches step (fun _ _ => True) (Process.start rows bidders) p ∧ ¬NoStrandedLot p := by
  obtain ⟨p, hPerform, hFound⟩ := (Option.any_eq_true _ _).mp h
  have run := Runs.reaches_of_perform .init hPerform
  have hIdle : ∀ s, s ≠ 1 → p.sessions s = .idle := by
    apply run.invariant (I := fun p => ∀ s, s ≠ 1 → p.sessions s = .idle) (fun _ _ => rfl)
    intro before after e hWas hStep hSession s hOther
    rw [sessions_step hStep (ne_of_ne_of_eq hOther hSession.symm)]
    exact hWas s hOther
  refine ⟨p, run.weaken fun _ _ _ => trivial, fun hNone => ?_⟩
  simp only [Bool.and_eq_true, Option.isNone_iff_eq_none] at hFound
  obtain ⟨⟨hOne, hActive⟩, hEmpty⟩ := hFound
  obtain ⟨row, hRow, hRowActive⟩ := (Option.any_eq_true _ _).mp hActive
  obtain ⟨task, t, hSlot, _⟩ := hNone auctionId row hRow hRowActive fun s => by
    by_cases hSession : s = 1
    · subst hSession
      split at hOne
      next hSessionIdle => simp [hSessionIdle, Phase.concerns]
      next => cases hOne
    · simp [hIdle s hSession, Phase.concerns]
  simp [hEmpty] at hSlot

def fixedPriceChair : Auction :=
  { newAuction 0 chair 0 0 with auctionType := .bin, binPrice := some 10000 }

/-- Each of the failures strands the lot: a purchase whose commit raises, a
creation whose refresh raises, a tick whose first query raises. -/
theorem failures_strand_lot :
    (∃ p, Runs.Reaches step (fun _ _ => True) (Process.start [some fixedPriceChair] fun _ => []) p ∧
      ¬NoStrandedLot p) ∧
    (∃ p, Runs.Reaches step (fun _ _ => True) (Process.start [] fun _ => []) p ∧
      ¬NoStrandedLot p) ∧
    ∃ p, Runs.Reaches step (fun _ _ => True) (Process.start [some (newAuction 0 chair 0 0)]
      fun _ => []) p ∧ ¬NoStrandedLot p := by
  refine ⟨?purchase, ?creation, ?tick⟩
  case purchase =>
    exact stranded_of_schedule [.request 1 (.buyNow 7 0) 0, .resume 1 0 true, .resume 1 0 true,
      .raise 1 false] 0 (by decide +kernel)
  case creation =>
    exact stranded_of_schedule [.request 1 (.createAuction 7 chair) 0, .resume 1 0 true, .commit 1,
      .raise 1 false] 0 (by decide +kernel)
  case tick =>
    exact stranded_of_schedule [.wake 1 0, .raise 1 false, .resume 1 0 true] 0 (by decide +kernel)

end OnlineAuction.Scheduler
