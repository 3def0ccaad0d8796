import OnlineAuction.Scheduler.Leadership

/-! Which lots have a timer somewhere: the leader arms those it finds when it is
elected, any other has its timer where its last request was served. -/

namespace OnlineAuction.Scheduler

variable {host : Nat → Nat} {c c' : Cluster} {w : Nat} {auctionId : LotId}

/-- The answer of `schedule_active_auctions`, as long as it has not been walked. -/
def Worker.answers (worker : Worker) : List Auction :=
  match worker.duty with
  | .schedules active => active
  | _ => []

/-- The table of lots has been read since the worker was elected. -/
def Duty.hasRead : Duty → Bool
  | .rests | .pings | .schedules _ => true
  | _ => false

/-- The `lifespan` has yielded, and no `on_promote` is pending. -/
def Worker.settled (worker : Worker) : Bool :=
  worker.serving && match worker.duty with
    | .rests | .pings | .claims _ => true
    | _ => false

def Phase.requests (auctionId : LotId) (phase : Phase) : Prop :=
  phase.concerns auctionId ∧ phase.tick = none

/-- Once the leader is settled, every active lot that no request is about has a
pending completion task in some worker. -/
def ActiveLotsCovered (c : Cluster) : Prop :=
  ∀ leader, c.holder = some leader → (c.workers leader).settled = true →
    ∀ auctionId row, c.lots.get auctionId = some row → row.isActive = true →
      (∀ sid, ¬(c.sessions sid).requests auctionId) →
        ∃ w, (c.workers w).duty ≠ .down ∧
          ∃ task t, (c.workers w).completion.completionTasks auctionId = some task ∧
            (c.workers w).completion.tasks.get task = some t ∧ t.auctionId = auctionId ∧
              t.live = true

/-- The worker has a task in the slot of the lot that is due in time, or a request
that will arm the lot or close it. -/
def Cluster.LooksAfter (host : Nat → Nat) (c : Cluster) (w : Nat) (row : Auction) : Prop :=
  Covered (c.view host w) row.id row.endTime

def Cluster.Lists (c : Cluster) (row : Auction) : Prop :=
  c.lots.get row.id = some row ∧ row.isActive = true

/-- No call fails where that leaves an active lot to nobody. A worker that ends
leaves no lot to nobody that a leader has not yet to find in the table; and a worker
that takes back a lock that it had lost, and so does not read the table, finds every
lot in somebody's care. -/
def KeepsCovered (host : Nat → Nat) (c : Cluster) : Action → Prop
  | .act e => NothingAbandoned (c.view host (host e.session)) e
  | .load _ answers => answers = true
  | .crash w => ∀ leader, c.holder = some leader → leader ≠ w →
      (c.workers leader).duty.hasRead = true → ∀ row, c.Lists row → c.LooksAfter host w row →
        (∃ v, v ≠ w ∧ c.LooksAfter host v row) ∨
          ∃ auction ∈ (c.workers leader).answers, auction.id = row.id
  | .claim w answers => (c.workers w).duty = .claims true → answers = true → c.holder = none →
      ∀ row, c.Lists row → ∃ v, c.LooksAfter host v row
  | _ => True

structure Cluster.Inv (host : Nat → Nat) (c : Cluster) : Prop where
  standing : ∀ w, Standing (c.view host w)
  answers : ∀ w, ∀ auction ∈ (c.workers w).answers,
    auction.isActive = true ∧ Stale (c.view host w) auction
  leader : ∀ w, c.holder = some w → (c.workers w).leaderConnection = true
  follower : ∀ w, (c.workers w).duty = .down ∨ (∃ wasLeader, (c.workers w).duty = .claims wasLeader) →
    (c.workers w).leaderConnection = false
  down : ∀ w, (c.workers w).duty = .down → (c.workers w).completion = .empty
  covered : ∀ leader, c.holder = some leader → (c.workers leader).duty.hasRead = true →
    ∀ row, c.Lists row → (∃ w, c.LooksAfter host w row) ∨
      ∃ auction ∈ (c.workers leader).answers, auction.id = row.id

section

variable {p p' : Process}

/-- Others have changed the lots and the locks. -/
theorem Standing.outside (h : Standing p) (hSessions : p'.sessions = p.sessions)
    (hRegistry : p'.registry = p.registry) (hLots : Evolves p.lots p'.lots)
    (hIds : ∀ id row, p'.lots.get id = some row → row.id = id)
    (hSpares : ∀ sid, p.sessions sid ≠ .idle → Spares sid p p') : Standing p' where
  rowIds := hIds
  sound := by
    rw [hRegistry]
    exact h.sound
  ticks := by
    apply h.ticks.next (fun s => by rw [hSessions]) hLots.serial
    · exact fun task t hTask => ⟨t, by rwa [hRegistry], rfl, .inl rfl⟩
    · exact fun task t hTask => .inl (by rw [← hRegistry, hTask, Option.isSome_some])
  phases s := by
    rw [hSessions]
    by_cases hIdle : p.sessions s = .idle
    · rw [hIdle]
      trivial
    · apply (hSpares s hIdle).ok (h.phases s)
      exact fun task id hTick => h.ticks.lt_serial hTick

/-- A process that has nothing to do. -/
theorem Standing.asleep (hIds : ∀ id row, p.lots.get id = some row → row.id = id)
    (hRegistry : p.registry = .empty) (hIdle : ∀ sid, p.sessions sid = .idle) : Standing p := by
  refine ⟨hIds, ?_, ⟨?_, ?_, ?_, ?_⟩, fun sid => ?_⟩
  · rw [hRegistry]
    intro auctionId task hSlot
    cases hSlot
  · intro sid task auctionId hTick
    rw [hIdle] at hTick
    cases hTick
  · intro sid other task id id' hTick
    rw [hIdle] at hTick
    cases hTick
  · intro task t hTask
    rw [hRegistry] at hTask
    cases hTask
  · intro task t hTask
    rw [hRegistry] at hTask
    cases hTask
  · rw [hIdle]
    trivial

/-- A lot is scheduled outside any session. -/
theorem Standing.schedule (h : Standing p) {auction : Auction} (hStale : Stale p auction) :
    Standing (p.setRegistry (p.registry.scheduleAuction none auction)) := by
  have hReworks := Registry.scheduleAuction_reworks h.sound none auction
  refine ⟨h.rowIds, hReworks.sound, ?_, fun s => ?_⟩
  · exact h.ticks.reworks (fun _ => rfl) rfl hReworks hStale.1
  · have frame : Frame (s + 1) p _ := .reworks hReworks
    apply (frame.spares (Nat.lt_succ_self s).ne).ok (h.phases s)
    exact fun task id hTick => h.ticks.lt_serial hTick

theorem Standing.covered_schedule (h : Standing p) {auction row : Auction}
    (hActive : auction.isActive = true) (hStale : Stale p auction)
    (hRow : p.lots.get row.id = some row) (hRowActive : row.isActive = true)
    (hCovered : Covered p row.id row.endTime ∨ auction.id = row.id) :
    Covered (p.setRegistry (p.registry.scheduleAuction none auction)) row.id row.endTime := by
  have hReworks := Registry.scheduleAuction_reworks h.sound none auction
  by_cases hSame : auction.id = row.id
  · left
    have hArmed := Registry.armed_scheduleAuction p.registry none hActive
    rw [hSame] at hArmed
    apply hArmed.mono
    exact (hStale.2 row (by rwa [hSame]) hRowActive).2
  · rcases hCovered.resolve_right hSame with hArmed | hOwed
    · exact .inl (hReworks.armed_other h.sound (Ne.symm hSame) hArmed)
    · exact .inr hOwed

/-- `schedule_active_auctions` walks its answer. -/
theorem Standing.schedules (active : List Auction) (h : Standing p)
    (hActive : ∀ auction ∈ active, auction.isActive = true ∧ Stale p auction) :
    let registry := active.foldl (fun r auction => r.scheduleAuction none auction) p.registry
    Standing (p.setRegistry registry) ∧ ∀ row, p.lots.get row.id = some row → row.isActive = true →
      (Covered p row.id row.endTime ∨ ∃ auction ∈ active, auction.id = row.id) →
        Covered (p.setRegistry registry) row.id row.endTime := by
  induction active generalizing p with
  | nil =>
      refine ⟨h, fun row _ _ hCovered => hCovered.resolve_right ?_⟩
      intro ⟨auction, hMem, _⟩
      cases hMem
  | cons first rest ih =>
      obtain ⟨hFirst, hStale⟩ := hActive first (by simp)
      have hRest : ∀ auction ∈ rest, auction.isActive = true ∧ Stale p auction :=
        fun auction hMem => hActive auction (List.mem_cons_of_mem first hMem)
      obtain ⟨hStanding, hCovers⟩ := ih (h.schedule hStale) hRest
      refine ⟨hStanding, fun row hRow hRowActive hCovered => hCovers row hRow hRowActive ?_⟩
      rcases hCovered with hWas | ⟨auction, hMem, hId⟩
      · exact .inl (h.covered_schedule hFirst hStale hRow hRowActive (.inl hWas))
      · rcases List.mem_cons.mp hMem with rfl | hLater
        · exact .inl (h.covered_schedule hFirst hStale hRow hRowActive (.inr hId))
        · exact .inr ⟨auction, hLater, hId⟩

end

theorem Phase.requests_of_owes {phase : Phase} (h : phase.owes auctionId) :
    phase.requests auctionId := by
  refine ⟨concerns_of_owes h, ?_⟩
  cases phase <;> first | rfl | exact h.elim

namespace Cluster

/-- A worker that keeps its tasks, and the lock: no process is another. -/
theorem view_turn {worker : Worker} (hCompletion : worker.completion = (c.workers w).completion)
    (holder : Option Nat) (v : Nat) :
    view host { c.setWorker w worker with holder := holder } v = c.view host v := by
  unfold view
  by_cases hV : v = w
  · subst hV
    simp [hCompletion, setWorker]
  · simp [setWorker, hV]

/-- What a step of a session to the process `p` makes of the cluster. -/
structure Acts (host : Nat → Nat) (c : Cluster) (e : Event) (p : Process) (c' : Cluster) : Prop where
  moves : Scheduler.step (c.view host (host e.session)) e = some p
  up : (c.workers (host e.session)).duty ≠ .down
  holder : c'.holder = c.holder
  lots : c'.lots = p.lots
  duties : ∀ v, (c'.workers v).duty = (c.workers v).duty ∧
    (c'.workers v).leaderConnection = (c.workers v).leaderConnection
  others : ∀ v, v ≠ host e.session → c'.workers v = c.workers v
  self : c'.view host (host e.session) = p
  views : ∀ v, v ≠ host e.session → c'.view host v =
    { c.view host v with lots := p.lots, bidders := p.bidders, locks := p.locks }

theorem act_cases {e : Event} (hStep : c.act host e = some c') : ∃ p, Acts host c e p c' := by
  obtain @⟨_, p, hUp, hMoves⟩ := steps_of_step (a := .act e) hStep
  refine ⟨p, hMoves, hUp, rfl, rfl, fun v => ?_, fun v hV => ?_, ?_, fun v hV => ?_⟩
  · by_cases hV : v = host e.session
    · subst hV
      simp
    · simp [hV]
  · exact Function.update_of_ne hV _ _
  · have hSessions : (fun sid => if host sid = host e.session then
        Function.update c.sessions e.session (p.sessions e.session) sid else .idle) = p.sessions := by
      funext sid
      by_cases hSid : sid = e.session
      · subst hSid
        simp
      · rw [Function.update_of_ne hSid, sessions_step hMoves hSid]
        rfl
    simp only [view, Function.update_self, hSessions]
  · have hSessions : (fun sid => if host sid = v then
        Function.update c.sessions e.session (p.sessions e.session) sid else .idle) =
          fun sid => if host sid = v then c.sessions sid else .idle := by
      funext sid
      by_cases hSid : sid = e.session
      · subst hSid
        simp [Ne.symm hV]
      · rw [Function.update_of_ne hSid]
    simp only [view, Function.update_of_ne hV, hSessions]

theorem workers_crash_self (c : Cluster) : (c.crash host w).workers w = .down :=
  Function.update_self ..

theorem workers_crash_other (c : Cluster) {v : Nat} (hV : v ≠ w) :
    (c.crash host w).workers v = c.workers v :=
  Function.update_of_ne hV ..

/-- The other processes do not notice that one has ended. -/
theorem sessions_crash (c : Cluster) {v : Nat} (hV : v ≠ w) :
    ((c.crash host w).view host v).sessions = (c.view host v).sessions := by
  funext sid
  show (if host sid = v then if host sid = w then Phase.idle else c.sessions sid else .idle) =
    if host sid = v then c.sessions sid else .idle
  by_cases hSid : host sid = v
  · rw [if_pos hSid, if_pos hSid, if_neg (hSid ▸ hV)]
  · rw [if_neg hSid, if_neg hSid]

/-- The lock of a process that ends is freed. -/
theorem holder_crash {v : Nat} (hHolds : (c.crash host w).holder = some v) :
    c.holder = some v ∧ v ≠ w := by
  obtain ⟨hWas, hNe⟩ := Option.filter_eq_some_iff.mp hHolds
  exact ⟨hWas, by simpa using hNe⟩

/-- What another process looks after it still does. -/
theorem looksAfter_crash {v : Nat} (hV : v ≠ w) {row : Auction} (h : c.LooksAfter host v row) :
    (c.crash host w).LooksAfter host v row := by
  have hRegistry : ((c.crash host w).view host v).registry = (c.view host v).registry := by
    show ((c.crash host w).workers v).completion = (c.workers v).completion
    rw [workers_crash_other c hV]
  unfold LooksAfter Covered
  rw [hRegistry, sessions_crash c hV]
  exact h

namespace Inv

/-- A worker goes on with its duty, and the lock may change hands. -/
theorem turn (h : c.Inv host) {worker : Worker} (holder : Option Nat)
    (hCompletion : worker.completion = (c.workers w).completion)
    (hAnswers : ∀ auction ∈ worker.answers,
      auction.isActive = true ∧ Stale (c.view host w) auction)
    (hFollower : worker.duty = .down ∨ (∃ wasLeader, worker.duty = .claims wasLeader) →
      worker.leaderConnection = false)
    (hDown : worker.duty = .down → worker.completion = .empty)
    (hLeader : holder = some w → worker.leaderConnection = true)
    (hHolder : ∀ v, v ≠ w → holder = some v → c.holder = some v)
    (hCovered : holder = some w → worker.duty.hasRead = true → ∀ row, c.Lists row →
      (∃ v, c.LooksAfter host v row) ∨ ∃ auction ∈ worker.answers, auction.id = row.id) :
    Inv host { c.setWorker w worker with holder := holder } := by
  have hView := @view_turn host c w worker hCompletion holder
  have hSelf : (c.setWorker w worker).workers w = worker := c.workers_setWorker w worker
  have hOther {v : Nat} (hV : v ≠ w) : (c.setWorker w worker).workers v = c.workers v :=
    c.workers_setWorker_other worker hV
  refine ⟨fun v => ?_, fun v auction hMem => ?_, fun v hHolds => ?_, fun v hWaits => ?_,
    fun v hIsDown => ?_, fun v hHolds hRead row hLists => ?_⟩
  · rw [hView]
    exact h.standing v
  · rw [hView]
    by_cases hV : v = w
    · subst hV
      exact hAnswers auction (by rwa [hSelf] at hMem)
    · exact h.answers v auction (by rwa [hOther hV] at hMem)
  · by_cases hV : v = w
    · subst hV
      exact hSelf.symm ▸ hLeader hHolds
    · exact (hOther hV).symm ▸ h.leader v (hHolder v hV hHolds)
  · by_cases hV : v = w
    · subst hV
      exact hSelf.symm ▸ hFollower (hSelf ▸ hWaits)
    · exact (hOther hV).symm ▸ h.follower v (hOther hV ▸ hWaits)
  · by_cases hV : v = w
    · subst hV
      exact hSelf.symm ▸ hDown (hSelf ▸ hIsDown)
    · exact (hOther hV).symm ▸ h.down v (hOther hV ▸ hIsDown)
  · have hLooks : (∃ v, c.LooksAfter host v row) ∨
        ∃ auction ∈ ((c.setWorker w worker).workers v).answers, auction.id = row.id := by
      by_cases hV : v = w
      · subst hV
        have hRead : ((c.setWorker v worker).workers v).duty.hasRead = true := hRead
        rw [hSelf] at hRead ⊢
        exact hCovered hHolds hRead row hLists
      · have hRead : ((c.setWorker w worker).workers v).duty.hasRead = true := hRead
        rw [hOther hV] at hRead ⊢
        exact h.covered v (hHolder v hV hHolds) hRead row hLists
    refine hLooks.imp_left fun ⟨u, hLooks⟩ => ⟨u, ?_⟩
    unfold LooksAfter
    rw [hView]
    exact hLooks

/-- The lots, their locks and one process change, the duties do not. -/
theorem advance (h : c.Inv host) (hWorkers : ∀ v, (c'.workers v).duty = (c.workers v).duty ∧
      (c'.workers v).leaderConnection = (c.workers v).leaderConnection)
    (hHolder : c'.holder = c.holder) (hLots : Evolves c.lots c'.lots)
    (hStanding : ∀ v, Standing (c'.view host v))
    (hDown : ∀ v, (c.workers v).duty = .down → (c'.workers v).completion = .empty)
    (hLooks : ∀ row', c'.Lists row' → (∀ row, c.lots.get row'.id = some row → row.isActive = true →
      ∃ v, Covered (c.view host v) row'.id row.endTime) → ∃ v, c'.LooksAfter host v row') :
    c'.Inv host := by
  have hSame (v : Nat) : (c'.workers v).answers = (c.workers v).answers := by
    unfold Worker.answers
    rw [(hWorkers v).1]
  refine ⟨hStanding, fun v auction hMem => ?_, fun v hHolds => ?_, fun v hWaits => ?_,
    fun v hIsDown => ?_, fun v hHolds hRead row' hLists => ?_⟩
  · rw [hSame] at hMem
    obtain ⟨hActive, hStale⟩ := h.answers v auction hMem
    exact ⟨hActive, hStale.evolves hLots⟩
  · rw [(hWorkers v).2]
    exact h.leader v (hHolder ▸ hHolds)
  · rw [(hWorkers v).1] at hWaits
    rw [(hWorkers v).2]
    exact h.follower v hWaits
  · rw [(hWorkers v).1] at hIsDown
    exact hDown v hIsDown
  · rw [(hWorkers v).1] at hRead
    rw [hSame]
    by_cases hAnswer : ∃ auction ∈ (c.workers v).answers, auction.id = row'.id
    · exact .inr hAnswer
    · left
      apply hLooks row' hLists
      intro row hRow hActive
      have hId : row.id = row'.id := (h.standing v).rowIds _ row hRow
      have hCare := h.covered v (hHolder ▸ hHolds) hRead row ⟨by rwa [hId], hActive⟩
      rw [hId] at hCare
      obtain ⟨u, hCovered⟩ := hCare.resolve_right hAnswer
      refine ⟨u, ?_⟩
      rw [← hId]
      exact hCovered

/-- A step of a session. -/
theorem act (h : c.Inv host) {e : Event} (hStep : c.act host e = some c')
    (hNot : NothingAbandoned (c.view host (host e.session)) e) : c'.Inv host := by
  obtain ⟨p, hActs⟩ := act_cases hStep
  have hAdvances := step_advances e (h.standing (host e.session)) hActs.moves hNot
  have hEvolves : Evolves c.lots c'.lots := by
    rw [hActs.lots]
    exact hAdvances.frame.lots
  refine h.advance hActs.duties hActs.holder hEvolves (fun v => ?_) (fun v hDown => ?_)
    fun row' hLists hWas => ?_
  · by_cases hV : v = host e.session
    · subst hV
      rw [hActs.self]
      exact hAdvances.standing
    · rw [hActs.views v hV]
      refine Standing.outside (h.standing v) ?_ ?_ hAdvances.frame.lots hAdvances.standing.rowIds ?_
      · rfl
      · rfl
      intro sid hBusy
      have hSid : sid ≠ e.session := by
        rintro rfl
        exact hBusy (if_neg (Ne.symm hV))
      have hSpares := hAdvances.frame.spares hSid
      exact ⟨hSpares.lots, hSpares.locks, hSpares.rows, fun _ _ hSlot => .inl hSlot⟩
  · have hV : v ≠ host e.session := by
      rintro rfl
      exact hActs.up hDown
    rw [hActs.others v hV]
    exact h.down v hDown
  · obtain ⟨hRow', hActive'⟩ := hLists
    rw [hActs.lots] at hRow'
    have hCovers := hAdvances.covered row'.id row' hRow' hActive'
    by_cases hOld : ∃ row, c.lots.get row'.id = some row ∧ row.isActive = true
    · obtain ⟨row, hRow, hActive⟩ := hOld
      obtain ⟨v, hCovered⟩ := hWas row hRow hActive
      refine ⟨v, ?_⟩
      unfold LooksAfter
      by_cases hV : v = host e.session
      · subst hV
        rw [hActs.self]
        apply hCovers
        intro found hFound _
        obtain rfl := Option.some.inj (hRow.symm.trans hFound)
        exact hCovered
      · rw [hActs.views v hV]
        obtain ⟨found, hFound, _, hEnd⟩ := hAdvances.frame.lots.active row'.id
          (Table.lt_serial hRow) row' hRow' hActive'
        obtain rfl := Option.some.inj (hRow.symm.trans hFound)
        exact Or.imp_left (fun hArmed => hArmed.mono hEnd) hCovered
    · refine ⟨host e.session, ?_⟩
      unfold LooksAfter
      rw [hActs.self]
      exact hCovers fun row hRow hActive => absurd ⟨row, hRow, hActive⟩ hOld

/-- The process that has ended is asleep, the others stand where they stood. -/
theorem standing_crash (h : c.Inv host) (v : Nat) : Standing ((c.crash host w).view host v) := by
  by_cases hV : v = w
  · subst hV
    have hIdle (sid : Nat) : ((c.crash host v).view host v).sessions sid = .idle := by
      show (if host sid = v then if host sid = v then Phase.idle else c.sessions sid
        else .idle) = .idle
      split_ifs <;> rfl
    have hRegistry : ((c.crash host v).view host v).registry = .empty := by
      show ((c.crash host v).workers v).completion = .empty
      rw [workers_crash_self]
      rfl
    exact .asleep (h.standing v).rowIds hRegistry hIdle
  · apply (h.standing v).outside (sessions_crash c hV) _ (.refl _) (h.standing v).rowIds
    · intro sid hBusy
      have hHost : host sid = v := by
        by_contra hHost
        exact hBusy (if_neg hHost)
      refine ⟨.refl _, fun id hLock => ?_, fun _ _ _ => rfl, fun id task hSlot => .inl ?_⟩
      · apply Option.filter_eq_some_iff.mpr
        exact ⟨hLock, by simpa [hHost] using hV⟩
      · have hSlot : ((c.crash host w).workers v).completion.completionTasks id = some task := hSlot
        rwa [workers_crash_other c hV] at hSlot
    · show ((c.crash host w).workers v).completion = (c.workers v).completion
      rw [workers_crash_other c hV]

/-- A process ends. -/
theorem crash (h : c.Inv host) (hKeeps : ∀ leader, c.holder = some leader → leader ≠ w →
      (c.workers leader).duty.hasRead = true → ∀ row, c.Lists row → c.LooksAfter host w row →
        (∃ v, v ≠ w ∧ c.LooksAfter host v row) ∨
          ∃ auction ∈ (c.workers leader).answers, auction.id = row.id) :
    (c.crash host w).Inv host := by
  refine ⟨h.standing_crash, fun v auction hMem => ?_, fun v hHolds => ?_, fun v hWaits => ?_,
    fun v hIsDown => ?_, fun v hHolds hRead row hLists => ?_⟩
  · by_cases hV : v = w
    · subst hV
      rw [workers_crash_self] at hMem
      cases hMem
    · rw [workers_crash_other c hV] at hMem
      exact h.answers v auction hMem
  · obtain ⟨hWas, hV⟩ := holder_crash hHolds
    rw [workers_crash_other c hV]
    exact h.leader v hWas
  · by_cases hV : v = w
    · subst hV
      rw [workers_crash_self]
      rfl
    · rw [workers_crash_other c hV] at hWaits ⊢
      exact h.follower v hWaits
  · by_cases hV : v = w
    · subst hV
      rw [workers_crash_self]
      rfl
    · rw [workers_crash_other c hV] at hIsDown ⊢
      exact h.down v hIsDown
  · obtain ⟨hWas, hV⟩ := holder_crash hHolds
    rw [workers_crash_other c hV] at hRead ⊢
    rcases h.covered v hWas hRead row hLists with ⟨u, hLooks⟩ | hAnswer
    · by_cases hU : u = w
      · subst hU
        refine (hKeeps v hWas hV hRead row hLists hLooks).imp_left fun ⟨u', hU', hLooks'⟩ => ?_
        exact ⟨u', looksAfter_crash hU' hLooks'⟩
      · exact .inl ⟨u, looksAfter_crash hU hLooks⟩
    · exact .inr hAnswer

/-- The answer of `schedule_active_auctions` is walked: its lots are looked after. -/
theorem schedule (h : c.Inv host) {active : List Auction} {worker : Worker}
    (hDuty : (c.workers w).duty = .schedules active) (hRests : worker.duty = .rests)
    (hConnection : worker.leaderConnection = (c.workers w).leaderConnection)
    (hCompletion : worker.completion = active.foldl (fun r auction => r.scheduleAuction none auction)
      (c.workers w).completion) : (c.setWorker w worker).Inv host := by
  have hSelf : (c.setWorker w worker).workers w = worker := c.workers_setWorker w worker
  have hOther {v : Nat} (hV : v ≠ w) : (c.setWorker w worker).workers v = c.workers v :=
    c.workers_setWorker_other worker hV
  have hAnswers : (c.workers w).answers = active := by rw [Worker.answers, hDuty]
  obtain ⟨hStanding, hCovers⟩ := (h.standing w).schedules active (hAnswers ▸ h.answers w)
  have hView : (c.setWorker w worker).view host w = (c.view host w).setRegistry
      (active.foldl (fun r auction => r.scheduleAuction none auction) (c.workers w).completion) := by
    simp only [view, hSelf, hCompletion]
    rfl
  have hViews {v : Nat} (hV : v ≠ w) : (c.setWorker w worker).view host v = c.view host v := by
    simp only [view, hOther hV]
    rfl
  have hStill {v : Nat} {row : Auction} (hLists : c.Lists row) (hLooks : c.LooksAfter host v row) :
      (c.setWorker w worker).LooksAfter host v row := by
    unfold LooksAfter
    by_cases hV : v = w
    · subst hV
      rw [hView]
      exact hCovers row hLists.1 hLists.2 (.inl hLooks)
    · rw [hViews hV]
      exact hLooks
  refine ⟨fun v => ?_, fun v auction hMem => ?_, fun v hHolds => ?_, fun v hWaits => ?_,
    fun v hIsDown => ?_, fun v hHolds hRead row hLists => ?_⟩
  · by_cases hV : v = w
    · subst hV
      rw [hView]
      exact hStanding
    · rw [hViews hV]
      exact h.standing v
  · by_cases hV : v = w
    · subst hV
      rw [hSelf, Worker.answers, hRests] at hMem
      cases hMem
    · rw [hOther hV] at hMem
      exact h.answers v auction hMem
  · by_cases hV : v = w
    · subst hV
      rw [hSelf, hConnection]
      exact h.leader v hHolds
    · rw [hOther hV]
      exact h.leader v hHolds
  · by_cases hV : v = w
    · subst hV
      rw [hSelf, hRests] at hWaits
      rcases hWaits with hDown | ⟨_, hClaims⟩
      · cases hDown
      · cases hClaims
    · rw [hOther hV] at hWaits ⊢
      exact h.follower v hWaits
  · by_cases hV : v = w
    · subst hV
      rw [hSelf, hRests] at hIsDown
      cases hIsDown
    · rw [hOther hV] at hIsDown ⊢
      exact h.down v hIsDown
  · by_cases hV : v = w
    · subst hV
      left
      rcases h.covered v hHolds (by rw [hDuty]; rfl) row hLists with ⟨u, hLooks⟩ | hAnswer
      · exact ⟨u, hStill hLists hLooks⟩
      · refine ⟨v, ?_⟩
        unfold LooksAfter
        rw [hView]
        exact hCovers row hLists.1 hLists.2 (.inr (hAnswers ▸ hAnswer))
    · rw [hOther hV] at hRead ⊢
      refine (h.covered v hHolds hRead row hLists).imp_left fun ⟨u, hLooks⟩ => ?_
      exact ⟨u, hStill hLists hLooks⟩

/-- A warning notes that it has been sent. -/
theorem notified (h : c.Inv host) (hFree : c.locks auctionId = none) :
    Inv host { c with lots := c.lots.modify auctionId fun row =>
      { row with endingSoonNotified := true } } := by
  have hEvolves : Evolves c.lots (c.lots.modify auctionId fun row =>
      { row with endingSoonNotified := true }) :=
    .of_modify fun row _ hActive => ⟨hActive, le_rfl⟩
  refine h.advance (fun _ => ⟨rfl, rfl⟩) rfl hEvolves (fun v => ?_) h.down fun row' hLists hWas => ?_
  · refine Standing.outside (h.standing v) rfl rfl hEvolves (fun id row' hRow' => ?_) fun sid _ => ?_
    · by_cases hId : id = auctionId
      · subst hId
        have hRow' : (c.lots.modify id _).get id = some row' := hRow'
        rw [Table.get_modify_self] at hRow'
        obtain ⟨row, hRow, rfl⟩ := Option.map_eq_some_iff.mp hRow'
        exact (h.standing v).rowIds id row hRow
      · have hRow' : (c.lots.modify auctionId _).get id = some row' := hRow'
        rw [Table.get_modify_other _ _ hId] at hRow'
        exact (h.standing v).rowIds id row' hRow'
    · refine ⟨hEvolves, fun _ hLock => hLock, fun id _ hLock => ?_, fun _ _ hSlot => .inl hSlot⟩
      apply Table.get_modify_other
      rintro rfl
      exact absurd (hFree.symm.trans hLock) (by simp)
  · obtain ⟨row, hRow, hActive, hEnd⟩ := hEvolves.active row'.id
      (Table.lt_serial (t := c.lots.modify auctionId _) hLists.1) row' hLists.1 hLists.2
    obtain ⟨v, hCovered⟩ := hWas row hRow hActive
    exact ⟨v, Or.imp_left (fun hArmed => hArmed.mono hEnd) hCovered⟩

/-- A worker that waits to be elected does not hold the lock. -/
theorem not_holder (h : c.Inv host) {wasLeader : Bool} (hDuty : (c.workers w).duty = .claims wasLeader) :
    c.holder ≠ some w := by
  intro hHolds
  have hNot := h.follower w (.inr ⟨wasLeader, hDuty⟩)
  rw [h.leader w hHolds] at hNot
  cases hNot

/-- The duty of a worker goes on, with nothing read and the lock where it was. -/
theorem turn_duty (h : c.Inv host) {worker : Worker}
    (hCompletion : worker.completion = (c.workers w).completion) (hAnswers : worker.answers = [])
    (hFollower : worker.duty = .down ∨ (∃ wasLeader, worker.duty = .claims wasLeader) →
      worker.leaderConnection = false) (hUp : worker.duty ≠ .down)
    (hLeader : c.holder = some w → worker.leaderConnection = true)
    (hRead : c.holder = some w → worker.duty.hasRead = true →
      (c.workers w).duty.hasRead = true ∧ (c.workers w).answers = []) :
    (c.setWorker w worker).Inv host := by
  refine h.turn c.holder hCompletion (fun auction hMem => ?_) hFollower (fun hDown => absurd hDown hUp)
    hLeader (fun _ _ hHolds => hHolds) fun hHolds hHasRead row hLists => ?_
  · rw [hAnswers] at hMem
    cases hMem
  · obtain ⟨hWas, hNone⟩ := hRead hHolds hHasRead
    have hCare := h.covered w hHolds hWas row hLists
    rwa [hNone, ← hAnswers] at hCare

/-- A worker that is elected takes over what the last leader has armed. -/
theorem claim (h : c.Inv host) {answers : Bool} (hStep : c.step host (.claim w answers) = some c')
    (hKeeps : KeepsCovered host c (.claim w answers)) : c'.Inv host := by
  cases steps_of_step hStep with
  | @elected _ wasLeader hDuty hFree =>
      refine h.turn (some w) rfl ?_ ?_ ?_ ?_ ?_ ?_
      · intro auction hMem
        cases wasLeader <;> cases hMem
      · intro hWaits
        cases wasLeader <;> simp at hWaits
      · intro hDown
        cases wasLeader <;> cases hDown
      · exact fun _ => rfl
      · exact fun v hV hHolds => absurd (Option.some.inj hHolds).symm hV
      · intro _ hRead row hLists
        cases wasLeader with
        | false => cases hRead
        | true => exact .inl (hKeeps hDuty rfl hFree row hLists)
  | @follows _ _ wasLeader hDuty =>
      apply h.turn_duty
      · rfl
      · rfl
      · exact fun _ => h.follower w (.inr ⟨wasLeader, hDuty⟩)
      · simp
      · exact h.leader w
      · exact fun hHolds => absurd hHolds (h.not_holder hDuty)

/-- A leader that reads the table finds every active lot there. -/
theorem load (h : c.Inv host) (hStep : c.step host (.load w true) = some c') : c'.Inv host := by
  cases steps_of_step hStep with
  | loads hDuty =>
      refine h.turn c.holder rfl ?_ ?_ ?_ ?_ ?_ ?_
      · intro auction hMem
        obtain ⟨hActive, id, hRow⟩ := active_of_mem hMem
        have hId := (h.standing w).rowIds id auction hRow
        exact ⟨hActive, .of_stored (by rwa [hId])⟩
      · exact fun hWaits => by simp at hWaits
      · exact fun hDown => by cases hDown
      · exact h.leader w
      · exact fun _ _ hHolds => hHolds
      · intro _ _ row hLists
        right
        refine ⟨row, List.mem_filterMap.mpr ⟨row.id, ?_, ?_⟩, rfl⟩
        · exact List.mem_range.mpr (Table.lt_serial hLists.1)
        · exact Option.filter_eq_some_iff.mpr hLists

theorem heartbeat (h : c.Inv host) (hStep : c.step host (.heartbeat w) = some c') :
    c'.Inv host := by
  cases steps_of_step hStep with
  | heartbeat hRests =>
      cases hConnection : (c.workers w).leaderConnection with
      | true =>
          apply h.turn_duty
          · rfl
          · rfl
          · simp
          · simp
          · exact fun _ => hConnection
          · exact fun _ _ => by simp [hRests, Duty.hasRead, Worker.answers]
      | false =>
          apply h.turn_duty
          · rfl
          · rfl
          · exact fun _ => hConnection
          · simp
          · exact h.leader w
          · exact fun _ hRead => by cases hRead

/-- A leader whose connection does not answer gives the lock up. -/
theorem ping (h : c.Inv host) {answers : Bool} (hStep : c.step host (.ping w answers) = some c') :
    c'.Inv host := by
  cases steps_of_step hStep with
  | answered hPings =>
      apply h.turn_duty
      · rfl
      · rfl
      · simp
      · simp
      · exact h.leader w
      · exact fun _ _ => by simp [hPings, Duty.hasRead, Worker.answers]
  | unanswered =>
      have hNot : c.holder.filter (fun v => v ≠ w) ≠ some w := by
        intro hHolds
        simp at hHolds
      refine h.turn _ rfl ?_ ?_ ?_ ?_ ?_ ?_
      · exact fun auction hMem => by cases hMem
      · exact fun _ => rfl
      · exact fun hDown => by cases hDown
      · exact fun hHolds => absurd hHolds hNot
      · exact fun _ _ hHolds => (Option.filter_eq_some_iff.mp hHolds).1
      · exact fun hHolds => absurd hHolds hNot

/-- A worker wakes a warning up or ends it. -/
theorem warnings (h : c.Inv host) (w : Nat) (endingSoon : Registry) :
    (c.setWorker w { c.workers w with endingSoon := endingSoon }).Inv host :=
  h.turn c.holder rfl (h.answers w) (h.follower w) (h.down w) (h.leader w)
    (fun _ _ hHolds => hHolds) (h.covered w)

theorem step (h : c.Inv host) {a : Action} (hStep : c.step host a = some c')
    (hKeeps : KeepsCovered host c a) : c'.Inv host := by
  cases a with
  | act e => exact h.act hStep hKeeps
  | claim v answers => exact h.claim hStep hKeeps
  | heartbeat v => exact h.heartbeat hStep
  | ping v answers => exact h.ping hStep
  | load v answers =>
      obtain rfl : answers = true := hKeeps
      exact h.load hStep
  | start v =>
      cases steps_of_step hStep with
      | start hDown =>
          apply h.turn_duty
          · rfl
          · rfl
          · exact fun _ => h.follower v (.inl hDown)
          · simp
          · exact h.leader v
          · exact fun _ hRead => by cases hRead
  | schedule v t =>
      cases steps_of_step hStep with
      | schedule hDuty => exact h.schedule hDuty rfl rfl rfl
  | disconnect =>
      cases steps_of_step hStep
      refine ⟨h.standing, h.answers, fun _ hHolds => ?_, h.follower, h.down, fun _ hHolds => ?_⟩
      · cases hHolds
      · cases hHolds
  | crash v =>
      cases steps_of_step hStep
      exact h.crash hKeeps
  | notified v task =>
      cases steps_of_step hStep with
      | notified _ _ hFree => exact h.notified hFree
  | warn v task =>
      cases steps_of_step hStep
      exact h.warnings v _
  | warned v task =>
      cases steps_of_step hStep
      exact h.warnings v _

/-- A settled leader has read the table, and walked it. -/
theorem activeLotsCovered (h : c.Inv host) : ActiveLotsCovered c := by
  intro leader hHolds hSettled auctionId row hRow hActive hQuiet
  obtain rfl : row.id = auctionId := (h.standing leader).rowIds auctionId row hRow
  have hRead : (c.workers leader).duty.hasRead = true ∧ (c.workers leader).answers = [] := by
    have hNot (wasLeader : Bool) : (c.workers leader).duty ≠ .claims wasLeader := fun hDuty =>
      h.not_holder hDuty hHolds
    cases hDuty : (c.workers leader).duty <;>
      simp_all [Worker.settled, Worker.answers, Duty.hasRead]
  have hCare := h.covered leader hHolds hRead.1 row ⟨hRow, hActive⟩
  rw [hRead.2] at hCare
  obtain ⟨w, hLooks⟩ := hCare.resolve_right fun ⟨_, hMem, _⟩ => by cases hMem
  rcases hLooks with ⟨task, t, hSlot, hTask, hLive, _⟩ | ⟨sid, hOwes⟩
  · refine ⟨w, fun hDown => ?_, task, t, hSlot, hTask, ?_, hLive⟩
    · have hSlot : (c.workers w).completion.completionTasks row.id = some task := hSlot
      rw [h.down w hDown] at hSlot
      cases hSlot
    · exact (h.standing w).sound.owner hTask hSlot
  · have hOwes : (if host sid = w then c.sessions sid else .idle).owes row.id := hOwes
    split_ifs at hOwes
    · exact absurd (Phase.requests_of_owes hOwes) (hQuiet sid)
    · cases hOwes

end Inv

end Cluster

theorem Cluster.start_inv (rows : List (Option Auction)) (bidders : LotId → List UserId) :
    (Cluster.start rows bidders).Inv host := by
  refine ⟨fun v => ?_, fun v auction hMem => ?_, fun v hHolds => ?_, fun _ _ => rfl, fun _ _ => rfl,
    fun v hHolds => ?_⟩
  · apply Standing.asleep
    · exact fun id row hRow => storedLots_id hRow
    · rfl
    · exact fun sid => ite_self _
  · cases hMem
  · cases hHolds
  · cases hHolds

/-- In every run in which no worker ends that alone looks after a lot the leader has
not yet to find, and no lock is taken back while a lot is in nobody's care, every
active lot has a timer under a settled leader. -/
theorem active_lots_covered (host : Nat → Nat) (rows : List (Option Auction))
    (bidders : LotId → List UserId) {c : Cluster}
    (run : Runs.Reaches (Cluster.step host) (KeepsCovered host) (.start rows bidders) c) :
    ActiveLotsCovered c := by
  have hInv : c.Inv host := by
    apply run.invariant (I := fun c => c.Inv host) (Cluster.start_inv rows bidders)
    intro before after a h hStep hKeeps
    exact h.step hStep hKeeps
  exact hInv.activeLotsCovered

/-- The schedules below: nobody but a leader ends, nobody takes the lock back. -/
def Uneventful (host : Nat → Nat) (c : Cluster) : Action → Prop
  | .act e => NothingAbandoned (c.view host (host e.session)) e
  | .load _ answers => answers = true
  | .crash w => c.holder = some w
  | .claim w _ => (c.workers w).duty ≠ .claims true
  | _ => True

instance (host : Nat → Nat) (c : Cluster) : (a : Action) → Decidable (Uneventful host c a)
  | .act e => inferInstanceAs (Decidable (NothingAbandoned (c.view host (host e.session)) e))
  | .load _ answers => inferInstanceAs (Decidable (answers = true))
  | .crash w => inferInstanceAs (Decidable (c.holder = some w))
  | .claim w _ => inferInstanceAs (Decidable ((c.workers w).duty ≠ .claims true))
  | .start _ | .schedule _ _ | .heartbeat _ | .ping _ _ | .disconnect => .isTrue trivial
  | .warn _ _ | .notified _ _ | .warned _ _ => .isTrue trivial

theorem Uneventful.keepsCovered {a : Action} (h : Uneventful host c a) : KeepsCovered host c a := by
  cases a with
  | act e => exact h
  | load v answers => exact h
  | claim v answers => exact fun hDuty => absurd hDuty h
  | crash v =>
      intro leader hHolds hOther
      exact absurd (Option.some.inj (hHolds.symm.trans h)) hOther
  | _ => trivial

/-- A lot that a follower has created is armed by it once more when it is elected. -/
theorem active_lots_covered_chair : ∃ c : Cluster,
    c.holder = some 1 ∧ (c.workers 1).settled = true ∧ (c.lots.get 0).isSome = true ∧
      ActiveLotsCovered c := by
  obtain ⟨c, run, hHolds, hSettled, hRow⟩ := Runs.exists_reaches (Cluster.step twoWorkers)
    (Uneventful twoWorkers) (.start [] fun _ => [])
    (electsFirst ++ createsChair 1 ++ [.crash 0, .heartbeat 1, .claim 1 true, .load 1 true,
      .schedule 1 0])
    (fun c => c.holder = some 1 ∧ (c.workers 1).settled = true ∧ (c.lots.get 0).isSome = true)
    (by decide +kernel)
  refine ⟨c, hHolds, hSettled, hRow, ?_⟩
  exact active_lots_covered twoWorkers [] (fun _ => [])
    (run.weaken fun _ _ hUneventful => hUneventful.keepsCovered)

def Action.worker (host : Nat → Nat) : Action → Option Nat
  | .act e => some (host e.session)
  | .start w | .claim w _ | .load w _ | .schedule w _ | .heartbeat w | .ping w _ | .crash w => some w
  | .disconnect => none
  | .warn w _ | .notified w _ | .warned w _ => some w

/-- An action moves one worker. -/
theorem workers_step {a : Action} (hStep : c.step host a = some c') {v : Nat}
    (hOther : a.worker host ≠ some v) : c'.workers v = c.workers v := by
  have hV {w : Nat} (hWorker : a.worker host = some w) : v ≠ w := by
    rintro rfl
    exact hOther hWorker
  cases Cluster.steps_of_step hStep with
  | disconnect => rfl
  | notified => rfl
  | _ => exact Function.update_of_ne (hV rfl) ..

/-- An idle session stays idle unless it acts itself. -/
theorem idle_step {a : Action} (hStep : c.step host a = some c') {sid : Nat}
    (hOther : ∀ e, a = .act e → e.session ≠ sid) (hIdle : c.sessions sid = .idle) :
    c'.sessions sid = .idle := by
  have hCrash {w : Nat} : (c.crash host w).sessions sid = .idle := by
    show (if host sid = w then Phase.idle else c.sessions sid) = .idle
    rw [hIdle, ite_self]
  cases Cluster.steps_of_step hStep with
  | @act e p =>
      show Function.update c.sessions e.session _ sid = .idle
      rw [Function.update_of_ne (hOther e rfl).symm]
      exact hIdle
  | lifespanFails => exact hCrash
  | crash => exact hCrash
  | _ => exact hIdle

/-- A schedule of session 1 and of two workers. -/
def Confined : Action → Prop
  | .act e => e.session = 1
  | a => ∀ w ∈ a.worker twoWorkers, w < 2

instance : (a : Action) → Decidable (Confined a)
  | .act e => inferInstanceAs (Decidable (e.session = 1))
  | .start w | .claim w _ | .load w _ | .schedule w _ | .heartbeat w | .ping w _ | .crash w =>
      inferInstanceAs (Decidable (∀ v ∈ some w, v < 2))
  | .disconnect => inferInstanceAs (Decidable (∀ v ∈ none, v < 2))
  | .warn w _ | .notified w _ | .warned w _ => inferInstanceAs (Decidable (∀ v ∈ some w, v < 2))

theorem confined_run {rows : List (Option Auction)} {bidders : LotId → List UserId}
    (run : Runs.Reaches (Cluster.step twoWorkers) (fun _ a => Confined a) (.start rows bidders) c) :
    (∀ sid, sid ≠ 1 → c.sessions sid = .idle) ∧ ∀ w, 2 ≤ w → c.workers w = .down := by
  apply run.invariant (I := fun c => (∀ sid, sid ≠ 1 → c.sessions sid = .idle) ∧
    ∀ w, 2 ≤ w → c.workers w = .down)
  · exact ⟨fun _ _ => rfl, fun _ _ => rfl⟩
  intro before after a ⟨hIdle, hDown⟩ hStep hConfined
  constructor
  · intro sid hSid
    apply idle_step hStep _ (hIdle sid hSid)
    rintro e rfl
    exact fun hSame => hSid (hSame.symm.trans hConfined)
  · intro w hW
    refine (workers_step hStep fun hWorker => ?_).trans (hDown w hW)
    have hLt : w < 2 := by
      cases a with
      | act e =>
          obtain rfl := Option.some.inj hWorker
          exact Nat.mod_lt _ (by decide)
      | _ => exact hConfined w hWorker
    omega

def Phase.isIdle : Phase → Bool
  | .idle => true
  | _ => false

theorem Phase.eq_idle {phase : Phase} (h : phase.isIdle = true) : phase = .idle := by
  cases phase <;> first | rfl | cases h

/-- A lot that a follower has created is gone from all timers when the follower ends,
and the leader does not read the table again. -/
theorem active_lot_not_covered : ∃ c,
    Runs.Reaches (Cluster.step twoWorkers) (fun _ _ => True) (.start [] fun _ => []) c ∧
      ¬ActiveLotsCovered c := by
  obtain ⟨c, run, hHolds, hSettled, hRow, hEmpty, hOne⟩ := Runs.exists_reaches
    (Cluster.step twoWorkers) (fun _ a => Confined a) (.start [] fun _ => [])
    (electsFirst ++ createsChair 1 ++ [.crash 1, .heartbeat 0, .ping 0 true])
    (fun c => c.holder = some 0 ∧ (c.workers 0).settled = true ∧
      (c.lots.get 0).any (fun row => row.isActive) = true ∧
      ((c.workers 0).completion.completionTasks 0 = none ∧
        (c.workers 1).completion.completionTasks 0 = none) ∧
      (c.sessions 1).isIdle = true) (by decide +kernel)
  refine ⟨c, run.weaken fun _ _ _ => trivial, fun hCovered => ?_⟩
  obtain ⟨hIdle, hDown⟩ := confined_run run
  obtain ⟨row, hFound, hActive⟩ := (Option.any_eq_true _ _).mp hRow
  have hQuiet (sid : Nat) : ¬(c.sessions sid).requests 0 := by
    have hSession : c.sessions sid = .idle := by
      by_cases hSid : sid = 1
      · subst hSid
        exact Phase.eq_idle hOne
      · exact hIdle sid hSid
    rw [hSession]
    exact fun hRequests => hRequests.1
  obtain ⟨w, hUp, task, t, hSlot, _⟩ := hCovered 0 hHolds hSettled 0 row hFound hActive hQuiet
  have hW : w < 2 := by
    by_contra hLarge
    exact hUp (congrArg Worker.duty (hDown w (by omega)))
  obtain rfl | rfl : w = 0 ∨ w = 1 := by omega
  · rw [hEmpty.1] at hSlot
    cases hSlot
  · rw [hEmpty.2] at hSlot
    cases hSlot

end OnlineAuction.Scheduler
