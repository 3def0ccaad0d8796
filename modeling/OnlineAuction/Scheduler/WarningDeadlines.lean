import OnlineAuction.Scheduler.WarningTimes

/-! As long as no deadline is extended behind a flag, a copy or a tick, every lot is
warned of before the deadline it has. -/

namespace OnlineAuction.Scheduler

/-- The warning is not ahead, or a task sleeps to it, or a session is yet to call. -/
def Watched (now : Time) (r : Registry) (p : Process) (auctionId : LotId) (due : Time) : Prop :=
  due ≤ now ∨ r.Sleeps auctionId due ∨ ∃ sid, (p.sessions sid).rearms auctionId

/-- What holds between the steps of a run in which the warnings follow. -/
structure Watch.Timely (w : Watch) : Prop where
  standing : Standing w.process
  sound : w.endingSoon.Sound
  flags : ∀ id row, w.process.lots.get id = some row → Flagged w.now row
  tells : ∀ sid, (w.process.sessions sid).Tells w.now
  watched : ∀ id row, w.process.lots.get id = some row → row.isActive = true →
    Watched w.now w.endingSoon w.process id (fireAt row)

variable {w w' : Watch} {sid : Nat} {p' : Process} {r : Registry} {auctionId : LotId} {due : Time}

/-- A step of one session that keeps the task of the lot and what the session owes it. -/
theorem Watched.next (h : Watched w.now w.endingSoon w.process auctionId due)
    (hOthers : ∀ s, s ≠ sid → p'.sessions s = w.process.sessions s)
    (hSleeps : w.endingSoon.Sleeps auctionId due → r.Sleeps auctionId due)
    (hRearms : (w.process.sessions sid).rearms auctionId → (p'.sessions sid).rearms auctionId) :
    Watched w.now r p' auctionId due := by
  rcases h with hPast | hWas | ⟨s, hWas⟩
  · exact .inl hPast
  · exact .inr (.inl (hSleeps hWas))
  · refine .inr (.inr ⟨s, ?_⟩)
    by_cases hSid : s = sid
    · subst hSid
      exact hRearms hWas
    · rwa [hOthers s hSid]

namespace Watch.Timely

/-- A step of one session. -/
theorem moved (h : w.Timely) (hStanding : Standing p')
    (hOthers : ∀ s, s ≠ sid → p'.sessions s = w.process.sessions s)
    (hTells : (p'.sessions sid).Tells w.now) (hSound : r.Sound)
    (hRows : ∀ id row, p'.lots.get id = some row → Flagged w.now row ∧
      (row.isActive = true → Watched w.now r p' id (fireAt row))) :
    Watch.Timely ⟨p', r, w.warnings, w.notifications, w.now⟩ where
  standing := hStanding
  sound := hSound
  flags id row hRow := (hRows id row hRow).1
  tells s := by
    by_cases hSid : s = sid
    · subst hSid
      exact hTells
    · show (p'.sessions s).Tells w.now
      rw [hOthers s hSid]
      exact h.tells s
  watched id row hRow := (hRows id row hRow).2

/-- A copy that is up to date arms the warning of the lot, if it is ahead. -/
theorem armed {copy row : Auction} (hUpToDate : w.UpToDate sid copy)
    (hOthers : ∀ s, s ≠ sid → p'.sessions s = w.process.sessions s)
    (hRow : w.process.lots.get copy.id = some row) (hActive : row.isActive = true)
    (hArms : fireAt copy = fireAt row → w.now < fireAt row → r.Sleeps copy.id (fireAt copy)) :
    Watched w.now r p' copy.id (fireAt row) := by
  by_cases hPast : fireAt row ≤ w.now
  · exact .inl hPast
  · rcases hUpToDate with hSame | hDue | ⟨other, hOther, hRearms⟩
    · have hFire : fireAt copy = fireAt row := by
        rw [fireAt, fireAt, hSame row hRow]
      have hSleeps := hArms hFire (not_le.mp hPast)
      rw [hFire] at hSleeps
      exact .inr (.inl hSleeps)
    · exact .inl (hDue row hRow hActive)
    · rw [← hOthers other hOther] at hRearms
      exact .inr (.inr ⟨other, hRearms⟩)

theorem flag_clear {copy : Auction} (hFlagged : Flagged w.now copy) (hActive : copy.isActive = true)
    (hAhead : w.now < fireAt copy) : copy.endingSoonNotified = false := by
  by_contra hFlag
  exact absurd (hFlagged hActive (by simpa using hFlag)) hAhead.not_ge

theorem scheduled {copy row : Auction} (hStale : Stale w.process copy) (hFlagged : Flagged w.now copy)
    (hUpToDate : w.UpToDate sid copy)
    (hOthers : ∀ s, s ≠ sid → p'.sessions s = w.process.sessions s)
    (hRow : w.process.lots.get copy.id = some row) (hActive : row.isActive = true) :
    Watched w.now ((Call.schedule copy).onEndingSoon w.now w.endingSoon) p' copy.id
      (fireAt row) := by
  apply armed hUpToDate hOthers hRow hActive
  intro hFire hAhead
  have hCopy : copy.isActive = true := (hStale.2 row hRow hActive).1
  rw [← hFire] at hAhead
  simp only [Call.onEndingSoon]
  rw [if_pos hCopy, Registry.armEndingSoonTask_ahead (flag_clear hFlagged hCopy hAhead) hAhead]
  exact Registry.sleeps_armCompletionTask _ _ _

/-- The lot that a call is about. -/
theorem called (h : w.Timely) {passes : Bool} {call : Call}
    (hCall : (w.process.sessions sid).call w.process w.now passes = some call)
    (hFollows : call.FollowsDeadline w sid)
    (hStep : resume w.process sid w.now passes (w.process.sessions sid) = some p') {row : Auction}
    (hRow : w.process.lots.get call.auctionId = some row) (hActive : row.isActive = true) :
    Watched w.now (call.onEndingSoon w.now w.endingSoon) p' call.auctionId (fireAt row) := by
  have hOthers (s : Nat) (hSid : s ≠ sid) : p'.sessions s = w.process.sessions s :=
    sessions_resume hSid hStep
  have hOk := h.standing.phases sid
  have hTells := h.tells sid
  have hWatched := h.watched _ row hRow hActive
  cases hWas : w.process.sessions sid <;> rw [hWas] at hCall hOk hTells hStep
  case schedules copy =>
    obtain rfl := Option.some.inj hCall
    exact scheduled hOk hTells hFollows hOthers hRow hActive
  case tickLocked task copy =>
    simp only [Phase.call] at hCall
    split_ifs at hCall
    obtain rfl := Option.some.inj hCall
    exact scheduled hOk.2.1 hTells hFollows hOthers hRow hActive
  case buyChecks userId held price =>
    simp only [Phase.call] at hCall
    split_ifs at hCall with hPasses
    obtain rfl := Option.some.inj hCall
    rw [resume, if_pos hPasses] at hStep
    obtain rfl := Option.some.inj hStep
    refine .inr (.inr ⟨sid, ?_⟩)
    rw [Process.sessions_enter]
    exact Eq.refl held.id
  case deleteReturns auctionId =>
    obtain rfl := Option.some.inj hCall
    have hInactive : row.isActive = false := hOk.2 row hRow
    cases hInactive.symm.trans hActive
  case tickDecides task auctionId answer =>
    simp only [Phase.call] at hCall
    split_ifs at hCall
    split at hCall
    · cases hCall
    · rename_i copy hFound
      split_ifs at hCall
      obtain rfl := Option.some.inj hCall
      obtain ⟨rfl, hCopy⟩ := Option.filter_eq_some_iff.mp hFound
      by_cases hPast : fireAt copy ≤ w.now
      · have hNothing : (Call.rearm copy).onEndingSoon w.now w.endingSoon = w.endingSoon :=
          Registry.armEndingSoonTask_past hPast
        rw [hNothing]
        apply hWatched.next hOthers id
        rw [hWas]
        exact False.elim
      · apply armed (hFollows.resolve_left hPast) hOthers hRow hActive
        intro _ _
        have hAhead := not_le.mp hPast
        simp only [Call.onEndingSoon]
        rw [Registry.armEndingSoonTask_ahead (flag_clear hTells hCopy hAhead) hAhead]
        exact Registry.sleeps_armCompletionTask _ _ _
  all_goals cases hCall

/-- The code of a session is resumed. -/
theorem resumed (h : w.Timely) {passes : Bool}
    (hStep : resume w.process sid w.now passes (w.process.sessions sid) = some p')
    (hFollows : FollowsDeadline w (.act (.resume sid w.now passes))) :
    Watch.Timely ⟨p', match Event.call w.process (.resume sid w.now passes) with
      | none => w.endingSoon
      | some (call, t) => call.onEndingSoon t w.endingSoon, w.warnings, w.notifications, w.now⟩ := by
  have hOthers (s : Nat) (hSid : s ≠ sid) : p'.sessions s = w.process.sessions s :=
    sessions_resume hSid hStep
  have hStanding := (h.standing.resume hStep).standing
  have hTells : (p'.sessions sid).Tells w.now := resume_tells (h.tells sid) h.flags hStep
  obtain ⟨hLots, -⟩ := tables_resume hStep
  cases hCall : (w.process.sessions sid).call w.process w.now passes with
  | none =>
      simp only [Event.call, hCall, Option.map_none]
      apply h.moved hStanding hOthers hTells h.sound
      rw [hLots]
      intro id row hRow
      refine ⟨h.flags id row hRow, fun hActive => ?_⟩
      apply (h.watched id row hRow hActive).next hOthers (fun hSleeps => hSleeps)
      intro hRearms
      rcases resume_rearms h.standing hRow hRearms hStep with hStill | ⟨copy, hWas, -⟩
      · exact hStill
      · rw [hWas] at hCall
        cases hCall
  | some call =>
      obtain ⟨hSound, hSleeps⟩ := call.onEndingSoon_others h.sound w.now
      simp only [Event.call, hCall, Option.map_some]
      apply h.moved hStanding hOthers hTells hSound
      rw [hLots]
      intro id row hRow
      refine ⟨h.flags id row hRow, fun hActive => ?_⟩
      by_cases hId : id = call.auctionId
      · subst hId
        exact h.called hCall (hFollows call hCall) hStep hRow hActive
      · apply (h.watched id row hRow hActive).next hOthers (hSleeps id hId _)
        intro hRearms
        rcases resume_rearms h.standing hRow hRearms hStep with hStill | ⟨copy, hWas, hCopy⟩
        · exact hStill
        · rw [hWas] at hCall
          obtain rfl := Option.some.inj hCall
          exact absurd hCopy.symm hId

/-- The rows after the `UPDATE` of a lot that the session holds. -/
theorem row_of_write {p : Process} {row changed found : Auction} (hHolds : Holds p sid row)
    (hChanged : changed.id = row.id) {id : LotId}
    (hFound : (p.write row changed).lots.get id = some found) :
    id = row.id ∧ found = changed ∨ p.lots.get id = some found := by
  by_cases hId : id = row.id
  · subst hId
    rw [Process.write, Table.get_modify_self, hHolds.stored, Option.map_some,
      Auction.flush_loaded row changed hChanged, Option.some.injEq] at hFound
    exact .inl ⟨rfl, hFound.symm⟩
  · rw [Process.write, Table.get_modify_other _ _ hId] at hFound
    exact .inr hFound

/-- The rows after the `UPDATE` that closes a lot. -/
theorem row_of_closing {p : Process} {auction found : Auction} (hActive : auction.isActive = true)
    {id : LotId} (hFound : (p.write auction (closed p auction)).lots.get id = some found) :
    found.isActive = false ∨ p.lots.get id = some found := by
  by_cases hId : id = auction.id
  · subst hId
    rw [Process.write, Table.get_modify_self] at hFound
    obtain ⟨row, -, rfl⟩ := Option.map_eq_some_iff.mp hFound
    exact .inl (by simp [Auction.flush, closed, column, hActive])
  · rw [Process.write, Table.get_modify_other _ _ hId] at hFound
    exact .inr hFound

/-- The lot has its deadline still, and the session owed it nothing; or the session owes
it its timers now. -/
def Kept (p : Process) (sid : Nat) (id : LotId) (found : Auction) : Prop :=
  ((p.sessions sid).afterCommit p).rearms id ∨
    ∃ row, p.lots.get id = some row ∧ row.isActive = true ∧ fireAt row = fireAt found ∧
      ¬(p.sessions sid).rearms id

theorem Kept.of_endTime {p : Process} {row found : Auction} (hHolds : Holds p sid row)
    (hEnd : found.endTime = row.endTime) (hNot : ¬(p.sessions sid).rearms row.id) :
    Kept p sid row.id found :=
  .inr ⟨row, hHolds.stored, hHolds.active, by rw [fireAt, fireAt, hEnd], hNot⟩

/-- What a commit leaves of a lot: a flag that is due, and timers that are still owed
if the deadline has moved. -/
def Lands (w : Watch) (sid : Nat) (id : LotId) (found : Auction) : Prop :=
  Flagged w.now found ∧ (found.isActive = true → Kept w.process sid id found)

section Lands

variable {id : LotId} {row changed found : Auction} {extended : Bool}

/-- A lot that the commit does not touch. -/
theorem Lands.untouched (h : w.Timely) (hNot : ¬(w.process.sessions sid).rearms id)
    (hWas : w.process.lots.get id = some found) : Lands w sid id found :=
  ⟨h.flags id found hWas, fun hActive => .inr ⟨found, hWas, hActive, rfl, hNot⟩⟩

theorem Lands.of_inactive (hClosed : found.isActive = false) : Lands w sid id found := by
  constructor
  · intro hActive
    cases hClosed.symm.trans hActive
  · intro hActive
    cases hClosed.symm.trans hActive

/-- A new lot bears no flag, and its creator is to schedule it. -/
theorem Lands.created (h : w.Timely) {new : LotId → Auction}
    (hWas : w.process.sessions sid = .createCommits new)
    (hFound : (w.process.lots.add new).get id = some found) : Lands w sid id found := by
  have hTells := h.tells sid
  rw [hWas] at hTells
  rcases Table.of_get_add hFound with ⟨hNew, rfl⟩ | hFound
  · constructor
    · intro _ hFlag
      cases (hTells id).symm.trans hFlag
    · intro _
      left
      rw [hWas]
      exact hNew.symm
  · exact .untouched h (by simp [hWas, Phase.rearms]) hFound

/-- A bid that moves the deadline clears the flag and has its session rearm the timers;
any other leaves both. -/
theorem Lands.bid (h : w.Timely) {userId : UserId}
    (hWas : w.process.sessions sid = .bidCommits userId row changed extended)
    (hFound : (w.process.write row changed).lots.get id = some found) : Lands w sid id found := by
  have hOk := h.standing.phases sid
  have hTells := h.tells sid
  rw [hWas] at hOk hTells
  obtain ⟨hHolds, hExtends⟩ := hOk
  rcases row_of_write hHolds hExtends.id hFound with ⟨rfl, rfl⟩ | hSame
  · constructor
    · intro _ hFlag
      obtain ⟨hSet, hEnd⟩ := hTells.1 hFlag
      rw [fireAt, hEnd]
      exact h.flags _ row hHolds.stored hHolds.active hSet
    · intro _
      cases extended with
      | true =>
          left
          rw [hWas]
          exact hExtends.id
      | false =>
          apply Kept.of_endTime hHolds (hTells.2 rfl)
          simp [hWas, Phase.rearms]
  · exact .untouched h (by simp [hWas, Phase.rearms]) hSame

/-- An edit keeps the flag. Where it moves the deadline, the flag is clear or the warning
in the past, and its session is to schedule the lot. -/
theorem Lands.update (h : w.Timely)
    (hWas : w.process.sessions sid = .updateCommits row changed extended)
    (hFollows : FollowsDeadline w (.act (.commit sid)))
    (hFound : (w.process.write row changed).lots.get id = some found) : Lands w sid id found := by
  have hOk := h.standing.phases sid
  have hTells := h.tells sid
  rw [hWas] at hOk hTells
  obtain ⟨hHolds, hExtends⟩ := hOk
  obtain ⟨hFlags, hEnd⟩ := hTells
  rcases row_of_write hHolds hExtends.id hFound with ⟨rfl, rfl⟩ | hSame
  · cases extended with
    | true =>
        simp only [FollowsDeadline, hWas] at hFollows
        constructor
        · intro _ hFlag
          rcases hFollows with hClear | hPast
          · cases (hFlags.trans hClear).symm.trans hFlag
          · exact hPast
        · intro _
          left
          rw [hWas]
          exact ⟨rfl, rfl⟩
    | false =>
        constructor
        · intro _ hFlag
          rw [fireAt, hEnd rfl]
          exact h.flags _ row hHolds.stored hHolds.active (hFlags.symm.trans hFlag)
        · intro _
          apply Kept.of_endTime hHolds (hEnd rfl)
          simp [hWas, Phase.rearms]
  · exact .untouched h (by simp [hWas, Phase.rearms]) hSame

/-- A purchase closes its lot and owes no timer for another. -/
theorem Lands.purchase (h : w.Timely)
    (hWas : w.process.sessions sid = .buyCommits row changed)
    (hFound : (w.process.write row changed).lots.get id = some found) : Lands w sid id found := by
  have hOk := h.standing.phases sid
  rw [hWas] at hOk
  obtain ⟨hHolds, hId, hClosed⟩ := hOk
  by_cases hSame : id = row.id
  · subst hSame
    rw [Process.write, Table.get_modify_self, hHolds.stored, Option.map_some,
      Auction.flush_loaded row changed hId, Option.some.injEq] at hFound
    exact .of_inactive (hFound ▸ hClosed)
  · rw [Process.write, Table.get_modify_other _ _ hSame] at hFound
    apply Lands.untouched h _ hFound
    rw [hWas]
    exact fun hMine => hSame (Eq.symm hMine)

end Lands

/-- What the commit of a session makes of the lots. -/
theorem committed (h : w.Timely) {middle : Process}
    (hCommit : (w.process.sessions sid).commit w.process = some middle)
    (hFollows : FollowsDeadline w (.act (.commit sid))) {id : LotId} {found : Auction}
    (hFound : middle.lots.get id = some found) : Lands w sid id found := by
  have hOk := h.standing.phases sid
  cases hWas : w.process.sessions sid <;> rw [hWas] at hCommit hOk
  case createCommits new =>
    obtain rfl := Option.some.inj hCommit
    exact .created h hWas hFound
  case bidCommits userId row changed extended =>
    obtain rfl := Option.some.inj hCommit
    exact .bid h hWas hFound
  case updateCommits row changed extended =>
    obtain rfl := Option.some.inj hCommit
    exact .update h hWas hFollows hFound
  case buyCommits row changed =>
    obtain rfl := Option.some.inj hCommit
    exact .purchase h hWas hFound
  case deleteCommits auctionId =>
    obtain rfl := Option.some.inj hCommit
    rw [Table.get_erase] at hFound
    split_ifs at hFound
    exact .untouched h (by simp [hWas, Phase.rearms]) hFound
  case tickCommits task auction =>
    obtain rfl := Option.some.inj hCommit
    rcases row_of_closing hOk.2.2 hFound with hClosed | hSame
    · exact .of_inactive hClosed
    · exact .untouched h (by simp [hWas, Phase.rearms]) hSame
  all_goals cases hCommit

/-- A commit has taken effect, and the session goes on. -/
theorem landed (h : w.Timely) {middle : Process} {next : Phase}
    (hCommit : (w.process.sessions sid).commit w.process = some middle)
    (hFollows : FollowsDeadline w (.act (.commit sid)))
    (hNext : next = (w.process.sessions sid).afterCommit w.process)
    (hStanding : Standing ((middle.release sid).enter sid next)) :
    Watch.Timely ⟨(middle.release sid).enter sid next, w.endingSoon, w.warnings, w.notifications,
      w.now⟩ := by
  have hOthers (s : Nat) (hSid : s ≠ sid) :
      ((middle.release sid).enter sid next).sessions s = w.process.sessions s :=
    (sessions_enter_other hSid _ _).trans (congrFun (sessions_commit hCommit) s)
  apply h.moved hStanding hOthers _ h.sound
  · intro id found hFound
    obtain ⟨hFlagged, hKept⟩ := h.committed hCommit hFollows hFound
    refine ⟨hFlagged, fun hActive => ?_⟩
    rcases hKept hActive with hRearms | ⟨row, hRow, hRowActive, hFire, hNot⟩
    · refine .inr (.inr ⟨sid, ?_⟩)
      rw [Process.sessions_enter, hNext]
      exact hRearms
    · rw [← hFire]
      apply (h.watched id row hRow hRowActive).next hOthers (fun hSleeps => hSleeps)
      exact fun hRearms => absurd hRearms hNot
  · rw [Process.sessions_enter, hNext]
    have hTells := h.tells sid
    have hOk := h.standing.phases sid
    cases hWas : w.process.sessions sid <;> rw [hWas] at hTells hOk
    case bidCommits userId row changed extended =>
      cases extended with
      | false => trivial
      | true =>
          intro hActive hFlag
          obtain ⟨hSet, hEnd⟩ := hTells.1 hFlag
          rw [fireAt, hEnd]
          exact h.flags _ row hOk.1.stored hOk.1.active hSet
    all_goals trivial

/-- The session goes on where it owes and knows nothing of the warnings. -/
theorem entered (h : w.Timely) {next : Phase} (hStanding : Standing p')
    (hLots : p'.lots = w.process.lots)
    (hSessions : p'.sessions = (w.process.enter sid next).sessions)
    (hNot : ∀ id, ¬(w.process.sessions sid).rearms id) (hTells : next.Tells w.now) :
    Watch.Timely ⟨p', w.endingSoon, w.warnings, w.notifications, w.now⟩ := by
  have hOthers (s : Nat) (hSid : s ≠ sid) : p'.sessions s = w.process.sessions s := by
    rw [hSessions]
    exact sessions_enter_other hSid _ _
  apply h.moved hStanding hOthers _ h.sound
  · rw [hLots]
    intro id row hRow
    refine ⟨h.flags id row hRow, fun hActive => ?_⟩
    apply (h.watched id row hRow hActive).next hOthers (fun hSleeps => hSleeps)
    exact fun hRearms => absurd hRearms (hNot id)
  · rw [hSessions, Process.sessions_enter]
    exact hTells

/-- A tick that stops because it has been asked to abandons nothing. -/
theorem nothingAbandoned {e : Event} (hNo : NoFailure w (.act e)) : NothingAbandoned w.process e := by
  cases e with
  | raise sid landed =>
      simp only [NoFailure] at hNo
      show (w.process.sessions sid).abandons w.process landed = false
      cases hWas : w.process.sessions sid <;> rw [hWas] at hNo <;> simp [Phase.tick] at hNo <;>
        simp [Phase.abandons, hNo]
  | _ => rfl

section Ticks

variable (hTick : (w.process.sessions sid).tick ≠ none)

include hTick

theorem not_rearms (id : LotId) : ¬(w.process.sessions sid).rearms id := by
  cases hWas : w.process.sessions sid <;> rw [hWas] at hTick <;> simp [Phase.rearms]
  all_goals exact absurd rfl hTick

/-- The call of a tick raises. -/
theorem raised (h : w.Timely)
    (hStanding : Standing ((w.process.release sid).enter sid (w.process.sessions sid).onRaise)) :
    Watch.Timely ⟨(w.process.release sid).enter sid (w.process.sessions sid).onRaise,
      w.endingSoon, w.warnings, w.notifications, w.now⟩ := by
  apply h.entered hStanding rfl rfl (not_rearms hTick)
  cases w.process.sessions sid <;> trivial

/-- The only call of a tick that may have had its effect is the commit of
`complete_auction`. -/
theorem raisedLate (h : w.Timely) {middle : Process}
    (hCommit : (w.process.sessions sid).commit w.process = some middle)
    (hStanding : Standing ((middle.release sid).enter sid (w.process.sessions sid).onRaise)) :
    Watch.Timely ⟨(middle.release sid).enter sid (w.process.sessions sid).onRaise,
      w.endingSoon, w.warnings, w.notifications, w.now⟩ := by
  obtain ⟨task, auction, hWas⟩ : ∃ task auction,
      w.process.sessions sid = .tickCommits task auction := by
    cases hWas : w.process.sessions sid <;> rw [hWas] at hCommit hTick
    case tickCommits task auction => exact ⟨task, auction, rfl⟩
    all_goals first | exact absurd rfl hTick | cases hCommit
  apply h.landed hCommit _ _ hStanding
  · simp [FollowsDeadline, hWas]
  · rw [hWas]
    rfl

end Ticks

/-- A step of the process. -/
theorem act (h : w.Timely) {e : Event} (hNo : NoFailure w (.act e))
    (hFollows : FollowsDeadline w (.act e)) (hReads : e.readsAt w.now = true)
    (hStep : Scheduler.step w.process e = some p') :
    Watch.Timely ⟨p', match Event.call w.process e with
      | none => w.endingSoon
      | some (call, t) => call.onEndingSoon t w.endingSoon, w.warnings, w.notifications, w.now⟩ := by
  have hStanding : Standing p' := (step_advances e h.standing hStep (nothingAbandoned hNo)).standing
  have hTick {sid : Nat} {landed : Bool} (hNo : NoFailure w (.act (.raise sid landed))) :
      (w.process.sessions sid).tick ≠ none := by
    intro hNone
    simp [NoFailure, hNone] at hNo
  cases Process.steps_of_step hStep with
  | @request sid request t hIdle =>
      apply h.entered hStanding rfl rfl
      · intro id
        rw [hIdle]
        exact fun hRearms => hRearms
      · cases request <;> trivial
  | wake hIdle =>
      apply h.entered hStanding rfl rfl
      · intro id
        rw [hIdle]
        exact fun hRearms => hRearms
      · trivial
  | @resume sid t passes _ hResume =>
      obtain rfl : t = w.now := by simpa [Event.readsAt] using hReads
      exact h.resumed hResume hFollows
  | commit hCommit => exact h.landed hCommit hFollows rfl hStanding
  | fails => exact raised (hTick hNo) h hStanding
  | failsLate _ hCommit => exact raisedLate (hTick hNo) h hCommit hStanding

/-- The rows after the flag of a lot has been set. -/
theorem row_of_flag {p : Process} {auction found : Auction} {id : LotId}
    (hFound : (p.write auction { auction with endingSoonNotified := true }).lots.get id =
      some found) :
    ∃ row, p.lots.get id = some row ∧ found.id = row.id ∧ found.isActive = row.isActive ∧
      fireAt found = fireAt row ∧ (id = auction.id ∨ found = row) := by
  by_cases hId : id = auction.id
  · subst hId
    rw [Process.write, Table.get_modify_self] at hFound
    obtain ⟨row, hRow, rfl⟩ := Option.map_eq_some_iff.mp hFound
    exact ⟨row, hRow, rfl, by simp [Auction.flush, column], by simp [fireAt, Auction.flush, column],
      .inl rfl⟩
  · rw [Process.write, Table.get_modify_other _ _ hId] at hFound
    exact ⟨found, hFound, rfl, rfl, rfl, .inr rfl⟩

/-- The commit of the flag finds the row unlocked, and no session holds it. -/
theorem standing_flag (h : Standing w.process) {auction : Auction}
    (hFree : w.process.locks auction.id = none) :
    Standing (w.process.write auction { auction with endingSoonNotified := true }) := by
  have hEvolves : Evolves w.process.lots
      (w.process.write auction { auction with endingSoonNotified := true }).lots := by
    apply Evolves.of_modify
    intro row _ hActive
    have hWas : (Auction.flush auction { auction with endingSoonNotified := true } row).isActive =
        row.isActive := by simp [Auction.flush, column]
    refine ⟨hWas.symm.trans hActive, ?_⟩
    simp [Auction.flush, column]
  apply @Standing.outside _ (w.process.write auction _) h rfl rfl hEvolves
  · exact h.rowIds_write auction _
  · intro s _
    refine ⟨hEvolves, fun _ hLock => hLock, fun id _ hLock => ?_, fun _ _ hSlot => .inl hSlot⟩
    apply Table.get_modify_other
    rintro rfl
    cases hFree.symm.trans hLock

/-- The commit of a task takes effect. -/
theorem land (h : w.Timely) {phase : Warning} (hLand : w.land phase = some w')
    (hDue : ∀ auction, phase = .flags auction → w.Due auction.id) : w'.Timely := by
  cases phase
  case notifies auction users payloads =>
    obtain rfl := Option.some.inj hLand
    exact ⟨h.standing, h.sound, h.flags, h.tells, h.watched⟩
  case flags auction =>
    obtain ⟨hFree, hLand⟩ := Option.ite_none_right_eq_some.mp hLand
    obtain rfl := Option.some.inj hLand
    refine ⟨standing_flag h.standing hFree, h.sound, ?_, h.tells, ?_⟩
    · intro id found hFound hActive hFlag
      obtain ⟨row, hRow, -, hWas, hFire, hWhich⟩ := row_of_flag hFound
      rw [hWas] at hActive
      rcases hWhich with rfl | rfl
      · rw [hFire]
        exact hDue auction rfl row hRow hActive
      · exact h.flags id found hRow hActive hFlag
    · intro id found hFound hActive
      obtain ⟨row, hRow, -, hWas, hFire, -⟩ := row_of_flag hFound
      rw [hFire]
      exact h.watched id row hRow (hWas.symm.trans hActive)
  all_goals cases hLand

/-- Where the tasks are waiting does not matter. -/
theorem enter (h : w.Timely) (task : Nat) (phase : Warning) : (w.enter task phase).Timely :=
  ⟨h.standing, h.sound, h.flags, h.tells, h.watched⟩

/-- A task wakes up or ends. -/
theorem turned (h : w.Timely) (hSound : r.Sound)
    (hSleeps : ∀ id due, w.endingSoon.Sleeps id due → due ≤ w.now ∨ r.Sleeps id due) :
    Watch.Timely { w with endingSoon := r } where
  standing := h.standing
  sound := hSound
  flags := h.flags
  tells := h.tells
  watched id row hRow hActive := by
    rcases h.watched id row hRow hActive with hPast | hWas | hRearms
    · exact .inl hPast
    · exact (hSleeps id _ hWas).imp_right .inl
    · exact .inr (.inr hRearms)

theorem passed (h : w.Timely) {t : Time} (hLater : w.now ≤ t) : Watch.Timely { w with now := t } where
  standing := h.standing
  sound := h.sound
  flags id row hRow hActive hFlag := (h.flags id row hRow hActive hFlag).trans hLater
  tells sid := (h.tells sid).mono hLater
  watched id row hRow hActive := (h.watched id row hRow hActive).imp_left fun hPast =>
    hPast.trans hLater

/-- Every step of such a run. -/
theorem step (h : w.Timely) {e : WatchEvent} (hStep : w.step e = some w') (hNo : NoFailure w e)
    (hFollows : FollowsDeadline w e) : w'.Timely := by
  cases Watch.steps_of_step hStep with
  | act hReads hProcess => exact h.act hNo hFollows hReads hProcess
  | call => exact hNo.elim
  | pass hLater => exact h.passed hLater
  | other => exact ⟨h.standing, h.sound, h.flags, h.tells, h.watched⟩
  | @wake task t hTask _ hDue =>
      apply Watch.Timely.enter
      apply h.turned (h.sound.wake task)
      intro id due hSleeps
      rcases hSleeps.wake hTask with hEnd | hStill
      · rw [← hEnd]
        exact .inl hDue
      · exact .inr hStill
  | answer => exact h.enter _ _
  | commit _ _ hLand => exact (h.land hLand hFollows).enter _ _
  | fails => exact hNo.elim
  | failsLate => exact hNo.elim
  | land _ _ hLand => exact (h.land hLand hFollows).enter _ _
  | finish hTask hAwake =>
      apply Watch.Timely.enter
      apply h.turned (h.sound.finish hTask)
      exact fun id due hSleeps => .inr (hSleeps.finish hTask hAwake)

/-- In a quiet state only a sleeping task is left. -/
theorem warningFollowsDeadline (h : w.Timely) : WarningFollowsDeadline w := by
  intro auctionId row hRow hActive hQuiet hAhead
  constructor
  · by_contra hFlag
    have hPast := h.flags auctionId row hRow hActive (by simpa using hFlag)
    exact absurd hPast hAhead.not_ge
  · rcases h.watched auctionId row hRow hActive with hPast | hSleeps | ⟨sid, hRearms⟩
    · exact absurd hPast hAhead.not_ge
    · exact hSleeps
    · refine absurd ?_ (hQuiet.sessions sid)
      cases hWas : w.process.sessions sid <;> rw [hWas] at hRearms
      case updateRefreshes => exact hRearms.1
      all_goals first | exact hRearms | exact hRearms.elim

end Watch.Timely

/-- `schedule_active_auctions` leaves a sleeping task for each lot whose warning is
ahead. -/
theorem scheduled_active {now : Time} {row : Auction} (hActive : row.isActive = true)
    (hFlag : row.endingSoonNotified = false) (hAhead : now < fireAt row) (auctions : List Auction)
    (hSame : ∀ auction ∈ auctions, auction.id = row.id → auction = row) {r : Registry}
    (hSound : r.Sound) (hSleeps : r.Sleeps row.id (fireAt row) ∨ row ∈ auctions) :
    (auctions.foldl (fun r auction => (Call.schedule auction).onEndingSoon now r) r).Sleeps row.id
      (fireAt row) := by
  induction auctions generalizing r with
  | nil =>
      rcases hSleeps with hSleeps | hMem
      · exact hSleeps
      · cases hMem
  | cons first rest ih =>
      obtain ⟨hNext, hOthers⟩ := (Call.schedule first).onEndingSoon_others hSound now
      apply ih (fun auction hMem => hSame auction (List.mem_cons_of_mem first hMem)) hNext
      by_cases hFirst : first.id = row.id
      · obtain rfl := hSame first (List.mem_cons_self ..) hFirst
        left
        simp only [Call.onEndingSoon]
        rw [if_pos hActive, Registry.armEndingSoonTask_ahead hFlag hAhead]
        exact Registry.sleeps_armCompletionTask _ _ _
      · rcases hSleeps with hSleeps | hMem
        · exact .inl (hOthers row.id (Ne.symm hFirst) _ hSleeps)
        · rcases List.mem_cons.mp hMem with rfl | hRest
          · exact absurd rfl hFirst
          · exact .inr hRest

theorem sound_schedules (auctions : List Auction) (now : Time) {r : Registry} (hSound : r.Sound) :
    (auctions.foldl (fun r auction => (Call.schedule auction).onEndingSoon now r) r).Sound := by
  induction auctions generalizing r with
  | nil => exact hSound
  | cons first rest ih => exact ih ((Call.schedule first).onEndingSoon_others hSound now).1

/-- The process starts over a table in which no lot is flagged whose warning is ahead. -/
theorem Watch.Timely.start {rows : List (Option Auction)} (bidders : LotId → List UserId)
    (notifications : List Notifications.NewNotification) {now : Time}
    (hFlags : ∀ row, some row ∈ rows → Flagged now row) :
    (Watch.start rows bidders notifications now).Timely := by
  have hStored (id : LotId) (row : Auction) (hRow : (storedLots rows).get id = some row) :
      Flagged now row := by
    obtain ⟨found, hFound, rfl⟩ := Option.map_eq_some_iff.mp hRow
    exact hFlags found (List.mem_of_getElem? (Option.join_eq_some_iff.mp hFound))
  have hEmpty : Registry.empty.Sound := fun _ _ hSlot => by cases hSlot
  refine ⟨(start_inv rows bidders).standing, sound_schedules _ now hEmpty, hStored,
    fun _ => trivial, fun id row hRow hActive => ?_⟩
  by_cases hPast : fireAt row ≤ now
  · exact .inl hPast
  have hAhead := not_le.mp hPast
  have hFlag : row.endingSoonNotified = false := by
    by_contra hSet
    exact hPast (hStored id row hRow hActive (by simpa using hSet))
  obtain rfl := storedLots_id hRow
  refine .inr (.inl ?_)
  apply scheduled_active hActive hFlag hAhead _ _ hEmpty
  · right
    apply List.mem_filterMap.mpr
    exact ⟨row.id, List.mem_range.mpr (Table.lt_serial hRow),
      Option.filter_eq_some_iff.mpr ⟨hRow, hActive⟩⟩
  · intro auction hMem hId
    obtain ⟨-, index, hFound⟩ := active_of_mem hMem
    obtain rfl := storedLots_id hFound
    rw [hId] at hFound
    exact Option.some.inj (hFound.symm.trans hRow)

/-- In every run without failures in which the flag is set when the warning is due, no
extension finds it set, and no call comes with an old deadline, the warnings follow. -/
theorem warning_follows_deadline (rows : List (Option Auction)) (bidders : LotId → List UserId)
    (notifications : List Notifications.NewNotification) (now : Time)
    (hFlags : ∀ row, some row ∈ rows → Flagged now row)
    (run : Runs.Reaches Watch.step (fun w e => NoFailure w e ∧ FollowsDeadline w e)
      (.start rows bidders notifications now) w) : WarningFollowsDeadline w := by
  have hTimely : w.Timely := by
    apply run.invariant (I := Watch.Timely) (.start bidders notifications hFlags)
    intro before after e h hStep ⟨hNo, hFollows⟩
    exact h.step hStep hNo hFollows
  exact hTimely.warningFollowsDeadline

/-- The schedules below: one session, no copy but of the latest row, and no tick of the
warning after an extension. -/
def OneByOne (w : Watch) : WatchEvent → Prop
  | .act (.request sid _ _) | .act (.wake sid _) => sid = 1
  | .act (.resume sid t passes) => sid = 1 ∧
      (((w.process.sessions sid).call w.process t passes).all fun call => match call with
        | .schedule copy | .rearm copy =>
            (w.process.lots.get copy.id).all fun row => row.endTime = copy.endTime
        | .cancel _ => true) = true
  | .act (.commit sid) => sid = 1
  | .act (.raise _ _) | .raise _ _ | .call _ | .land _ => False
  | _ => True

instance (w : Watch) (e : WatchEvent) : Decidable (OneByOne w e) := by
  rcases e with e | _ | _ | _ | _ | _ | _ | _ | _ | _
  · cases e <;> unfold OneByOne <;> infer_instance
  all_goals
    unfold OneByOne
    infer_instance

theorem OneByOne.noFailure {e : WatchEvent} (h : OneByOne w e) : NoFailure w e := by
  cases e with
  | act e => cases e <;> first | exact trivial | exact h.elim
  | call | raise => exact h.elim
  | _ => trivial

/-- An extension comes before the warning. -/
def Unwarned (w : Watch) : WatchEvent → Bool
  | .act (.commit sid) => match w.process.sessions sid with
      | .updateCommits row _ _ => !row.endingSoonNotified
      | _ => true
  | .commit _ => false
  | _ => true

theorem OneByOne.followsDeadline {e : WatchEvent} (h : OneByOne w e)
    (hUnwarned : Unwarned w e = true) : FollowsDeadline w e := by
  cases e with
  | act e =>
      cases e with
      | commit sid =>
          simp only [Unwarned] at hUnwarned
          simp only [FollowsDeadline]
          split
          · rename_i hWas
            rw [hWas] at hUnwarned
            exact .inl (by simpa using hUnwarned)
          · trivial
      | resume sid t passes =>
          intro call hCall
          have hCopy := h.2
          rw [Option.mem_def.mp hCall, Option.all_some] at hCopy
          have hUpToDate {copy : Auction} (hAll : ((w.process.lots.get copy.id).all fun row =>
              decide (row.endTime = copy.endTime)) = true) : w.UpToDate sid copy := by
            left
            intro row hRow
            simpa [hRow] using hAll
          cases call with
          | schedule copy => exact hUpToDate hCopy
          | cancel => trivial
          | rearm copy => exact .inr (hUpToDate hCopy)
      | _ => trivial
  | commit => cases hUnwarned
  | land => exact h.elim
  | _ => trivial

theorem sessions_land {phase : Warning} (hLand : w.land phase = some w') :
    w'.process.sessions = w.process.sessions := by
  cases phase
  case notifies =>
    obtain rfl := Option.some.inj hLand
    rfl
  case flags =>
    obtain ⟨-, hLand⟩ := Option.ite_none_right_eq_some.mp hLand
    obtain rfl := Option.some.inj hLand
    rfl
  all_goals cases hLand

/-- Only the first session does anything. -/
theorem one_by_one_run {rows : List (Option Auction)} {bidders : LotId → List UserId}
    {notifications : List Notifications.NewNotification} {now : Time}
    (run : Runs.Reaches Watch.step OneByOne (.start rows bidders notifications now) w) :
    ∀ sid, sid ≠ 1 → w.process.sessions sid = .idle := by
  apply run.invariant (I := fun w => ∀ sid, sid ≠ 1 → w.process.sessions sid = .idle)
  · exact fun _ _ => rfl
  intro before after e hIdle hStep hOne sid hSid
  cases e with
  | act e =>
      obtain ⟨-, hStep⟩ := Option.ite_none_right_eq_some.mp hStep
      obtain ⟨p, hProcess, rfl⟩ := Option.map_eq_some_iff.mp hStep
      have hSession : e.session = 1 := by
        cases e with
        | resume => exact hOne.1
        | raise => exact hOne.elim
        | _ => exact hOne
      exact (sessions_step hProcess (ne_of_ne_of_eq hSid hSession.symm)).trans (hIdle sid hSid)
  | call | raise | land => exact hOne.elim
  | commit task =>
      simp only [Watch.step] at hStep
      split at hStep
      next => cases hStep
      next t hTask =>
        obtain ⟨-, hStep⟩ := Option.ite_none_right_eq_some.mp hStep
        obtain ⟨middle, hLand, rfl⟩ := Option.map_eq_some_iff.mp hStep
        exact (congrFun (sessions_land hLand) sid).trans (hIdle sid hSid)
  | _ =>
      simp only [Watch.step] at hStep
      repeat' split at hStep
      all_goals simp only [Option.map_eq_some_iff, Option.some.injEq, reduceCtorEq] at hStep
      all_goals first
        | subst hStep
          exact hIdle sid hSid
        | obtain ⟨phase, -, rfl⟩ := hStep
          exact hIdle sid hSid

def extension : AuctionUpdate where
  title := none
  description := none
  categoryId := none
  startingPrice := none
  binPrice := none
  auctionType := none
  extendMinutes := some (some ⟨15, by decide⟩)
  imageUrls := none

/-- `POST /auctions` as the first session serves it. -/
def createsLot : List WatchEvent :=
  [.act (.request 1 (.createAuction 7 chair) 0), .act (.resume 1 0 true), .act (.commit 1),
    .act (.resume 1 0 true), .act (.resume 1 0 true)]

/-- `PATCH /auctions/0`, with the extension. -/
def extendsLot (t : Time) : List WatchEvent :=
  [.act (.request 1 (.updateAuction 7 0 extension) t), .act (.resume 1 t true),
    .act (.resume 1 t true), .act (.commit 1), .act (.resume 1 t true), .act (.resume 1 t true)]

/-- The warning of a lot that is extended in time is put off. -/
theorem warning_follows_deadline_chair : ∃ w : Watch,
    (w.process.lots.get 0).map (·.endTime) = some (seconds 1500) ∧ WarningFollowsDeadline w := by
  obtain ⟨w, run, hExtended⟩ := Runs.exists_reaches Watch.step
    (fun w e => OneByOne w e ∧ Unwarned w e = true) (.start [] (fun _ => []) [] 0)
    (createsLot ++ [.pass (seconds 60)] ++ extendsLot (seconds 60))
    (fun w => (w.process.lots.get 0).map (·.endTime) = some (seconds 1500)) (by decide +kernel)
  refine ⟨w, hExtended, warning_follows_deadline [] (fun _ => []) [] 0 ?_ ?_⟩
  · intro row hMem
    cases hMem
  · apply run.weaken
    intro w e ⟨hOne, hUnwarned⟩
    exact ⟨hOne.noFailure, hOne.followsDeadline hUnwarned⟩

/-- A lot that has been marked as warned of, with nobody to warn yet, is extended, and
nobody will be warned before the new deadline. -/
theorem warning_not_following : ∃ w,
    Runs.Reaches Watch.step NoFailure (.start [] (fun _ => []) [] 0) w ∧
      ¬WarningFollowsDeadline w := by
  obtain ⟨w, run, hAhead, hOne, hEnded, hFlag⟩ := Runs.exists_reaches Watch.step OneByOne
    (.start [] (fun _ => []) [] 0)
    (createsLot ++ [.pass (seconds 300), .wake 0, .answer 0 [], .answer 0 [], .answer 0 [],
      .commit 0, .finish 0] ++ extendsLot (seconds 300))
    (fun w => ((w.process.lots.get 0).any fun row =>
        row.isActive && w.now < fireAt row) = true ∧
      (w.process.sessions 1).isIdle = true ∧
      ((List.range w.endingSoon.tasks.serial).all fun task => !(w.warnings task).running) = true ∧
      ((w.process.lots.get 0).any fun row => row.endingSoonNotified) = true)
    (by decide +kernel)
  refine ⟨w, run.weaken fun _ _ h => h.noFailure, fun hFollows => ?_⟩
  obtain ⟨row, hRow, hIs⟩ := (Option.any_eq_true _ _).mp hAhead
  simp only [Bool.and_eq_true, decide_eq_true_eq] at hIs
  have hQuiet : w.Quiet 0 := by
    constructor
    · intro sid
      have hIdle : w.process.sessions sid = .idle := by
        by_cases hSid : sid = 1
        · subst hSid
          exact Phase.eq_idle hOne
        · exact one_by_one_run run sid hSid
      rw [hIdle]
      exact fun hConcerns => hConcerns
    · intro task t hTask _
      have hDone := List.all_eq_true.mp hEnded task (List.mem_range.mpr (Table.lt_serial hTask))
      simpa using hDone
  have hClear := (hFollows 0 row hRow hIs.1 hQuiet hIs.2).1
  rw [hRow, Option.any_some] at hFlag
  cases hClear.symm.trans hFlag

end OnlineAuction.Scheduler
