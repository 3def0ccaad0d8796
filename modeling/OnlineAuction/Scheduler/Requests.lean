import OnlineAuction.Market.WellFormed
import OnlineAuction.Scheduler.Steps

/-! The invariant across the steps of a request up to its commit, and after it. -/

namespace OnlineAuction.Scheduler

variable {sid : Nat} {p p' : Process} {was phase : Phase}

@[simp] theorem Process.sessions_enter (p : Process) (sid : Nat) (phase : Phase) :
    (p.enter sid phase).sessions sid = phase := by
  unfold Process.enter
  exact Function.update_self ..

@[simp] theorem Process.sessions_leave (p : Process) (sid : Nat) :
    (p.leave sid).sessions sid = .idle := (p.release sid).sessions_enter sid .idle

theorem Holds.enter {other : Nat} {entered : Phase} {row : Auction} (h : Holds p sid row) :
    Holds (p.enter other entered) sid row :=
  ⟨h.lock, h.stored, h.active⟩

/-- What a session knows does not depend on where the sessions are. -/
theorem Phase.Ok.enter {other : Nat} {entered : Phase} (hOk : phase.Ok p sid) :
    phase.Ok (p.enter other entered) sid := by
  cases phase with
  | tickDecides task auctionId answer =>
      cases answer with
      | none => exact hOk
      | some auction => exact hOk
  | bidChecks => exact Holds.enter hOk
  | updateChecks => exact Holds.enter hOk
  | buyChecks => exact Holds.enter hOk
  | bidCommits => exact hOk.imp_left Holds.enter
  | updateCommits => exact hOk.imp_left Holds.enter
  | buyCommits => exact hOk.imp_left Holds.enter
  | _ => exact hOk

/-- The session goes on, and the lot it owed a timer to, if any, is still owed
one or closed. -/
theorem Standing.enter (h : Standing p) (hWas : p.sessions sid = was) (hTick : phase.tick = was.tick)
    (hOk : phase.Ok p sid) (hOwes : ∀ id, was.owes id → phase.owes id ∨ Closed p id) :
    Advances sid p (p.enter sid phase) := by
  refine h.keep (.enter p phase) rfl h.rowIds ?_ ?_ (fun id row hNew hRow => ?_) ?_
  · rw [Process.sessions_enter, hWas, hTick]
  · rw [Process.sessions_enter]
    exact hOk.enter
  · exact absurd (Table.lt_serial hRow) (not_lt.mpr hNew)
  · rw [Process.sessions_enter, hWas]
    exact hOwes

/-- The same, at the end of a transaction. -/
theorem Standing.release (h : Standing p) (hWas : p.sessions sid = was) (hTick : phase.tick = was.tick)
    (hOk : phase.Ok (p.release sid) sid) (hOwes : ∀ id, was.owes id → Closed p id) :
    Advances sid p ((p.release sid).enter sid phase) := by
  refine h.keep ((Frame.release p).trans (.enter _ phase)) rfl h.rowIds ?_ ?_
    (fun id row hNew hRow => ?_) fun id hOwed => .inr (hOwes id (hWas ▸ hOwed))
  · rw [Process.sessions_enter, hWas, hTick]
  · rw [Process.sessions_enter]
    exact hOk.enter
  · exact absurd (Table.lt_serial hRow) (not_lt.mpr hNew)

/-- A request that leaves owes nothing more. -/
theorem Standing.leave (h : Standing p) (hWas : p.sessions sid = was) (hTick : was.tick = none)
    (hOwes : ∀ id, was.owes id → Closed p id) : Advances sid p (p.leave sid) :=
  h.release hWas hTick.symm trivial hOwes

/-- The answer to `SELECT … FOR UPDATE`. -/
theorem Standing.lockLot (h : Standing p) (givesUp : Phase) (hWas : p.sessions sid = was) {auctionId : LotId}
    {checks : Auction → Option Phase} (hOwes : ∀ id, ¬was.owes id)
    (hGivesUp : (p.lots.get auctionId).bind checks = none →
      givesUp.tick = was.tick ∧ givesUp.Ok (p.release sid) sid)
    (hChecks : ∀ row goesOn, p.lots.get auctionId = some row → row.id = auctionId →
      checks row = some goesOn → goesOn.tick = was.tick ∧
        goesOn.Ok { p with locks := Function.update p.locks auctionId (some sid) } sid)
    (hStep : p.lockLot sid auctionId givesUp checks = some p') : Advances sid p p' := by
  unfold Process.lockLot at hStep
  split_ifs at hStep with hLock
  obtain rfl := Option.some.inj hStep
  cases hAnswer : (p.lots.get auctionId).bind checks with
  | none =>
      obtain ⟨hTick, hOk⟩ := hGivesUp hAnswer
      exact h.release hWas hTick hOk fun id hOwed => absurd hOwed (hOwes id)
  | some goesOn =>
      obtain ⟨row, hRow, hCheck⟩ := Option.bind_eq_some_iff.mp hAnswer
      obtain ⟨hTick, hOk⟩ := hChecks row goesOn hRow (h.rowIds _ _ hRow) hCheck
      refine h.keep ((Frame.lock hLock).trans (.enter _ goesOn)) rfl h.rowIds ?_ ?_
        (fun id row hNew hRow => ?_) fun id hOwed => absurd (hWas ▸ hOwed) (hOwes id)
      · rw [Process.sessions_enter, hWas, hTick]
      · rw [Process.sessions_enter]
        exact hOk.enter
      · exact absurd (Table.lt_serial hRow) (not_lt.mpr hNew)

/-- The lot just locked. -/
theorem Holds.of_locked {auctionId : LotId} {row : Auction} (hRow : p.lots.get auctionId = some row)
    (hId : row.id = auctionId) (hActive : row.isActive = true) :
    Holds { p with locks := Function.update p.locks auctionId (some sid) } sid row := by
  subst hId
  exact ⟨Function.update_self _ _ _, hRow, hActive⟩

theorem Extends.refl (row : Auction) : Extends row row := ⟨rfl, rfl, le_rfl⟩

theorem Extends.trans {row changed final : Auction} (h : Extends row changed)
    (h' : Extends changed final) : Extends row final :=
  ⟨h'.id.trans h.id, h'.active.trans h.active, h.endTime.trans h'.endTime⟩

/-- A late bid moves the deadline to a later time, any other leaves it. -/
theorem extends_acceptBid (row : Auction) (amount : Money) (now : Time) :
    Extends row (acceptBid row amount now).1 := by
  obtain ⟨hId, _, _, _, hActive, _⟩ := acceptBid_fields row amount now
  refine ⟨hId, hActive, ?_⟩
  unfold acceptBid
  dsimp only
  split_ifs with hLate
  · have hWindow : row.endTime - now < antisnipingExtend := hLate.1.2
    show row.endTime ≤ now + antisnipingExtend
    linarith
  · exact le_rfl

theorem minutes_nonneg (n : Nat) : 0 ≤ minutes n := by
  unfold minutes seconds
  positivity

/-- An edit never brings a deadline forward. -/
theorem extends_edit (data : AuctionUpdate) (row : Auction) : Extends row (data.edit row) := by
  apply AuctionUpdate.edit_keeps (P := Extends row) (.refl row)
  case extendMinutes =>
    intro given _ a h
    exact h.trans ⟨rfl, rfl, le_add_of_nonneg_right (minutes_nonneg given.val)⟩
  all_goals exact fun _ _ _ h => h.trans ⟨rfl, rfl, le_rfl⟩

theorem extends_dragAlong (data : AuctionUpdate) (row : Auction) :
    Extends row (data.dragAlong row) := by
  unfold AuctionUpdate.dragAlong
  split
  · split_ifs
    · exact ⟨rfl, rfl, le_rfl⟩
    · exact .refl row
  · exact .refl row

section

variable {t : Time} {passes : Bool}

/-- A creation goes on from its checks to its commit. -/
theorem resume_createChecks (h : Standing p) {userId : UserId} {data : AuctionCreate} {startTime : Time}
    (hWas : p.sessions sid = .createChecks userId data startTime)
    (hStep : resume p sid t passes (.createChecks userId data startTime) = some p') : Advances sid p p' := by
  rw [resume] at hStep
  split_ifs at hStep <;> obtain rfl := Option.some.inj hStep
  · exact h.enter hWas rfl (fun _ => rfl) fun _ hOwed => hOwed.elim
  · exact h.leave hWas rfl fun _ hOwed => hOwed.elim

/-- The refresh of a lot that is gone raises. -/
theorem resume_createRefreshes (h : Standing p) {auctionId : LotId}
    (hWas : p.sessions sid = .createRefreshes auctionId)
    (hStep : resume p sid t passes (.createRefreshes auctionId) = some p') : Advances sid p p' := by
  have hLot : auctionId < p.lots.serial := by simpa [hWas, Phase.Ok] using h.phases sid
  rw [resume] at hStep
  cases hRow : p.lots.get auctionId with
  | none =>
      simp only [hRow] at hStep
      obtain rfl := Option.some.inj hStep
      apply h.leave hWas rfl
      intro id hOwed
      obtain rfl : auctionId = id := hOwed
      exact ⟨hLot, fun row hFound => by simp [hRow] at hFound⟩
  | some auction =>
      simp only [hRow] at hStep
      obtain rfl := Option.some.inj hStep
      obtain rfl := h.rowIds auctionId auction hRow
      exact h.enter hWas rfl (Stale.of_stored hRow) fun _ hOwed => .inl hOwed

/-- A bid takes the lock of its lot, or gives up. -/
theorem resume_bidWaits (h : Standing p) {userId : UserId} {bid : BidCreate}
    (hWas : p.sessions sid = .bidWaits userId bid)
    (hStep : resume p sid t passes (.bidWaits userId bid) = some p') : Advances sid p p' := by
  refine h.lockLot .idle hWas (fun _ hOwed => hOwed) (fun _ => ⟨rfl, trivial⟩) ?_ hStep
  intro row goesOn hRow hId hCheck
  unfold bidPhase at hCheck
  split_ifs at hCheck with hPassed
  obtain rfl := Option.some.inj hCheck
  exact ⟨rfl, Holds.of_locked hRow hId hPassed.1⟩

/-- A bid that passes its checks extends the lot that it holds. -/
theorem resume_bidChecks (h : Standing p) {userId : UserId} {row : Auction} {amount : Money}
    (hWas : p.sessions sid = .bidChecks userId row amount)
    (hStep : resume p sid t passes (.bidChecks userId row amount) = some p') : Advances sid p p' := by
  have hHolds : Holds p sid row := by simpa [hWas, Phase.Ok] using h.phases sid
  rw [resume] at hStep
  split_ifs at hStep <;> obtain rfl := Option.some.inj hStep
  · exact h.enter hWas rfl ⟨hHolds, extends_acceptBid row amount t⟩ fun _ hOwed => hOwed.elim
  · exact h.leave hWas rfl fun _ hOwed => hOwed.elim

/-- A bid that has committed arms the lot anew. -/
theorem resume_bidRefreshes (h : Standing p) {auction : Auction}
    (hWas : p.sessions sid = .bidRefreshes auction)
    (hStep : resume p sid t passes (.bidRefreshes auction) = some p') : Advances sid p p' := by
  have hStale : Stale p auction := by simpa [hWas, Phase.Ok] using h.phases sid
  obtain rfl := Option.some.inj hStep
  exact h.enter hWas rfl hStale fun _ hOwed => hOwed.elim

theorem resume_updateWaits (h : Standing p) {userId : UserId} {auctionId : LotId} {data : AuctionUpdate}
    (hWas : p.sessions sid = .updateWaits userId auctionId data)
    (hStep : resume p sid t passes (.updateWaits userId auctionId data) = some p') : Advances sid p p' := by
  refine h.lockLot .idle hWas (fun _ hOwed => hOwed) (fun _ => ⟨rfl, trivial⟩) ?_ hStep
  intro row goesOn hRow hId hCheck
  unfold updatePhase at hCheck
  split_ifs at hCheck with hPassed
  obtain rfl := Option.some.inj hCheck
  exact ⟨rfl, Holds.of_locked hRow hId hPassed.2.1⟩

/-- An edit that passes its checks extends the lot that it holds. -/
theorem resume_updateChecks (h : Standing p) {row : Auction} {data : AuctionUpdate}
    (hWas : p.sessions sid = .updateChecks row data)
    (hStep : resume p sid t passes (.updateChecks row data) = some p') : Advances sid p p' := by
  have hHolds : Holds p sid row := by simpa [hWas, Phase.Ok] using h.phases sid
  rw [resume, updateCommitPhase] at hStep
  split_ifs at hStep <;> obtain rfl := Option.some.inj hStep
  · exact h.leave hWas rfl fun _ hOwed => hOwed.elim
  · refine h.enter hWas rfl ⟨hHolds, ?_⟩ fun _ hOwed => hOwed.elim
    exact (extends_edit data row).trans (extends_dragAlong data _)
  · exact h.leave hWas rfl fun _ hOwed => hOwed.elim

/-- An edit that has committed arms the lot anew. -/
theorem resume_updateRefreshes (h : Standing p) {auctionId : LotId} {extended : Bool}
    (hWas : p.sessions sid = .updateRefreshes auctionId extended)
    (hStep : resume p sid t passes (.updateRefreshes auctionId extended) = some p') : Advances sid p p' := by
  rw [resume] at hStep
  cases hRow : p.lots.get auctionId with
  | none =>
      simp only [hRow] at hStep
      obtain rfl := Option.some.inj hStep
      exact h.leave hWas rfl fun _ hOwed => hOwed.elim
  | some auction =>
      simp only [hRow] at hStep
      obtain rfl := h.rowIds auctionId auction hRow
      split_ifs at hStep <;> obtain rfl := Option.some.inj hStep
      · exact h.enter hWas rfl (Stale.of_stored hRow) fun _ hOwed => hOwed.elim
      · exact h.leave hWas rfl fun _ hOwed => hOwed.elim

/-- The timer is set by a copy that may be out of date, but never too late. -/
theorem resume_schedules (h : Standing p) {auction : Auction}
    (hWas : p.sessions sid = .schedules auction)
    (hStep : resume p sid t passes (.schedules auction) = some p') : Advances sid p p' := by
  have hStale : Stale p auction := by simpa [hWas, Phase.Ok] using h.phases sid
  obtain rfl := Option.some.inj hStep
  have hReworks := Registry.scheduleAuction_reworks h.sound none auction
  apply h.rework ((Frame.reworks hReworks).trans (.leave _)) rfl hReworks hStale.1
  · rw [hWas, Process.sessions_leave]
    rfl
  · rw [Process.sessions_leave]
    trivial
  · rw [hWas]
    exact fun _ hOwed => Eq.symm hOwed
  · intro row hRow hActive
    obtain ⟨hCopy, hEnd⟩ := hStale.2 row hRow hActive
    exact .inl ((Registry.armed_scheduleAuction _ none hCopy).mono hEnd)

/-- A purchase takes the lock of its lot, or gives up. -/
theorem resume_buyWaits (h : Standing p) {userId : UserId} {auctionId : LotId}
    (hWas : p.sessions sid = .buyWaits userId auctionId)
    (hStep : resume p sid t passes (.buyWaits userId auctionId) = some p') : Advances sid p p' := by
  refine h.lockLot .idle hWas (fun _ hOwed => hOwed) (fun _ => ⟨rfl, trivial⟩) ?_ hStep
  intro row goesOn hRow hId hCheck
  unfold buyPhase at hCheck
  split_ifs at hCheck with hPassed
  obtain ⟨price, _, rfl⟩ := Option.map_eq_some_iff.mp hCheck
  exact ⟨rfl, Holds.of_locked hRow hId hPassed.1⟩

/-- From here to the answer of its commit the session alone sees to the lot. -/
theorem resume_buyChecks (h : Standing p) {userId : UserId} {row : Auction} {price : Money}
    (hWas : p.sessions sid = .buyChecks userId row price)
    (hStep : resume p sid t passes (.buyChecks userId row price) = some p') : Advances sid p p' := by
  have hHolds : Holds p sid row := by simpa [hWas, Phase.Ok] using h.phases sid
  rw [resume] at hStep
  split_ifs at hStep <;> obtain rfl := Option.some.inj hStep
  · have hReworks := Registry.cancelAuction_reworks h.sound row.id
    refine h.rework ((Frame.reworks hReworks).trans (.enter _ _)) rfl hReworks
      (Table.lt_serial hHolds.stored) ?_ ?_ ?_ fun _ _ _ => .inr ⟨sid, ?_⟩
    · rw [hWas, Process.sessions_enter]
      rfl
    · rw [Process.sessions_enter]
      exact ⟨⟨hHolds.lock, hHolds.stored, hHolds.active⟩, rfl, rfl⟩
    · rw [hWas]
      exact fun _ hOwed => hOwed.elim
    · rw [Process.sessions_enter]
      exact Eq.refl row.id
  · exact h.leave hWas rfl fun _ hOwed => hOwed.elim

theorem resume_deleteWaits (h : Standing p) {userId : UserId} {auctionId : LotId}
    (hWas : p.sessions sid = .deleteWaits userId auctionId)
    (hStep : resume p sid t passes (.deleteWaits userId auctionId) = some p') : Advances sid p p' := by
  refine h.lockLot .idle hWas (fun _ hOwed => hOwed) (fun _ => ⟨rfl, trivial⟩) ?_ hStep
  intro row goesOn hRow hId hCheck
  subst hId
  unfold deletePhase at hCheck
  split_ifs at hCheck
  obtain rfl := Option.some.inj hCheck
  exact ⟨rfl, Function.update_self _ _ _, Table.lt_serial hRow⟩

/-- A deletion that has committed cancels the tasks of the lot. -/
theorem resume_deleteReturns (h : Standing p) {auctionId : LotId}
    (hWas : p.sessions sid = .deleteReturns auctionId)
    (hStep : resume p sid t passes (.deleteReturns auctionId) = some p') : Advances sid p p' := by
  have hClosed : Closed p auctionId := by simpa [hWas, Phase.Ok] using h.phases sid
  obtain rfl := Option.some.inj hStep
  have hReworks := Registry.cancelAuction_reworks h.sound auctionId
  apply h.rework ((Frame.reworks hReworks).trans (.leave _)) rfl hReworks hClosed.1
  · rw [hWas, Process.sessions_leave]
    rfl
  · rw [Process.sessions_leave]
    trivial
  · rw [hWas]
    exact fun _ hOwed => hOwed.elim
  · intro row hRow hActive
    simp [hClosed.2 row hRow] at hActive

end

end OnlineAuction.Scheduler
