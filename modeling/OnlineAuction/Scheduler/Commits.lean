import OnlineAuction.Scheduler.Completion

/-! The invariant across the commits of the sessions. -/

namespace OnlineAuction.Scheduler

variable {sid : Nat} {p p' : Process}

/-- A rewrite that reopens nothing and brings no deadline forward is an
evolution. -/
theorem Evolves.of_modify {lots : Table Auction} {auctionId : LotId} {f : Auction → Auction}
    (h : ∀ row, lots.get auctionId = some row → (f row).isActive = true →
      row.isActive = true ∧ row.endTime ≤ (f row).endTime) :
    Evolves lots (lots.modify auctionId f) := by
  refine ⟨le_rfl, fun id _ row' hRow' hActive => ?_⟩
  by_cases hId : id = auctionId
  · subst hId
    rw [Table.get_modify_self] at hRow'
    obtain ⟨row, hRow, rfl⟩ := Option.map_eq_some_iff.mp hRow'
    obtain ⟨hWas, hEnd⟩ := h row hRow hActive
    exact ⟨row, hRow, hWas, hEnd⟩
  · rw [Table.get_modify_other _ _ hId] at hRow'
    exact ⟨row', hRow', hActive, le_rfl⟩

/-- So is a new lot. -/
theorem Evolves.of_add (lots : Table Auction) (row : LotId → Auction) :
    Evolves lots (lots.add row) := by
  refine ⟨Nat.le_succ _, fun id hId row' hRow' hActive => ⟨row', ?_, hActive, le_rfl⟩⟩
  rwa [Table.get_add, if_neg hId.ne] at hRow'

/-- And a deletion. -/
theorem Evolves.of_erase (lots : Table Auction) (auctionId : LotId) :
    Evolves lots (lots.erase auctionId) := by
  refine ⟨le_rfl, fun id _ row' hRow' hActive => ⟨row', ?_, hActive, le_rfl⟩⟩
  rw [Table.get_erase, Option.ite_none_left_eq_some] at hRow'
  exact hRow'.2

/-- Extending a held row is an evolution. -/
theorem Extends.evolves {row changed : Auction} (h : Extends row changed)
    (hHolds : Holds p sid row) : Evolves p.lots (p.write row changed).lots := by
  refine .of_modify fun found hFound hActive => ?_
  rw [hHolds.stored, Option.some.injEq] at hFound
  subst hFound
  rw [Auction.flush_loaded row changed h.id]
  exact ⟨hHolds.active, h.endTime⟩

/-- A flush that clears `is_active` leaves a lot that is closed. -/
theorem closed_of_write {row changed : Auction} (hLot : row.id < p.lots.serial)
    (hInactive : ∀ found, p.lots.get row.id = some found →
      (Auction.flush row changed found).isActive = false) :
    Evolves p.lots (p.write row changed).lots ∧ Closed (p.write row changed) row.id := by
  refine ⟨.of_modify fun found hFound hActive => ?_, hLot, fun row' hRow' => ?_⟩
  · simp [hInactive found hFound] at hActive
  · obtain ⟨found, hFound, rfl⟩ := Option.map_eq_some_iff.mp
      ((Table.get_modify_self p.lots row.id _).symm.trans hRow')
    exact hInactive found hFound

theorem Standing.rowIds_write (h : Standing p) (row changed : Auction) :
    ∀ id found, (p.write row changed).lots.get id = some found → found.id = id := by
  intro id found hFound
  by_cases hId : id = row.id
  · subst hId
    rw [Process.write, Table.get_modify_self] at hFound
    obtain ⟨old, hOld, rfl⟩ := Option.map_eq_some_iff.mp hFound
    exact h.rowIds row.id old hOld
  · rw [Process.write, Table.get_modify_other _ _ hId] at hFound
    exact h.rowIds id found hFound

/-- A commit has taken effect, and its transaction is over. -/
theorem Standing.landed (h : Standing p) {was next : Phase} (hWas : p.sessions sid = was)
    (frame : Frame sid p p') (hRegistry : p'.registry = p.registry)
    (hIds : ∀ id row, p'.lots.get id = some row → row.id = id) (hTick : next.tick = was.tick)
    (hOk : next.Ok (p'.release sid) sid)
    (hNew : ∀ id row, p.lots.serial ≤ id → p'.lots.get id = some row → next.owes id)
    (hOwes : ∀ id, was.owes id → next.owes id ∨ Closed p' id) :
    Advances sid p ((p'.release sid).enter sid next) := by
  refine h.keep ((frame.trans (.release _)).trans (.enter _ next)) hRegistry hIds ?_ ?_
    (fun id row hFresh hRow => ?_) fun id hOwed => ?_
  · rw [Process.sessions_enter, hWas, hTick]
  · rw [Process.sessions_enter]
    exact hOk.enter
  · rw [Process.sessions_enter]
    exact hNew id row hFresh hRow
  · rw [Process.sessions_enter]
    exact hOwes id (hWas ▸ hOwed)

/-- Writing over a lot whose lock the session holds. -/
theorem Frame.write {row changed : Auction} (hLock : p.locks row.id = some sid)
    (hEvolves : Evolves p.lots (p.write row changed).lots) (bidders : LotId → List UserId) :
    Frame sid p { p.write row changed with bidders := bidders } := by
  refine .commit rfl rfl rfl hEvolves fun id _ hNot => ?_
  exact Table.get_modify_other _ _ fun hId => hNot (hId ▸ hLock)

/-- A creation whose commit has landed owes the new lot its tasks. -/
theorem Standing.landed_create (h : Standing p) {row : LotId → Auction}
    (hWas : p.sessions sid = .createCommits row) :
    Advances sid p ((Process.release { p with lots := p.lots.add row } sid).enter sid
      (.createRefreshes p.lots.serial)) := by
  have hRow : ∀ id, (row id).id = id := by simpa [hWas, Phase.Ok] using h.phases sid
  refine h.landed hWas ?_ rfl (fun id found hFound => ?_) rfl (Nat.lt_succ_self _)
    (fun id found hFresh hFound => ?_) fun _ hOwed => hOwed.elim
  · refine .commit rfl rfl rfl (.of_add p.lots row) fun id hId _ => ?_
    exact if_neg hId.ne
  · rw [Table.get_add] at hFound
    split_ifs at hFound
    · exact Option.some.inj hFound ▸ hRow id
    · exact h.rowIds id found hFound
  · have hLt : id < p.lots.serial + 1 := Table.lt_serial hFound
    exact le_antisymm hFresh (Nat.lt_succ_iff.mp hLt)

/-- The commit of a bid or of an edit. -/
theorem Standing.landed_extends (h : Standing p) {was next : Phase} (hWas : p.sessions sid = was)
    {row changed : Auction} (hHolds : Holds p sid row) (hExtends : Extends row changed)
    (bidders : LotId → List UserId) (hTick : next.tick = was.tick)
    (hOk : Stale (p.write row changed) changed →
      next.Ok (Process.release { p.write row changed with bidders := bidders } sid) sid)
    (hOwes : ∀ id, ¬was.owes id) :
    Advances sid p ((Process.release { p.write row changed with bidders := bidders } sid).enter sid next) := by
  have hEvolves := hExtends.evolves hHolds
  refine h.landed hWas (.write hHolds.lock hEvolves bidders) rfl (h.rowIds_write row changed) hTick
    (hOk (.of_stored ?_)) (fun id found hFresh hFound => ?_) fun id hOwed => absurd hOwed (hOwes id)
  · rw [hExtends.id, Process.write, Table.get_modify_self, hHolds.stored, Option.map_some,
      Auction.flush_loaded row changed hExtends.id]
  · exact absurd (Table.lt_serial hFound) (not_lt.mpr hFresh)

/-- The commit that closes a lot. -/
theorem Standing.landed_closing (h : Standing p) {was next : Phase} (hWas : p.sessions sid = was)
    {row changed : Auction} (hLock : p.locks row.id = some sid) (hLot : row.id < p.lots.serial)
    (hInactive : ∀ found, p.lots.get row.id = some found →
      (Auction.flush row changed found).isActive = false)
    (hTick : next.tick = was.tick)
    (hOk : Closed (p.write row changed) row.id → next.Ok ((p.write row changed).release sid) sid)
    (hOwes : ∀ id, was.owes id → id = row.id) :
    Advances sid p (((p.write row changed).release sid).enter sid next) := by
  obtain ⟨hEvolves, hClosed⟩ := closed_of_write hLot hInactive
  refine h.landed hWas (.write hLock hEvolves p.bidders) rfl (h.rowIds_write row changed) hTick
    (hOk hClosed) (fun id found hFresh hFound => ?_) fun id hOwed => .inr (hOwes id hOwed ▸ hClosed)
  exact absurd (Table.lt_serial hFound) (not_lt.mpr hFresh)

/-- A deletion whose commit has landed leaves a lot that is closed. -/
theorem Standing.landed_delete (h : Standing p) {auctionId : LotId} {next : Phase}
    (hWas : p.sessions sid = .deleteCommits auctionId) (hTick : next.tick = none)
    (hOk : ∀ p' : Process, Closed p' auctionId → next.Ok (p'.release sid) sid) :
    Advances sid p ((Process.release { p with lots := p.lots.erase auctionId } sid).enter sid next) := by
  obtain ⟨hLock, hLot⟩ : p.locks auctionId = some sid ∧ auctionId < p.lots.serial := by
    simpa [hWas, Phase.Ok] using h.phases sid
  refine h.landed hWas ?_ rfl (fun id row hRow => ?_) hTick (hOk _ ⟨hLot, fun row hRow => ?_⟩)
    (fun id row hFresh hRow => ?_) fun _ hOwed => hOwed.elim
  · refine .commit rfl rfl rfl (.of_erase p.lots auctionId) fun id _ hNot => ?_
    exact if_neg fun hId : id = auctionId => hNot (hId ▸ hLock)
  · rw [Table.get_erase, Option.ite_none_left_eq_some] at hRow
    exact h.rowIds id row hRow.2
  · simp at hRow
  · exact absurd (Table.lt_serial hRow) (not_lt.mpr hFresh)

end OnlineAuction.Scheduler
