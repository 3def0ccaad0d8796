import OnlineAuction.Scheduler.Process

/-! What holds between the steps of a process: which copies are still good, who
holds which lock, which tick runs which task, and who looks after an active
lot while its slot is empty. -/

namespace OnlineAuction.Scheduler

/-- Once closed or gone a lot stays so, and the deadline of an active lot only
moves into the future. -/
structure Evolves (lots lots' : Table Auction) : Prop where
  serial : lots.serial ≤ lots'.serial
  active : ∀ id < lots.serial, ∀ row', lots'.get id = some row' → row'.isActive = true →
    ∃ row, lots.get id = some row ∧ row.isActive = true ∧ row.endTime ≤ row'.endTime

theorem Evolves.refl (lots : Table Auction) : Evolves lots lots :=
  ⟨le_rfl, fun _ _ row hRow hActive => ⟨row, hRow, hActive, le_rfl⟩⟩

def Closed (p : Process) (auctionId : LotId) : Prop :=
  auctionId < p.lots.serial ∧ ∀ row, p.lots.get auctionId = some row → row.isActive = false

/-- A copy of a lot, read some time ago: if the lot is active it was so then, with
a deadline that is not later than now. -/
def Stale (p : Process) (copy : Auction) : Prop :=
  copy.id < p.lots.serial ∧ ∀ row, p.lots.get copy.id = some row → row.isActive = true →
    copy.isActive = true ∧ copy.endTime ≤ row.endTime

/-- The session holds the lot, which is active and as the session has read it. -/
structure Holds (p : Process) (sid : Nat) (row : Auction) : Prop where
  lock : p.locks row.id = some sid
  stored : p.lots.get row.id = some row
  active : row.isActive = true

/-- A changed copy of a lot that is neither closed nor due earlier. -/
structure Extends (row changed : Auction) : Prop where
  id : changed.id = row.id
  active : changed.isActive = row.isActive
  endTime : row.endTime ≤ changed.endTime

theorem Closed.evolves {p p' : Process} {auctionId : LotId} (h : Closed p auctionId)
    (hLots : Evolves p.lots p'.lots) : Closed p' auctionId := by
  refine ⟨h.1.trans_le hLots.serial, fun row' hRow' => ?_⟩
  by_contra hActive
  obtain ⟨row, hRow, hWas, _⟩ := hLots.active auctionId h.1 row' hRow' (by simpa using hActive)
  simp [h.2 row hRow] at hWas

theorem Stale.evolves {p p' : Process} {copy : Auction} (h : Stale p copy)
    (hLots : Evolves p.lots p'.lots) : Stale p' copy := by
  refine ⟨h.1.trans_le hLots.serial, fun row' hRow' hActive => ?_⟩
  obtain ⟨row, hRow, hWas, hEnd⟩ := hLots.active copy.id h.1 row' hRow' hActive
  obtain ⟨hCopy, hLe⟩ := h.2 row hRow hWas
  exact ⟨hCopy, hLe.trans hEnd⟩

/-- A row just read. -/
theorem Stale.of_stored {p : Process} {row : Auction} (hRow : p.lots.get row.id = some row) :
    Stale p row := by
  refine ⟨Table.lt_serial hRow, fun found hFound hActive => ?_⟩
  rw [hRow, Option.some.injEq] at hFound
  subst hFound
  exact ⟨hActive, le_rfl⟩

/-- A copy that was inactive is a copy of a lot that is closed. -/
theorem Stale.closed {p : Process} {copy : Auction} (h : Stale p copy)
    (hInactive : ¬copy.isActive = true) : Closed p copy.id := by
  refine ⟨h.1, fun row hRow => ?_⟩
  by_contra hActive
  exact hInactive (h.2 row hRow (by simpa using hActive)).1

def Phase.tick : Phase → Option (Nat × LotId)
  | .tickLoads task auctionId => some (task, auctionId)
  | .tickDecides task auctionId _ => some (task, auctionId)
  | .tickWaits task auction => some (task, auction.id)
  | .tickLocked task auction => some (task, auction.id)
  | .tickCommits task auction => some (task, auction.id)
  | .tickCloses task auctionId => some (task, auctionId)
  | _ => none

/-- The session has yet to arm the lot, or is about to close it. -/
def Phase.owes (auctionId : LotId) : Phase → Prop
  | .createRefreshes id => id = auctionId
  | .schedules auction => auction.id = auctionId
  | .buyCommits row _ => row.id = auctionId
  | _ => False

def Phase.Ok (p : Process) (sid : Nat) : Phase → Prop
  | .createCommits row => ∀ id, (row id).id = id
  | .createRefreshes auctionId => auctionId < p.lots.serial
  | .bidChecks _ row _ => Holds p sid row
  | .bidCommits _ row changed _ => Holds p sid row ∧ Extends row changed
  | .bidRefreshes auction => Stale p auction
  | .updateChecks row _ => Holds p sid row
  | .updateCommits row changed _ => Holds p sid row ∧ Extends row changed
  | .schedules auction => Stale p auction
  | .buyChecks _ row _ => Holds p sid row
  | .buyCommits row changed =>
      Holds p sid row ∧ changed.id = row.id ∧ changed.isActive = false
  | .deleteCommits auctionId => p.locks auctionId = some sid ∧ auctionId < p.lots.serial
  | .deleteReturns auctionId => Closed p auctionId
  | .tickLoads _ auctionId => auctionId < p.lots.serial
  | .tickDecides _ auctionId none => Closed p auctionId
  | .tickDecides _ auctionId (some auction) => auction.id = auctionId ∧ Stale p auction
  | .tickWaits _ auction => Stale p auction ∧ auction.isActive = true
  | .tickLocked _ auction =>
      p.locks auction.id = some sid ∧ Stale p auction ∧ auction.isActive = true
  | .tickCommits _ auction =>
      p.locks auction.id = some sid ∧ Stale p auction ∧ auction.isActive = true
  | .tickCloses task auctionId =>
      p.registry.completionTasks auctionId = some task → Closed p auctionId
  | _ => True

/-- What a step of session `sid` leaves alone. -/
structure Frame (sid : Nat) (p p' : Process) : Prop where
  sessions : ∀ other, other ≠ sid → p'.sessions other = p.sessions other
  lots : Evolves p.lots p'.lots
  locks : ∀ other, other ≠ sid → ∀ id, p.locks id = some other → p'.locks id = some other
  rows : ∀ other, other ≠ sid → ∀ id < p.lots.serial, p.locks id = some other →
    p'.lots.get id = p.lots.get id
  slots : ∀ id task, p'.registry.completionTasks id = some task →
    p.registry.completionTasks id = some task ∨ p.registry.tasks.serial ≤ task
  serial : p.registry.tasks.serial ≤ p'.registry.tasks.serial

structure Spares (sid : Nat) (p p' : Process) : Prop where
  lots : Evolves p.lots p'.lots
  locks : ∀ id, p.locks id = some sid → p'.locks id = some sid
  rows : ∀ id < p.lots.serial, p.locks id = some sid → p'.lots.get id = p.lots.get id
  slots : ∀ id task, p'.registry.completionTasks id = some task →
    p.registry.completionTasks id = some task ∨ p.registry.tasks.serial ≤ task

theorem Frame.spares {sid other : Nat} {p p' : Process} (h : Frame sid p p') (hOther : other ≠ sid) :
    Spares other p p' :=
  ⟨h.lots, h.locks other hOther, h.rows other hOther, h.slots⟩

namespace Spares

variable {sid : Nat} {p p' : Process}

theorem holds (h : Spares sid p p') {row : Auction} (hHolds : Holds p sid row) :
    Holds p' sid row where
  lock := h.locks _ hHolds.lock
  stored := by
    rw [h.rows _ (Table.lt_serial hHolds.stored) hHolds.lock]
    exact hHolds.stored
  active := hHolds.active

/-- The session knows what it knew. A task that it runs is not put into a slot
anew. -/
theorem ok (h : Spares sid p p') {phase : Phase} (hOk : phase.Ok p sid)
    (hTask : ∀ task auctionId, phase.tick = some (task, auctionId) →
      task < p.registry.tasks.serial) : phase.Ok p' sid := by
  cases phase with
  | createRefreshes => exact lt_of_lt_of_le hOk h.lots.serial
  | bidChecks => exact h.holds hOk
  | bidCommits => exact ⟨h.holds hOk.1, hOk.2⟩
  | bidRefreshes => exact Stale.evolves hOk h.lots
  | updateChecks => exact h.holds hOk
  | updateCommits => exact ⟨h.holds hOk.1, hOk.2⟩
  | schedules => exact Stale.evolves hOk h.lots
  | buyChecks => exact h.holds hOk
  | buyCommits => exact ⟨h.holds hOk.1, hOk.2⟩
  | deleteCommits => exact ⟨h.locks _ hOk.1, hOk.2.trans_le h.lots.serial⟩
  | deleteReturns => exact Closed.evolves hOk h.lots
  | tickLoads => exact lt_of_lt_of_le hOk h.lots.serial
  | tickDecides task auctionId answer =>
      cases answer with
      | none => exact Closed.evolves hOk h.lots
      | some auction => exact ⟨hOk.1, hOk.2.evolves h.lots⟩
  | tickWaits => exact ⟨hOk.1.evolves h.lots, hOk.2⟩
  | tickLocked => exact ⟨h.locks _ hOk.1, hOk.2.1.evolves h.lots, hOk.2.2⟩
  | tickCommits => exact ⟨h.locks _ hOk.1, hOk.2.1.evolves h.lots, hOk.2.2⟩
  | tickCloses task auctionId =>
      intro hSlot
      rcases h.slots auctionId task hSlot with hWas | hFresh
      · exact (hOk hWas).evolves h.lots
      · exact absurd (hTask task auctionId rfl) (not_lt.mpr hFresh)
  | _ => exact hOk

end Spares

end OnlineAuction.Scheduler
