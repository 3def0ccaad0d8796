import OnlineAuction.Library.Contracts
import OnlineAuction.Outbox.Worker

/-! What one step of a worker does to the outbox, and what the lock of a row
protects while the other workers step. -/

namespace OnlineAuction.Outbox

open RowLocks

/-- When a claim is granted, the row it finds pending has not been rescheduled
since the tick selected it. -/
def NotRescheduled : Guard outbox := fun d _ e =>
  match e with
  | .tryLock id (some candidate) true => ∀ row ∈ d.rows.get id, row.status = .pending →
      row.nextAttemptAt = candidate.nextAttemptAt
  | _ => True

instance (d : State) (held : Held outbox) (e : Event outbox) :
    Decidable (NotRescheduled d held e) := by
  unfold NotRescheduled
  split <;> infer_instance

def State.setRow (d : State) (new : EmailOutbox) : State :=
  { d with rows := d.rows.modify new.id fun _ => new }

/-- A row as `_process_one` leaves it: sent, dead-lettered, or retried after the
backoff of one more failure. -/
inductive Processed (old new : EmailOutbox) : Prop where
  | sent (hStatus : new.status = .sent) (hAttempts : new.attempts = old.attempts)
  | failed (hStatus : new.status = .failed) (hAttempts : new.attempts = old.attempts + 1)
  | retried (hStatus : new.status = .pending) (hAttempts : new.attempts = old.attempts + 1)
      (hBackoff : old.nextAttemptAt + backoffForAttempt new.attempts ≤ new.nextAttemptAt)

/-- One step of a worker that holds the locks `held`. -/
inductive Commit (held : Held outbox) (d : State) : State → Prop where
  | observe (t : Time) (hLater : d.now ≤ t) : Commit held d { d with now := t }
  | enqueue (row : Nat → EmailOutbox) (hId : (row d.rows.serial).id = d.rows.serial) :
      Commit held d (d.add row)
  | start (attempt : Attempt) (hDue : attempt.nextAttemptAt ≤ attempt.start) :
      Commit held d (d.recordAttempt attempt)
  | process (old new : EmailOutbox) (hHeld : held old.id = true)
      (hRow : d.rows.get old.id = some old) (hId : new.id = old.id)
      (hPending : old.status = .pending) (hDue : old.nextAttemptAt ≤ d.now)
      (hProcessed : Processed old new) : Commit held d (d.setRow new)

def WellFormed (d : State) : Prop := ∀ id row, d.rows.get id = some row → row.id = id

theorem State.due_of_candidate {d : State} {now : Time} {row : EmailOutbox}
    (h : row ∈ d.candidates now) : row.nextAttemptAt ≤ now := by
  have hSelected := (List.perm_insertionSort _ _).subset (List.mem_of_mem_take h)
  exact (of_decide_eq_true (List.mem_filter.mp hSelected).2).2

theorem State.get_setRow_self {d : State} {new row : EmailOutbox}
    (hRow : d.rows.get new.id = some row) : (d.setRow new).rows.get new.id = some new := by
  simp [State.setRow, hRow]

theorem State.get_setRow_other (d : State) {new : EmailOutbox} {id : Nat} (hId : id ≠ new.id) :
    (d.setRow new).rows.get id = d.rows.get id :=
  Table.get_modify_other _ _ hId

theorem State.flushRow_eq {d : State} {loaded changed : EmailOutbox}
    (hRow : d.rows.get loaded.id = some loaded) (hId : changed.id = loaded.id) :
    d.flushRow loaded changed = d.setRow changed := by
  unfold State.flushRow State.setRow
  rw [Table.modify_const hRow, EmailOutbox.flush_loaded loaded changed hId, hId]

namespace WellFormed

theorem of_initial (rows : List EmailOutbox) (now : Time) : WellFormed (State.initial rows now) := by
  intro id row hRow
  cases id with
  | zero => cases hRow
  | succ n =>
      obtain ⟨_, _, rfl⟩ := Option.map_eq_some_iff.mp hRow
      rfl

/-- A row under the next number keeps the store well formed. -/
theorem add {d : State} (h : WellFormed d) {row : Nat → EmailOutbox}
    (hId : (row d.rows.serial).id = d.rows.serial) : WellFormed (d.add row) := by
  intro id found hFound
  change (d.rows.add row).get id = some found at hFound
  rcases Table.of_get_add hFound with ⟨rfl, rfl⟩ | hFound
  · exact hId
  · exact h id found hFound

theorem setRow {d : State} (h : WellFormed d) {new old : EmailOutbox}
    (hRow : d.rows.get new.id = some old) : WellFormed (d.setRow new) := by
  intro id found hFound
  by_cases hSame : id = new.id
  · subst hSame
    rw [State.get_setRow_self hRow, Option.some.injEq] at hFound
    exact hFound ▸ rfl
  · exact h id found ((d.get_setRow_other hSame).symm.trans hFound)

/-- Every commit keeps the store well formed. -/
theorem commit {held : Held outbox} {d d' : State} (h : WellFormed d) (hCommit : Commit held d d') :
    WellFormed d' := by
  cases hCommit with
  | observe => exact h
  | enqueue row hId => exact h.add hId
  | start => exact h
  | process old new _ hRow hId => exact h.setRow (hId ▸ hRow)

end WellFormed

/-- A row held by the worker is as it was, and time goes on. -/
structure Kept (held : Held outbox) (d d' : State) : Prop where
  row : ∀ id row, held id = true → d.rows.get id = some row → d'.rows.get id = some row
  now : d.now ≤ d'.now

namespace Kept

variable {held other : Held outbox} {d d' d'' : State}

theorem refl (held : Held outbox) (d : State) : Kept held d d := ⟨fun _ _ _ h => h, le_rfl⟩

theorem trans (h : Kept held d d') (h' : Kept held d' d'') : Kept held d d'' where
  row id row hHeld hRow := h'.row id row hHeld (h.row id row hHeld hRow)
  now := h.now.trans h'.now

/-- A commit keeps the rows that its worker does not hold. -/
theorem of_commit (hCommit : Commit other d d')
    (hDisjoint : ∀ key, held key = true → other key = false) : Kept held d d' := by
  cases hCommit with
  | observe t hLater => exact ⟨fun _ _ _ h => h, hLater⟩
  | enqueue row => exact ⟨fun _ _ _ h => Table.get_add_old h _, le_rfl⟩
  | start => exact ⟨fun _ _ _ h => h, le_rfl⟩
  | process old new hHeld hRow hId =>
      refine ⟨fun id row hOwn hFound => ?_, le_rfl⟩
      have hOther : id ≠ new.id := by
        rintro rfl
        rw [hId] at hOwn
        exact absurd ((hDisjoint _ hOwn).symm.trans hHeld) (by simp)
      exact (d.get_setRow_other hOther).trans hFound

end Kept

def discipline : Discipline outbox where
  ok := NotRescheduled
  inv := WellFormed
  may := Commit
  inv_may h hCommit := h.commit hCommit
  may_observe _ hLater _ := .observe _ (by simpa using hLater)

/-- What the other workers do keeps the held rows. -/
theorem Kept.of_rely {held : Held outbox} {d d' : State} (h : discipline.Rely held d d') :
    Kept held d d' :=
  h.lift (r := Kept held) (Kept.refl held) (fun h h' => h.trans h') fun hStep => by
    obtain ⟨_, hDisjoint, _, hCommit⟩ := hStep
    exact .of_commit hCommit hDisjoint

end OnlineAuction.Outbox
