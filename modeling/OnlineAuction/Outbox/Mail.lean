import OnlineAuction.Outbox.Worker

/-! The life of one mail, whoever works on it: it is stored, attempts to send it
start one at a time, and each of them is concluded by a commit or lost. -/

namespace OnlineAuction.Outbox

/-- A row as `enqueue_email` stores it. -/
structure Fresh (row : EmailOutbox) : Prop where
  status : row.status = .pending
  attempts : row.attempts = 0

/-- A row as `_process_one` leaves it after an attempt that ended so. -/
inductive Concluded (old new : EmailOutbox) : Option String → Prop where
  | sent (hStatus : new.status = .sent) (hAttempts : new.attempts = old.attempts)
      (hMax : new.maxAttempts = old.maxAttempts) : Concluded old new none
  | failed (error : String) (hStatus : new.status = .failed)
      (hAttempts : new.attempts = old.attempts + 1) (hMax : new.maxAttempts = old.maxAttempts)
      (hSpent : old.maxAttempts ≤ old.attempts + 1) : Concluded old new (some error)
  | retried (error : String) (hStatus : new.status = .pending)
      (hAttempts : new.attempts = old.attempts + 1) (hMax : new.maxAttempts = old.maxAttempts)
      (hLeft : old.attempts + 1 < old.maxAttempts) : Concluded old new (some error)

/-- The committed row of a mail, the attempt in progress with how it ends, and
how many attempts were started, have succeeded, were committed as failed, and
have succeeded only to be lost. -/
@[ext]
structure Mail where
  row : Option EmailOutbox
  sending : Option (Option String)
  started : Nat
  succeeded : Nat
  failures : Nat
  losses : Nat

def Mail.unused : Mail := ⟨none, none, 0, 0, 0, 0⟩

def success (error : Option String) : Nat := if error.isNone then 1 else 0

def failure (error : Option String) : Nat := if error.isSome then 1 else 0

inductive Mail.Step (m : Mail) : Mail → Prop where
  | rest : Step m m
  | store (row : EmailOutbox) (hNone : m.row = none) (hFresh : Fresh row) :
      Step m { m with row := some row }
  | attempt (row : EmailOutbox) (error : Option String) (hRow : m.row = some row)
      (hPending : row.status = .pending) (hIdle : m.sending = none) :
      Step m { m with
        sending := some error
        started := m.started + 1
        succeeded := m.succeeded + success error }
  | conclude (row changed : EmailOutbox) (error : Option String) (hRow : m.row = some row)
      (hPending : row.status = .pending) (hSending : m.sending = some error)
      (hConcluded : Concluded row changed error) :
      Step m { m with
        row := some changed
        sending := none
        failures := m.failures + failure error }
  | lose (error : Option String) (hSending : m.sending = some error) :
      Step m { m with sending := none, losses := m.losses + success error }

namespace Mail

variable {m m' m'' : Mail}

/-- Failures are counted and within the budget, which only a dead letter has used
up; every success is the one committed, in progress, or lost. -/
structure InOrder (m : Mail) : Prop where
  unused : m.row = none → m = .unused
  busy : ∀ error, m.sending = some error → ∃ row, m.row = some row ∧ row.status = .pending
  attempts : ∀ row, m.row = some row → row.attempts = m.failures
  spent : ∀ row, m.row = some row → 1 ≤ row.maxAttempts → row.status = .failed →
    row.attempts = row.maxAttempts
  left : ∀ row, m.row = some row → 1 ≤ row.maxAttempts → row.status ≠ .failed →
    row.attempts < row.maxAttempts
  delivered : ∀ row, m.row = some row →
    m.succeeded = m.losses + m.sending.elim 0 success + if row.status = .sent then 1 else 0

theorem InOrder.of_unused : InOrder .unused := by
  constructor <;> simp [Mail.unused]

/-- A fresh row has used up nothing of its budget. -/
theorem InOrder.of_fresh {row : EmailOutbox} (hFresh : Fresh row) :
    InOrder { Mail.unused with row := some row } := by
  have hAttempts := hFresh.attempts
  constructor
  · simp
  · simp [Mail.unused]
  · simp [Mail.unused, hAttempts]
  · simp [hFresh.status]
  · simp only [Option.some.injEq]
    rintro _ rfl hBudget _
    omega
  · simp [Mail.unused, hFresh.status]

/-- An attempt that ends is counted as it ended. -/
theorem InOrder.conclude (h : InOrder m) {row changed : EmailOutbox} {error : Option String}
    (hRow : m.row = some row) (hPending : row.status = .pending) (hSending : m.sending = some error)
    (hConcluded : Concluded row changed error) :
    InOrder { m with
      row := some changed
      sending := none
      failures := m.failures + failure error } := by
  have hAttempts := h.attempts row hRow
  have hLeft := h.left row hRow
  have hDelivered := h.delivered row hRow
  simp only [hSending, hPending, Option.elim_some] at hDelivered hLeft
  constructor
  · simp
  · simp
  · simp only [Option.some.injEq]
    rintro _ rfl
    cases hConcluded with
    | sent _ hSame => simp [failure, hSame, hAttempts]
    | failed error _ hMore => simp [failure, hMore, hAttempts]
    | retried error _ hMore => simp [failure, hMore, hAttempts]
  · simp only [Option.some.injEq]
    rintro _ rfl hBudget hFailed
    cases hConcluded with
    | sent hStatus => simp [hStatus] at hFailed
    | failed error _ hMore hMax hSpent =>
        have hBefore := hLeft (hMax ▸ hBudget) (by simp)
        omega
    | retried error hStatus => simp [hStatus] at hFailed
  · simp only [Option.some.injEq]
    rintro _ rfl hBudget hNotFailed
    cases hConcluded with
    | sent _ hSame hMax =>
        rw [hSame, hMax]
        exact hLeft (hMax ▸ hBudget) (by simp)
    | failed error hStatus => exact absurd hStatus hNotFailed
    | retried error _ hMore hMax hBelow => omega
  · simp only [Option.some.injEq, Option.elim_none]
    rintro _ rfl
    cases hConcluded with
    | sent hStatus => simpa [hStatus, success] using hDelivered
    | failed error hStatus => simpa [hStatus, success] using hDelivered
    | retried error hStatus => simpa [hStatus, success] using hDelivered

/-- Every step keeps the mail in order, one case for each. -/
theorem InOrder.step (h : InOrder m) (hStep : Step m m') : InOrder m' := by
  cases hStep with
  | rest => exact h
  | store row hNone hFresh =>
      have hUnused : m = .unused := h.unused hNone
      subst hUnused
      exact .of_fresh hFresh
  | attempt row error hRow hPending hIdle =>
      have hDelivered := h.delivered row hRow
      constructor
      · simp [hRow]
      · exact fun _ _ => ⟨row, hRow, hPending⟩
      · exact h.attempts
      · exact h.spent
      · exact h.left
      · simp only [hRow, Option.some.injEq]
        rintro _ rfl
        simp only [hIdle, hPending, Option.elim_none, Option.elim_some] at hDelivered ⊢
        omega
  | conclude row changed error hRow hPending hSending hConcluded =>
      exact h.conclude hRow hPending hSending hConcluded
  | lose error hSending =>
      constructor
      · intro hNone
        simp [h.unused hNone, Mail.unused] at hSending
      · simp
      · exact h.attempts
      · exact h.spent
      · exact h.left
      · intro row hRow
        have hDelivered := h.delivered row hRow
        simp only [hSending, Option.elim_some, Option.elim_none] at hDelivered ⊢
        omega

/-- The budget of a mail in order. -/
theorem InOrder.attempts_le (h : InOrder m) {row : EmailOutbox} (hRow : m.row = some row)
    (hBudget : 1 ≤ row.maxAttempts) : row.attempts ≤ row.maxAttempts := by
  by_cases hFailed : row.status = .failed
  · exact (h.spent row hRow hBudget hFailed).le
  · exact (h.left row hRow hBudget hFailed).le

/-- A mail has failed exactly when its budget is used up. -/
theorem InOrder.failed_iff (h : InOrder m) {row : EmailOutbox} (hRow : m.row = some row)
    (hBudget : 1 ≤ row.maxAttempts) : row.status = .failed ↔ row.attempts = row.maxAttempts := by
  constructor
  · exact h.spent row hRow hBudget
  · intro hSpent
    by_contra hNotFailed
    exact (h.left row hRow hBudget hNotFailed).ne hSpent

/-- A sent mail has been sent. -/
theorem InOrder.succeeded_of_sent (h : InOrder m) {row : EmailOutbox} (hRow : m.row = some row)
    (hSent : row.status = .sent) : 1 ≤ m.succeeded := by
  have hDelivered := h.delivered row hRow
  rw [if_pos hSent] at hDelivered
  omega

/-- An attempt in progress and a committed success exclude each other. -/
theorem InOrder.succeeded_le (h : InOrder m) {row : EmailOutbox} (hRow : m.row = some row) :
    m.succeeded ≤ 1 + m.losses := by
  have hDelivered := h.delivered row hRow
  cases hSending : m.sending with
  | none =>
      rw [hSending] at hDelivered
      simp only [Option.elim_none] at hDelivered
      split_ifs at hDelivered <;> omega
  | some error =>
      obtain ⟨found, hFound, hPending⟩ := h.busy error hSending
      obtain rfl : row = found := Option.some.inj (hRow.symm.trans hFound)
      have hOne : success error ≤ 1 := by
        unfold success
        split_ifs <;> omega
      simp only [hSending, hPending, Option.elim_some] at hDelivered
      simp only [reduceCtorEq, if_false] at hDelivered
      omega

/-- A stored mail stays stored with its budget, no failure is forgotten, and
once it is sent or dead it is left alone. -/
def Since (m m' : Mail) : Prop :=
  ∀ row, m.row = some row → ∃ row', m'.row = some row' ∧
    row'.maxAttempts = row.maxAttempts ∧ row.attempts ≤ row'.attempts ∧
    (row.status ≠ .pending → row' = row ∧ m'.started = m.started)

theorem Since.refl (m : Mail) : Since m m := fun row hRow =>
  ⟨row, hRow, rfl, le_rfl, fun _ => ⟨rfl, rfl⟩⟩

theorem Since.trans (h : Since m m') (h' : Since m' m'') : Since m m'' := by
  intro row hRow
  obtain ⟨row', hRow', hMax, hAttempts, hDone⟩ := h row hRow
  obtain ⟨row'', hRow'', hMax', hAttempts', hDone'⟩ := h' row' hRow'
  refine ⟨row'', hRow'', hMax'.trans hMax, hAttempts.trans hAttempts', fun hStatus => ?_⟩
  obtain ⟨rfl, hStarted⟩ := hDone hStatus
  obtain ⟨rfl, hStarted'⟩ := hDone' hStatus
  exact ⟨rfl, hStarted'.trans hStarted⟩

/-- What a single step may change. -/
theorem Since.of_step (hStep : Step m m') : Since m m' := by
  intro row hRow
  cases hStep with
  | rest => exact Since.refl m row hRow
  | store _ hNone => simp [hNone] at hRow
  | attempt found error hFound hPending =>
      obtain rfl : row = found := Option.some.inj (hRow.symm.trans hFound)
      exact ⟨row, hRow, rfl, le_rfl, fun hDone => absurd hPending hDone⟩
  | conclude found changed error hFound hPending _ hConcluded =>
      obtain rfl : row = found := Option.some.inj (hRow.symm.trans hFound)
      refine ⟨changed, rfl, ?_, ?_, fun hDone => absurd hPending hDone⟩
      · cases hConcluded <;> assumption
      · cases hConcluded <;> omega
  | lose => exact ⟨row, hRow, rfl, le_rfl, fun _ => ⟨rfl, rfl⟩⟩

end Mail

end OnlineAuction.Outbox
