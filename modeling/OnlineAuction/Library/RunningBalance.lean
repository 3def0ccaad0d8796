import Mathlib.Algebra.BigOperators.Group.List.Basic
import Mathlib.Algebra.Order.Group.Int
import Mathlib.Algebra.Order.Ring.Int

/-! Ledgers that record, with each signed amount, the balance after it. -/

namespace RunningBalance

variable {ε : Type} (signed after : ε → ℤ)

/-- Starting at `start`, every entry records the previous balance plus its
own amount, and the last recorded balance is `final`. -/
def Runs (start : ℤ) : List ε → ℤ → Prop
  | [], final => final = start
  | entry :: rest, final =>
      after entry = start + signed entry ∧ Runs (after entry) rest final

variable {signed after}

/-- A ledger runs through two lists exactly when it runs through each, the
second from where the first ends. -/
theorem runs_append {start final : ℤ} {first second : List ε} :
    Runs signed after start (first ++ second) final ↔
      ∃ middle, Runs signed after start first middle ∧ Runs signed after middle second final := by
  induction first generalizing start with
  | nil => simp [Runs]
  | cons entry rest ih => simp [Runs, ih, and_assoc]

/-- One more entry that continues the recorded balance. -/
theorem Runs.snoc {start middle : ℤ} {entries : List ε} {entry : ε}
    (h : Runs signed after start entries middle)
    (hEntry : after entry = middle + signed entry) :
    Runs signed after start (entries ++ [entry]) (after entry) :=
  runs_append.mpr ⟨middle, h, hEntry, rfl⟩

/-- Entries may be relabelled by a function that keeps the recorded columns. -/
theorem Runs.map {start final : ℤ} {entries : List ε} (f : ε → ε)
    (hSigned : ∀ e, signed (f e) = signed e) (hAfter : ∀ e, after (f e) = after e)
    (h : Runs signed after start entries final) :
    Runs signed after start (entries.map f) final := by
  induction entries generalizing start with
  | nil => exact h
  | cons entry rest ih =>
      obtain ⟨hEntry, hRest⟩ := h
      refine ⟨by rw [hAfter, hSigned, hEntry], ?_⟩
      rw [hAfter]
      exact ih hRest

end RunningBalance
