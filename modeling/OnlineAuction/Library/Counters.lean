import Mathlib.Algebra.Order.Ring.Int
import Mathlib.Data.List.Count
import Mathlib.Logic.Function.Basic

/-! Counters that go up by one at a time, and the log of the increments with
the value each of them replaced. -/

namespace Counters

variable {κ ρ : Type} [DecidableEq κ] (key : ρ → κ) (seen : ρ → ℤ)

structure Counted (value value' : κ → Option ℤ) (log : List ρ) : Prop where
  counts : ∀ k, value' k = (value k).map fun v : ℤ => v + log.countP (key · = k)
  increasing : log.Pairwise fun r r' => key r = key r' → seen r < seen r'
  between : ∀ r ∈ log, ∃ first last, value (key r) = some first ∧ value' (key r) = some last ∧
    first ≤ seen r ∧ seen r < last

variable {key seen} {value value' : κ → Option ℤ} {log : List ρ}

/-- Nothing has been read and nothing counted at the start. -/
theorem Counted.refl (value : κ → Option ℤ) : Counted key seen value value [] where
  counts k := by simp
  increasing := .nil
  between r hr := absurd hr List.not_mem_nil

/-- One more increment, of a counter that stands at what it has seen. -/
theorem Counted.increment (h : Counted key seen value value' log) {r : ρ}
    (hSeen : value' (key r) = some (seen r)) :
    Counted key seen value (Function.update value' (key r) (some (seen r + 1))) (log ++ [r]) where
  counts k := by
    by_cases hKey : k = key r
    · subst hKey
      have hCount := h.counts (key r)
      rw [hSeen, eq_comm, Option.map_eq_some_iff] at hCount
      obtain ⟨first, hFirst, hSum⟩ := hCount
      simp [hFirst, ← hSum, add_assoc]
    · simp [hKey, Ne.symm hKey, h.counts k]
  increasing := by
    apply List.pairwise_append.mpr
    refine ⟨h.increasing, List.pairwise_singleton _ _, ?_⟩
    intro r₁ hr₁ r₂ hr₂ hKey
    obtain rfl := List.mem_singleton.mp hr₂
    obtain ⟨_, last, _, hLast, _, hLt⟩ := h.between r₁ hr₁
    rw [hKey, hSeen, Option.some.injEq] at hLast
    exact hLast ▸ hLt
  between r₁ hr₁ := by
    have hCount := h.counts (key r)
    rw [hSeen, eq_comm, Option.map_eq_some_iff] at hCount
    obtain ⟨first, hFirst, hSum⟩ := hCount
    rcases List.mem_append.mp hr₁ with hOld | hNew
    · obtain ⟨start, last, hStart, hLast, hLe, hLt⟩ := h.between r₁ hOld
      by_cases hKey : key r₁ = key r
      · rw [hKey, hSeen, Option.some.injEq] at hLast
        refine ⟨start, seen r + 1, hStart, by simp [hKey], hLe, ?_⟩
        omega
      · exact ⟨start, last, hStart, by simp [hKey, hLast], hLe, hLt⟩
    · obtain rfl := List.mem_singleton.mp hNew
      refine ⟨first, seen r₁ + 1, hFirst, by simp, ?_, ?_⟩
      · omega
      · omega

end Counters
