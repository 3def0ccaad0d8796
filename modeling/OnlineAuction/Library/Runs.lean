import Mathlib.Data.Option.Basic
import Mathlib.Logic.Relation
import Mathlib.Tactic.Common

/-! Runs of a transition system: which states are reached by steps that all meet
a condition, and how to find such a state by performing a schedule. -/

namespace Runs

variable {σ ε : Type}

/-- States reached from `start` by runs all of whose steps meet the condition. -/
inductive Reaches (step : σ → ε → Option σ) (ok : σ → ε → Prop) (start : σ) : σ → Prop where
  | init : Reaches step ok start start
  | next {c c' : σ} (prior : Reaches step ok start c) (a : ε) (moves : step c a = some c')
      (meets : ok c a) : Reaches step ok start c'

variable {step : σ → ε → Option σ} {ok ok' : σ → ε → Prop} {start c : σ}

/-- A weaker condition admits every run of a stronger one. -/
theorem Reaches.weaken (h : ∀ c a, ok c a → ok' c a) (run : Reaches step ok start c) :
    Reaches step ok' start c := by
  induction run with
  | init => exact .init
  | next _ a moves meets ih => exact ih.next a moves (h _ _ meets)

/-- A run goes on where another one has ended. -/
theorem Reaches.trans {c' : σ} (run : Reaches step ok start c) (rest : Reaches step ok c c') :
    Reaches step ok start c' := by
  induction rest with
  | init => exact run
  | next _ a moves meets ih => exact ih.next a moves meets

/-- What the start satisfies and every admitted step keeps. -/
theorem Reaches.invariant {I : σ → Prop} (run : Reaches step ok start c) (hInit : I start)
    (hStep : ∀ {c c' : σ} (a : ε), I c → step c a = some c' → ok c a → I c') : I c := by
  induction run with
  | init => exact hInit
  | next _ a moves meets ih => exact hStep a ih moves meets

/-- Steps that are matched by a step of another system, or leave its state alone,
reach what that system reaches. -/
theorem Reaches.refines {τ : Type} {R : τ → τ → Prop} {f : σ → τ} (run : Reaches step ok start c)
    (hStep : ∀ {c c' : σ} (a : ε), Reaches step ok start c → step c a = some c' → ok c a →
      f c' = f c ∨ R (f c) (f c')) : Relation.ReflTransGen R (f start) (f c) := by
  induction run with
  | init => exact .refl
  | next prior a moves meets ih =>
      rcases hStep a prior moves meets with hSame | hMatched
      · rw [hSame]
        exact ih
      · exact ih.tail hMatched

/-- The system with a history of its steps beside its state. -/
def recording {η : Type} (step : σ → ε → Option σ) (record : η → σ → ε → σ → η) :
    σ × η → ε → Option (σ × η) := fun s a =>
  (step s.1 a).map fun c' => (c', record s.2 s.1 a c')

/-- Perform a list of actions in order, as long as each meets the condition. -/
def perform (step : σ → ε → Option σ) (ok : σ → ε → Prop) [∀ c a, Decidable (ok c a)] :
    σ → List ε → Option σ
  | c, [] => some c
  | c, a :: rest => if ok c a then (step c a).bind fun c' => perform step ok c' rest else none

/-- A performed schedule is a run. -/
theorem reaches_of_perform [∀ c a, Decidable (ok c a)] {actions : List ε} {c' : σ}
    (run : Reaches step ok start c) (h : perform step ok c actions = some c') :
    Reaches step ok start c' := by
  induction actions generalizing c with
  | nil =>
      simp only [perform, Option.some.injEq] at h
      exact h ▸ run
  | cons a rest ih =>
      simp only [perform, Option.ite_none_right_eq_some, Option.bind_eq_some_iff] at h
      obtain ⟨hMeets, middle, hFirst, hRest⟩ := h
      exact ih (run.next a hFirst hMeets) hRest

/-- Whatever is found at the end of a schedule is reachable. -/
theorem exists_reaches (step : σ → ε → Option σ) (ok : σ → ε → Prop) [∀ c a, Decidable (ok c a)]
    (start : σ) (actions : List ε) (p : σ → Prop) [DecidablePred p]
    (h : (perform step ok start actions).any (fun c => decide (p c)) = true) :
    ∃ c, Reaches step ok start c ∧ p c := by
  obtain ⟨c, hPerform, hFound⟩ := (Option.any_eq_true _ _).mp h
  exact ⟨c, reaches_of_perform .init hPerform, of_decide_eq_true hFound⟩

end Runs
