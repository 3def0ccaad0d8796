import Mathlib.Algebra.Order.Ring.Int
import Mathlib.Data.List.Basic
import Mathlib.Logic.Function.Basic
import Mathlib.Tactic.Common

/-! Items of several streams, numbered as they are posted, which readers are
given one at a time. Each reader is given those of a stream in the order in which
they were posted, as long as it is given none before one that is still due to it. -/

variable {ρ κ : Type}

/-- What each reader has been given is in order, and nothing posted earlier in
the stream is still due to it. -/
structure InTurn (stream : Nat → κ) (due : Nat → ρ → Prop) (given : ρ → List Nat) : Prop where
  sorted : ∀ reader, (given reader).Pairwise fun i j => stream i = stream j → i ≤ j
  settled : ∀ reader, ∀ order ∈ given reader, ∀ earlier < order,
    stream earlier = stream order → ¬due earlier reader

namespace InTurn

variable {stream stream' : Nat → κ} {due due' : Nat → ρ → Prop} {given : ρ → List Nat}

theorem initial : InTurn stream due fun _ => [] where
  sorted _ := List.Pairwise.nil
  settled _ _ hGiven := by cases hGiven

/-- More is posted, and nothing else comes to be due. -/
theorem mono (h : InTurn stream due given) {posted : Nat}
    (hGiven : ∀ reader, ∀ order ∈ given reader, order < posted)
    (hStream : ∀ order < posted, stream' order = stream order)
    (hDue : ∀ order < posted, ∀ reader, due' order reader → due order reader) :
    InTurn stream' due' given where
  sorted reader := by
    apply (h.sorted reader).imp_of_mem
    intro i j hi hj hSorted hSame
    apply hSorted
    rwa [hStream i (hGiven reader i hi), hStream j (hGiven reader j hj)] at hSame
  settled reader order hOrder earlier hEarlier hSame hStill := by
    have hPosted := hGiven reader order hOrder
    rw [hStream earlier (hEarlier.trans hPosted), hStream order hPosted] at hSame
    exact h.settled reader order hOrder earlier hEarlier hSame
      (hDue earlier (hEarlier.trans hPosted) reader hStill)

/-- A reader is given what is due to it, and nothing before it is. -/
theorem give [DecidableEq ρ] (h : InTurn stream due given) {order : Nat} {reader : ρ}
    (hDue : due order reader)
    (hTurn : ∀ earlier < order, stream earlier = stream order → ¬due earlier reader) :
    InTurn stream due (Function.update given reader (given reader ++ [order])) where
  sorted other := by
    by_cases hOther : other = reader
    · subst hOther
      rw [Function.update_self, List.pairwise_append]
      refine ⟨h.sorted other, List.pairwise_singleton _ _, fun i hi j hj hSame => ?_⟩
      obtain rfl := List.mem_singleton.mp hj
      by_contra hLater
      exact h.settled other i hi j (not_le.mp hLater) hSame.symm hDue
    · rw [Function.update_of_ne hOther]
      exact h.sorted other
  settled other given' hGiven := by
    by_cases hOther : other = reader
    · subst hOther
      rw [Function.update_self] at hGiven
      rcases List.mem_append.mp hGiven with hOld | hNew
      · exact h.settled other given' hOld
      · obtain rfl := List.mem_singleton.mp hNew
        exact hTurn
    · rw [Function.update_of_ne hOther] at hGiven
      exact h.settled other given' hGiven

/-- What a reader is given of a stream is related as the items of the stream are. -/
theorem pairwise {α : Type} {items : List α} {streamOf : α → κ} {R : α → α → Prop}
    (h : InTurn (fun order => (items[order]?).map streamOf) due given) (hRefl : ∀ a, R a a)
    (hItems : items.Pairwise fun a b => streamOf a = streamOf b → R a b) (reader : ρ)
    (p : α → Bool) (hStream : ∀ a b, p a = true → p b = true → streamOf a = streamOf b) :
    ((given reader).filterMap fun order => (items[order]?).filter p).Pairwise R := by
  rw [List.pairwise_filterMap]
  apply (h.sorted reader).imp
  intro i j hSorted a ha b hb
  obtain ⟨ha, hp⟩ := Option.filter_eq_some_iff.mp ha
  obtain ⟨hb, hq⟩ := Option.filter_eq_some_iff.mp hb
  have hSame := hStream a b hp hq
  rcases (hSorted (by simp [ha, hb, hSame])).eq_or_lt with rfl | hLess
  · obtain rfl : a = b := Option.some.inj (ha.symm.trans hb)
    exact hRefl a
  · obtain ⟨hi, rfl⟩ := List.getElem?_eq_some_iff.mp ha
    obtain ⟨hj, rfl⟩ := List.getElem?_eq_some_iff.mp hb
    exact List.pairwise_iff_getElem.mp hItems i j hi hj hLess hSame

/-- The last of the given items that has a value is the latest that has one. -/
theorem getLast?_filterMap {α : Type} (h : InTurn stream due given) {f : Nat → Option α} {reader : ρ}
    {order : Nat} {value : α} (hGiven : order ∈ given reader) (hValue : f order = some value)
    (hStream : ∀ later value', f later = some value' → stream later = stream order)
    (hLatest : ∀ later > order, f later = none) :
    ((given reader).filterMap f).getLast? = some value := by
  obtain ⟨before, after, hSplit⟩ := List.append_of_mem hGiven
  have hAfter : ∀ value' ∈ after.filterMap f, value' = value := by
    intro value' hMem
    obtain ⟨later, hLater, hValue'⟩ := List.mem_filterMap.mp hMem
    have hSorted := h.sorted reader
    rw [hSplit, List.pairwise_append] at hSorted
    have hLe : order ≤ later :=
      (List.pairwise_cons.mp hSorted.2.1).1 later hLater (hStream later value' hValue').symm
    rcases hLe.eq_or_lt with rfl | hLess
    · exact Option.some.inj (hValue'.symm.trans hValue)
    · rw [hLatest later hLess] at hValue'
      cases hValue'
  rw [hSplit, List.filterMap_append, List.filterMap_cons_some hValue, List.getLast?_append,
    List.getLast?_cons]
  cases hLast : (after.filterMap f).getLast? with
  | none => rfl
  | some value' => simp [hAfter value' (List.mem_of_getLast? hLast)]

end InTurn
