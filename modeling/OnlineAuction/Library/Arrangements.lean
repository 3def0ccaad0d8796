import Mathlib.Data.List.Sort

/-! What a database may return of rows under an order in which some of them tie:
each arrangement of the rows in which none comes before a row it has to follow,
and another one for the next query. -/

namespace Arrangements

variable {ρ : Type}

structure Arrangement (order : ρ → ρ → Prop) (rows sorted : List ρ) : Prop where
  perm : sorted.Perm rows
  sorted : sorted.Pairwise order

/-- The order, and where two rows tie, the preference. -/
def Refined (order prefers : ρ → ρ → Prop) (a b : ρ) : Prop :=
  order a b ∧ (order b a → prefers a b)

section Refined

variable {order prefers : ρ → ρ → Prop}

instance [Std.Total order] [Std.Total prefers] : Std.Total (Refined order prefers) := ⟨fun a b => by
  unfold Refined
  by_cases hAB : order a b
  · by_cases hBA : order b a
    · rcases Std.Total.total (r := prefers) a b with h | h
      · exact .inl ⟨hAB, fun _ => h⟩
      · exact .inr ⟨hBA, fun _ => h⟩
    · exact .inl ⟨hAB, fun h => absurd h hBA⟩
  · have hBA := (Std.Total.total (r := order) a b).resolve_left hAB
    exact .inr ⟨hBA, fun h => absurd h hAB⟩⟩

instance [IsTrans ρ order] [IsTrans ρ prefers] : IsTrans ρ (Refined order prefers) :=
  ⟨fun a b c hAB hBC => by
    refine ⟨IsTrans.trans a b c hAB.1 hBC.1, fun hCA => ?_⟩
    have hBA : order b a := IsTrans.trans b c a hBC.1 hCA
    have hCB : order c b := IsTrans.trans c a b hCA hAB.1
    exact IsTrans.trans a b c (hAB.2 hBA) (hBC.2 hCB)⟩

end Refined

namespace Arrangement

variable {order prefers : ρ → ρ → Prop} {rows sorted sorted' : List ρ}

/-- Sorting arranges the rows, so every list of rows has an arrangement. -/
theorem of_insertionSort [DecidableRel order] [Std.Total order] [IsTrans ρ order]
    (rows : List ρ) : Arrangement order rows (rows.insertionSort order) :=
  ⟨List.perm_insertionSort _ _, List.pairwise_insertionSort _ _⟩

theorem mem_iff (h : Arrangement order rows sorted) {row : ρ} : row ∈ sorted ↔ row ∈ rows :=
  h.perm.mem_iff

/-- A filter commutes with arranging: the kept rows keep their order. -/
theorem filter (h : Arrangement order rows sorted) (p : ρ → Bool) :
    Arrangement order (rows.filter p) (sorted.filter p) :=
  ⟨h.perm.filter p, h.sorted.filter p⟩

/-- The first row may come before every other one. -/
theorem head_first [Std.Refl order] (h : Arrangement order rows sorted) {first : ρ}
    (hFirst : sorted.head? = some first) : first ∈ rows ∧ ∀ row ∈ rows, order first row := by
  obtain ⟨rest, rfl⟩ := List.head?_eq_some_iff.mp hFirst
  refine ⟨h.mem_iff.mp List.mem_cons_self, fun row hRow => ?_⟩
  rcases List.mem_cons.mp (h.mem_iff.mpr hRow) with rfl | hRest
  · exact Std.Refl.refl row
  · exact (List.pairwise_cons.mp h.sorted).1 row hRest

/-- Where no two of the rows tie there is one arrangement. -/
theorem eq_of_untied (h : Arrangement order rows sorted) (h' : Arrangement order rows sorted')
    (hUntied : ∀ a ∈ rows, ∀ b ∈ rows, order a b → order b a → a = b) : sorted = sorted' := by
  apply List.Perm.eq_of_pairwise _ h.sorted h'.sorted (h.perm.trans h'.perm.symm)
  intro a b hA hB
  exact hUntied a (h.mem_iff.mp hA) b (h'.mem_iff.mp hB)

end Arrangement

/-- Ties may be broken in favour of one row, wherever it may come first. -/
theorem exists_first {order : ρ → ρ → Prop} [Std.Total order] [IsTrans ρ order] (rows : List ρ)
    (p : ρ → Bool) {first : ρ} (hMem : first ∈ rows.filter p)
    (hFirst : ∀ row ∈ rows.filter p, order first row) :
    ∃ sorted, Arrangement order rows sorted ∧ (sorted.filter p).head? = some first := by
  classical
  let prefers (a b : ρ) : Prop := b = first → a = first
  have hTotal : Std.Total prefers := ⟨fun a b => by
    by_cases hA : a = first
    · exact .inl fun _ => hA
    · exact .inr fun h => absurd h hA⟩
  have hTrans : IsTrans ρ prefers := ⟨fun a b c hAB hBC hC => hAB (hBC hC)⟩
  have hRefined : Arrangement (Refined order prefers) rows
      (rows.insertionSort (Refined order prefers)) := .of_insertionSort rows
  refine ⟨_, ⟨hRefined.perm, hRefined.sorted.imp And.left⟩, ?_⟩
  have hFiltered := hRefined.filter p
  cases hHead : ((rows.insertionSort (Refined order prefers)).filter p).head? with
  | none =>
      rw [List.head?_eq_none_iff] at hHead
      rw [← hFiltered.mem_iff, hHead] at hMem
      cases hMem
  | some head =>
      have hRefl : Std.Refl (Refined order prefers) :=
        ⟨fun a => (Std.Total.total (r := Refined order prefers) a a).elim id id⟩
      obtain ⟨hIn, hBefore⟩ := hFiltered.head_first hHead
      have hTie := hBefore first hMem
      rw [hTie.2 (hFirst head hIn) rfl]

end Arrangements
