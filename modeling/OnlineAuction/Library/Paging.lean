import Mathlib.Data.List.Nodup
import Mathlib.Data.List.Perm.Basic
import OnlineAuction.Library.Arrangements

/-! Pages of an ordered result, each of which may be cut from another arrangement of
the rows. Together they hold every row once where, and only where, no end of a page
parts two rows that tie. -/

namespace Arrangements

variable {ρ : Type} {order : ρ → ρ → Prop} {rows sorted sorted' : List ρ}

/-- `OFFSET n * size LIMIT size`. -/
def page (size n : Nat) (sorted : List ρ) : List ρ := (sorted.drop (n * size)).take size

def pages (size count : Nat) (arranged : Nat → List ρ) : List ρ :=
  (List.range count).flatMap fun n => page size n (arranged n)

/-- The last row of a page and the first of the next one do not tie. -/
def Unparted (order : ρ → ρ → Prop) (size : Nat) (sorted : List ρ) : Prop :=
  ∀ n last first, sorted[(n + 1) * size - 1]? = some last →
    sorted[(n + 1) * size]? = some first → ¬order first last

/-- A page is what the rows up to its end have beyond the rows before it. -/
theorem take_page (size n : Nat) (sorted : List ρ) :
    sorted.take (n * size) ++ page size n sorted = sorted.take ((n + 1) * size) := by
  rw [page, Nat.succ_mul, List.take_add]

/-- Over rows that do not change the pages are a beginning of them. -/
theorem pages_const (size count : Nat) (sorted : List ρ) :
    pages size count (fun _ => sorted) = sorted.take (count * size) := by
  induction count with
  | zero => simp [pages]
  | succ count ih =>
      unfold pages at ih ⊢
      rw [List.range_succ, List.flatMap_append, ih, List.flatMap_singleton, take_page]

/-- Rows none of which tie are cut in one way. -/
theorem pages_perm_of_untied {size count : Nat} {arranged : Nat → List ρ}
    (hArranged : ∀ n, Arrangement order rows (arranged n))
    (hUntied : ∀ a ∈ rows, ∀ b ∈ rows, order a b → order b a → a = b)
    (hCount : rows.length ≤ count * size) : (pages size count arranged).Perm rows := by
  have hSame : arranged = fun _ => arranged 0 :=
    funext fun n => (hArranged n).eq_of_untied (hArranged 0) hUntied
  rw [hSame, pages_const, List.take_of_length_le]
  · exact (hArranged 0).perm
  · rwa [(hArranged 0).perm.length_eq]

/-- The rows of a page by their place in the whole. -/
theorem getElem?_page {size n i : Nat} (sorted : List ρ) (hi : i < size) :
    (page size n sorted)[i]? = sorted[n * size + i]? := by
  rw [page, List.getElem?_take, if_pos hi, List.getElem?_drop]

theorem eq_of_getElem? {m : Nat} {x y : ρ} (hx : sorted[m]? = some x)
    (hy : sorted[m + 1]? = some y) :
    sorted = sorted.take m ++ x :: y :: sorted.drop (m + 2) := by
  obtain ⟨hm, rfl⟩ := List.getElem?_eq_some_iff.mp hx
  obtain ⟨hm', rfl⟩ := List.getElem?_eq_some_iff.mp hy
  rw [← List.drop_eq_getElem_cons hm', ← List.drop_eq_getElem_cons hm, List.take_append_drop]

/-- A part that no row ties over the end of is the same in every arrangement. -/
theorem take_perm [IsTrans ρ order] (h : Arrangement order rows sorted)
    (h' : Arrangement order rows sorted') (hNodup : rows.Nodup) {m : Nat} {x y : ρ}
    (hx : sorted[m]? = some x) (hy : sorted[m + 1]? = some y) (hApart : ¬order y x) :
    (sorted'.take (m + 1)).Perm (sorted.take (m + 1)) := by
  have hSplit := eq_of_getElem? hx hy
  have hShort : m + 1 ≤ sorted.length := (List.getElem?_eq_some_iff.mp hy).1.le
  have hLength : (sorted.take (m + 1)).length = (sorted'.take (m + 1)).length := by
    rw [List.length_take, List.length_take, h.perm.length_eq, h'.perm.length_eq]
  have hTake : sorted.take (m + 1) = sorted.take m ++ [x] := by
    rw [List.take_add_one, hx, Option.toList_some]
  have hDrop : sorted.drop (m + 1) = y :: sorted.drop (m + 2) := by
    obtain ⟨hm, rfl⟩ := List.getElem?_eq_some_iff.mp hy
    exact List.drop_eq_getElem_cons hm
  have hStrict {a c : ρ} (ha : a ∈ sorted.take (m + 1)) (hc : c ∈ sorted.drop (m + 1)) :
      ¬order c a := by
    intro hBack
    have hSorted := h.sorted
    rw [hSplit, List.pairwise_append, List.pairwise_cons, List.pairwise_cons] at hSorted
    rw [hTake, List.mem_append, List.mem_singleton] at ha
    rw [hDrop, List.mem_cons] at hc
    have hYA : order y a := by
      rcases hc with rfl | hc
      · exact hBack
      · exact IsTrans.trans y c a (hSorted.2.1.2.1 c hc) hBack
    rcases ha with ha | rfl
    · exact hApart (IsTrans.trans y a x hYA (hSorted.2.2 a ha x (by simp)))
    · exact hApart hYA
  have hNodup' : (sorted'.take (m + 1)).Nodup :=
    (h'.perm.nodup_iff.mpr hNodup).sublist (List.take_sublist _ _)
  have hInto {a : ρ} (ha : a ∈ sorted.take (m + 1)) : a ∈ sorted'.take (m + 1) := by
    by_contra hOut
    have hRows : a ∈ sorted' := h'.mem_iff.mpr (h.mem_iff.mp (List.mem_of_mem_take ha))
    have hBehind : a ∈ sorted'.drop (m + 1) := by
      rw [← List.take_append_drop (m + 1) sorted', List.mem_append] at hRows
      exact hRows.resolve_left hOut
    have hSub : sorted'.take (m + 1) ⊆ sorted.take (m + 1) := by
      intro c hc
      have hCA : order c a := by
        have hSorted := h'.sorted
        rw [← List.take_append_drop (m + 1) sorted', List.pairwise_append] at hSorted
        exact hSorted.2.2 c hc a hBehind
      have hMem : c ∈ sorted := h.mem_iff.mpr (h'.mem_iff.mp (List.mem_of_mem_take hc))
      rw [← List.take_append_drop (m + 1) sorted, List.mem_append] at hMem
      exact hMem.resolve_right fun hLate => hStrict ha hLate hCA
    exact hOut (((List.subperm_of_subset hNodup' hSub).perm_of_length_le hLength.le).mem_iff.mpr ha)
  have hNodup : (sorted.take (m + 1)).Nodup :=
    (h.perm.nodup_iff.mpr hNodup).sublist (List.take_sublist _ _)
  exact ((List.subperm_of_subset hNodup fun _ ha => hInto ha).perm_of_length_le hLength.ge).symm

/-- Where pages part no ties, each is the same up to the order of its rows. -/
theorem page_perm [IsTrans ρ order] (h : Arrangement order rows sorted)
    (h' : Arrangement order rows sorted') (hNodup : rows.Nodup) {size : Nat} (hSize : 0 < size)
    (hUnparted : Unparted order size sorted) (n : Nat) :
    (page size n sorted').Perm (page size n sorted) := by
  have hTake (n : Nat) : (sorted'.take (n * size)).Perm (sorted.take (n * size)) := by
    cases n with
    | zero => simp
    | succ n =>
        have hPos : (n + 1) * size - 1 + 1 = (n + 1) * size :=
          Nat.sub_add_cancel (Nat.mul_pos n.succ_pos hSize)
        by_cases hEnd : (n + 1) * size < sorted.length
        · have hLast := List.getElem?_eq_getElem (l := sorted)
            (lt_of_le_of_lt (Nat.sub_le _ 1) hEnd)
          have hFirst := List.getElem?_eq_getElem (l := sorted) hEnd
          rw [← hPos]
          exact take_perm h h' hNodup hLast (by rw [hPos, hFirst])
            (hUnparted n _ _ hLast hFirst)
        · rw [List.take_of_length_le, List.take_of_length_le (not_lt.mp hEnd)]
          · exact h'.perm.trans h.perm.symm
          · rw [h'.perm.length_eq, ← h.perm.length_eq]
            exact not_lt.mp hEnd
  have hBoth := hTake (n + 1)
  rw [← take_page, ← take_page] at hBoth
  exact (List.perm_append_left_iff _).mp (((hTake n).symm.append_right _).trans hBoth)

/-- The arrangement with two neighbours that tie in the other order. -/
theorem swapped (h : Arrangement order rows sorted) {m : Nat} {x y : ρ}
    (hx : sorted[m]? = some x) (hy : sorted[m + 1]? = some y) (hTie : order y x) :
    Arrangement order rows (sorted.take m ++ y :: x :: sorted.drop (m + 2)) := by
  have hSplit := eq_of_getElem? hx hy
  obtain ⟨hPerm, hSorted⟩ := h
  rw [hSplit] at hPerm hSorted
  obtain ⟨hFront, hBack, hAcross⟩ := List.pairwise_append.mp hSorted
  obtain ⟨hX, hRest⟩ := List.pairwise_cons.mp hBack
  obtain ⟨hY, hTail⟩ := List.pairwise_cons.mp hRest
  refine ⟨((List.Perm.swap x y _).append_left _).trans hPerm, ?_⟩
  refine List.pairwise_append.mpr ⟨hFront, ?_, fun a ha b hb => hAcross a ha b ?_⟩
  · refine List.pairwise_cons.mpr ⟨fun b hb => ?_, List.pairwise_cons.mpr ⟨?_, hTail⟩⟩
    · rcases List.mem_cons.mp hb with rfl | hb
      · exact hTie
      · exact hY b hb
    · exact fun b hb => hX b (List.mem_cons_of_mem _ hb)
  · simp only [List.mem_cons] at hb ⊢
    tauto

/-- However each page is cut, the pages hold every row once, if and only if no end
of a page parts rows that tie. -/
theorem pages_perm_iff [IsTrans ρ order] (h : Arrangement order rows sorted)
    (hNodup : rows.Nodup) {size count : Nat} (hSize : 0 < size)
    (hCount : rows.length ≤ count * size) :
    (∀ arranged : Nat → List ρ, (∀ n, Arrangement order rows (arranged n)) →
      (pages size count arranged).Perm rows) ↔ Unparted order size sorted := by
  constructor
  · intro hPages n last first hLast hFirst hTie
    have hPos : (n + 1) * size - 1 + 1 = (n + 1) * size :=
      Nat.sub_add_cancel (Nat.mul_pos n.succ_pos hSize)
    rw [← hPos] at hFirst
    let other := sorted.take ((n + 1) * size - 1) ++ first :: last ::
      sorted.drop ((n + 1) * size - 1 + 2)
    let arranged (k : Nat) : List ρ := if k = n then sorted else other
    have hArranged (k : Nat) : Arrangement order rows (arranged k) := by
      by_cases hk : k = n
      · simpa [arranged, hk] using h
      · simpa [arranged, hk] using swapped h hLast hFirst hTie
    have hOnce : (pages size count arranged).Nodup :=
      (hPages arranged hArranged).nodup_iff.mpr hNodup
    have hIn : last ∈ page size n (arranged n) := by
      have hIndex : n * size + (size - 1) = (n + 1) * size - 1 := by
        rw [Nat.succ_mul]
        omega
      apply List.mem_of_getElem? (i := size - 1)
      rw [getElem?_page _ (Nat.sub_lt hSize Nat.one_pos), hIndex]
      simpa [arranged] using hLast
    have hAgain : last ∈ page size (n + 1) (arranged (n + 1)) := by
      have hShort : (n + 1) * size - 1 < sorted.length := (List.getElem?_eq_some_iff.mp hLast).1
      have hFront : (sorted.take ((n + 1) * size - 1)).length = (n + 1) * size - 1 :=
        List.length_take_of_le hShort.le
      apply List.mem_of_getElem? (i := 0)
      rw [getElem?_page _ hSize, Nat.add_zero, ← hPos]
      simp [arranged, other, hFront]
    have hNext : n + 1 < count := by
      have hShort := (List.getElem?_eq_some_iff.mp hFirst).1
      rw [hPos, h.perm.length_eq] at hShort
      exact Nat.lt_of_mul_lt_mul_right (hShort.trans_le hCount)
    have hDisjoint := List.pairwise_iff_getElem.mp (List.nodup_flatMap.mp hOnce).2 n (n + 1)
      (by simpa using Nat.lt_of_succ_lt hNext) (by simpa using hNext) n.lt_succ_self
    rw [List.getElem_range, List.getElem_range] at hDisjoint
    exact hDisjoint hIn hAgain
  · intro hUnparted arranged hArranged
    have hSame : (pages size count arranged).Perm (pages size count fun _ => sorted) :=
      List.Perm.flatMap_left _ fun n _ => page_perm h (hArranged n) hNodup hSize hUnparted n
    rw [pages_const, List.take_of_length_le (by rwa [h.perm.length_eq])] at hSame
    exact hSame.trans h.perm

end Arrangements
