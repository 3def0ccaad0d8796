import Mathlib.Algebra.BigOperators.Group.Finset.Piecewise
import Mathlib.Algebra.Order.Ring.Int
import Mathlib.Data.List.Sort

/-! Rows ordered by a timestamp and, among equal timestamps, by a serial
number: the first row of the descending order, and the first row of each
group. On a list written in nondecreasing time under increasing numbers,
both are the row written last. -/

namespace Latest

variable {ρ κ : Type} (time : ρ → ℤ) (id : ρ → Nat)

/-- `ORDER BY time DESC, id DESC`. -/
def Newer (a b : ρ) : Prop := time b < time a ∨ (time a = time b ∧ id b ≤ id a)

instance : DecidableRel (Newer time id) := fun a b => by
  unfold Newer
  infer_instance

/-- Written in this order: nondecreasing time, increasing number. -/
def Older (a b : ρ) : Prop := time a ≤ time b ∧ id a < id b

/-- `ORDER BY time DESC, id DESC LIMIT 1`. -/
def latest (rows : List ρ) : Option ρ := (rows.insertionSort (Newer time id)).head?

/-- `ORDER BY time, id`. -/
def chronological (rows : List ρ) : List ρ :=
  rows.insertionSort fun a b => Newer time id b a

instance : Std.Total (Newer time id) := ⟨fun a b => by
  unfold Newer
  omega⟩

instance : IsTrans ρ (Newer time id) := ⟨fun a b c hab hbc => by
  unfold Newer at hab hbc ⊢
  omega⟩

instance : Std.Total fun a b => Newer time id b a := ⟨fun a b => by
  unfold Newer
  omega⟩

instance : IsTrans ρ fun a b => Newer time id b a := ⟨fun a b c hab hbc => by
  unfold Newer at hab hbc ⊢
  omega⟩

variable {time id}

theorem Older.newer {a b : ρ} (h : Older time id a b) : Newer time id b a := by
  unfold Older at h
  unfold Newer
  omega

theorem Older.not_newer {a b : ρ} (h : Older time id a b) : ¬Newer time id a b := by
  unfold Older at h
  unfold Newer
  omega

/-- Any descending arrangement of rows written in order starts with the row
written last. -/
theorem head?_of_perm {rows sorted : List ρ} (hWritten : rows.Pairwise (Older time id))
    (hPerm : sorted.Perm rows) (hSorted : sorted.Pairwise (Newer time id)) :
    sorted.head? = rows.getLast? := by
  cases sorted with
  | nil => simp [hPerm.nil_eq.symm]
  | cons first rest =>
      have hNonempty : rows ≠ [] := by
        rintro rfl
        simp at hPerm
      rw [List.getLast?_eq_some_getLast hNonempty, List.head?_cons, Option.some.injEq]
      by_contra hDiffer
      have hSplit := List.dropLast_append_getLast hNonempty
      have hFirst : first ∈ rows.dropLast := by
        have hMem : first ∈ rows := hPerm.mem_iff.mp (by simp)
        rw [← hSplit, List.mem_append, List.mem_singleton] at hMem
        exact hMem.resolve_right hDiffer
      have hOlder : Older time id first (rows.getLast hNonempty) := by
        rw [← hSplit, List.pairwise_append] at hWritten
        exact hWritten.2.2 first hFirst _ (by simp)
      have hLast : rows.getLast hNonempty ∈ rest := by
        have hMem := hPerm.mem_iff.mpr (List.getLast_mem hNonempty)
        exact (List.mem_cons.mp hMem).resolve_left fun h => hDiffer h.symm
      exact hOlder.not_newer ((List.pairwise_cons.mp hSorted).1 _ hLast)

/-- In rows that stand from old to new the latest is the last. -/
theorem latest_eq_getLast? {rows : List ρ} (h : rows.Pairwise (Older time id)) :
    latest time id rows = rows.getLast? :=
  head?_of_perm h (List.perm_insertionSort _ _) (List.pairwise_insertionSort _ _)

/-- Rows that stand from old to new are already in chronological order. -/
theorem chronological_eq {rows : List ρ} (h : rows.Pairwise (Older time id)) :
    chronological time id rows = rows := by
  apply List.Pairwise.insertionSort_eq
  exact h.imp Older.newer

theorem latest_mem {rows : List ρ} {row : ρ} (h : latest time id rows = some row) :
    row ∈ rows := by
  have hMem := List.mem_of_head? h
  exact (List.perm_insertionSort _ _).mem_iff.mp hMem

theorem latest_eq_none {rows : List ρ} : latest time id rows = none ↔ rows = [] := by
  unfold latest
  rw [List.head?_eq_none_iff]
  constructor
  · intro h
    have hPerm := List.perm_insertionSort (Newer time id) rows
    rw [h] at hPerm
    exact hPerm.nil_eq.symm
  · rintro rfl
    rfl

variable [DecidableEq κ] (group : ρ → κ)

/-- `DISTINCT ON`: keep the first row of each group. -/
def distinctOn : List ρ → List ρ
  | [] => []
  | row :: rest => row :: (distinctOn rest).filter fun other => group other ≠ group row

theorem mem_of_mem_distinctOn {row : ρ} {rows : List ρ} (h : row ∈ distinctOn group rows) :
    row ∈ rows := by
  induction rows with
  | nil => exact h
  | cons first rest ih =>
      rcases List.mem_cons.mp h with rfl | hRest
      · exact List.mem_cons_self
      · exact List.mem_cons_of_mem _ (ih (List.mem_filter.mp hRest).1)

theorem exists_mem_distinctOn {row : ρ} {rows : List ρ} (h : row ∈ rows) :
    ∃ first ∈ distinctOn group rows, group first = group row := by
  induction rows with
  | nil => cases h
  | cons first rest ih =>
      by_cases hFirst : group first = group row
      · exact ⟨first, List.mem_cons_self, hFirst⟩
      · have hRest : row ∈ rest := (List.mem_cons.mp h).resolve_left fun hSame =>
          hFirst (congrArg group hSame.symm)
        obtain ⟨kept, hKept, hSame⟩ := ih hRest
        refine ⟨kept, List.mem_cons_of_mem _ (List.mem_filter.mpr ⟨hKept, ?_⟩), hSame⟩
        exact decide_eq_true fun hGroup => hFirst (hGroup.symm.trans hSame)

theorem filter_distinctOn (k : κ) (rows : List ρ) :
    (distinctOn group rows).filter (fun row => group row = k) =
      (rows.filter fun row => group row = k).head?.toList := by
  induction rows with
  | nil => rfl
  | cons row rest ih =>
      by_cases hRow : group row = k
      · have hNone : ((distinctOn group rest).filter fun other => group other ≠ group row).filter
            (fun other => group other = k) = [] := by
          rw [List.filter_filter, List.filter_eq_nil_iff]
          simp [hRow]
        simp [distinctOn, hRow] at hNone ⊢
      · have hSame : ((distinctOn group rest).filter fun other => group other ≠ group row).filter
            (fun other => group other = k) =
            (distinctOn group rest).filter fun other => group other = k := by
          rw [List.filter_filter]
          apply List.filter_congr
          intro other _
          by_cases hOther : group other = k
          · simp [hOther, Ne.symm hRow]
          · simp [hOther]
        simp only [distinctOn, List.filter_cons, hRow, decide_false, Bool.false_eq_true,
          if_false, hSame, ih]

variable (time : ρ → ℤ) (id : ρ → Nat) (member : ρ → Nat)

/-- `ORDER BY member, time DESC, id DESC`. -/
def Grouped (a b : ρ) : Prop :=
  member a < member b ∨ (member a = member b ∧ Newer time id a b)

instance : DecidableRel (Grouped time id member) := fun a b => by
  unfold Grouped
  infer_instance

instance : Std.Total (Grouped time id member) := ⟨fun a b => by
  unfold Grouped Newer
  omega⟩

instance : IsTrans ρ (Grouped time id member) := ⟨fun a b c hab hbc => by
  unfold Grouped Newer at hab hbc ⊢
  omega⟩

/-- `ORDER BY member, time DESC`, under which equal times tie. -/
def GroupedByTime (a b : ρ) : Prop := member a < member b ∨ (member a = member b ∧ time b ≤ time a)

instance : DecidableRel (GroupedByTime time member) := fun a b => by
  unfold GroupedByTime
  infer_instance

instance : Std.Total (GroupedByTime time member) := ⟨fun a b => by
  unfold GroupedByTime
  omega⟩

instance : IsTrans ρ (GroupedByTime time member) := ⟨fun a b c hab hbc => by
  unfold GroupedByTime at hab hbc ⊢
  omega⟩

/-- `DISTINCT ON (member) ... ORDER BY member, time DESC, id DESC`. -/
def latestOfEach (rows : List ρ) : List ρ :=
  distinctOn member (rows.insertionSort (Grouped time id member))

variable {time id member}

/-- The newest row of each group is the row written last in that group. -/
theorem filter_latestOfEach {rows : List ρ} {k : Nat}
    (h : (rows.filter fun row => member row = k).Pairwise (Older time id)) :
    (latestOfEach time id member rows).filter (fun row => member row = k) =
      (rows.filter fun row => member row = k).getLast?.toList := by
  unfold latestOfEach
  rw [filter_distinctOn]
  congr 1
  refine head?_of_perm h ((List.perm_insertionSort _ rows).filter _) ?_
  have hSorted := (List.pairwise_insertionSort (Grouped time id member) rows).filter
    fun row => decide (member row = k)
  refine hSorted.imp_of_mem fun {a b} ha hb hab => ?_
  have hA : member a = k := by simpa using (List.mem_filter.mp ha).2
  have hB : member b = k := by simpa using (List.mem_filter.mp hb).2
  rcases hab with hLt | ⟨_, hNewer⟩
  · omega
  · exact hNewer

/-- A sum over all rows, group by group. -/
theorem sum_by_member {rows : List ρ} {n : Nat} (h : ∀ row ∈ rows, member row < n) (f : ρ → ℤ) :
    (rows.map f).sum =
      ∑ k ∈ Finset.range n, ((rows.filter fun row => member row = k).map f).sum := by
  induction rows with
  | nil => simp
  | cons row rest ih =>
      have hStep (k : Nat) : (((row :: rest).filter fun row => member row = k).map f).sum =
          (if member row = k then f row else 0) +
            ((rest.filter fun row => member row = k).map f).sum := by
        by_cases hRow : member row = k <;> simp [hRow]
      have hMember : member row ∈ Finset.range n := Finset.mem_range.mpr (h row (by simp))
      rw [List.map_cons, List.sum_cons, ih fun other hOther => h other (by simp [hOther]),
        Finset.sum_congr rfl fun k _ => hStep k, Finset.sum_add_distrib,
        Finset.sum_ite_eq (Finset.range n) (member row), if_pos hMember]

end Latest
