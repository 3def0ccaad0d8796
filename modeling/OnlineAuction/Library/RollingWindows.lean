import Mathlib.Algebra.GroupWithZero.Nat
import Mathlib.Algebra.Order.BigOperators.Group.List
import Mathlib.Algebra.Order.Group.Nat
import Mathlib.Algebra.Order.Group.Unbundled.Basic

/-! What falls into a window of fixed width that may lie anywhere. Entries come
in the order of their times; a bound on every window need only be checked at
the window that ends with the newest entry. -/

namespace RollingWindows

structure Entry (τ : Type) where
  time : τ
  weight : Nat
  deriving DecidableEq

variable {τ : Type}

def total (entries : List (Entry τ)) : Nat := (entries.map Entry.weight).sum

@[simp] theorem total_nil : total ([] : List (Entry τ)) = 0 := rfl

@[simp] theorem total_append (entries more : List (Entry τ)) :
    total (entries ++ more) = total entries + total more := by
  simp [total]

@[simp] theorem total_singleton (entry : Entry τ) : total [entry] = entry.weight := by
  simp [total]

theorem total_filter_le (p : Entry τ → Bool) (entries : List (Entry τ)) :
    total (entries.filter p) ≤ total entries :=
  (List.filter_sublist.map Entry.weight).sum_le_sum fun _ _ => Nat.zero_le _

/-- Fewer entries weigh no more. -/
theorem total_filter_mono {p q : Entry τ → Bool} {entries : List (Entry τ)}
    (h : ∀ entry ∈ entries, p entry = true → q entry = true) :
    total (entries.filter p) ≤ total (entries.filter q) := by
  induction entries with
  | nil => exact le_rfl
  | cons entry rest ih =>
      have hRest := ih fun other hOther => h other (List.mem_cons_of_mem _ hOther)
      have hEntry := h entry (List.mem_cons_self ..)
      unfold total at hRest ⊢
      simp only [List.filter_cons]
      split_ifs with hp hq hq
      · simpa using hRest
      · exact absurd (hEntry hp) hq
      · exact hRest.trans (by simp)
      · exact hRest

theorem total_filter_none {p : Entry τ → Bool} {entries : List (Entry τ)}
    (h : ∀ entry ∈ entries, ¬p entry = true) : total (entries.filter p) = 0 := by
  rw [List.filter_eq_nil_iff.mpr h, total_nil]

variable [AddCommGroup τ] [LinearOrder τ] (width : τ) (limit : Nat)

/-- The weight in the closed window that begins at `start`. -/
def load (entries : List (Entry τ)) (start : τ) : Nat :=
  total (entries.filter fun entry => start ≤ entry.time ∧ entry.time ≤ start + width)

def Bounded (entries : List (Entry τ)) : Prop := ∀ start, load width entries start ≤ limit

/-- The weight in the window that ends at `t`, of entries none of which is later. -/
def recent (entries : List (Entry τ)) (t : τ) : Nat :=
  total (entries.filter fun entry => t - width ≤ entry.time)

variable {width limit} {entries : List (Entry τ)} {new : Entry τ}

/-- A new entry weighs on the windows that hold its time. -/
theorem load_snoc (start : τ) : load width (entries ++ [new]) start = load width entries start +
    if start ≤ new.time ∧ new.time ≤ start + width then new.weight else 0 := by
  unfold load
  rw [List.filter_append, total_append]
  congr 1
  split_ifs with h <;> simp [h]

def units (times : List τ) : List (Entry τ) := times.map fun t => ⟨t, 1⟩

variable (width) {times : List τ} {clock now : τ}

/-- The times in the window that ends at `now`, of which none is later. -/
def logged (times : List τ) (now : τ) : List τ := times.filter fun t => now - width ≤ t

/-- Entries of weight one load a window by their number. -/
theorem load_units (start : τ) : load width (units times) start =
    times.countP fun t => start ≤ t ∧ t ≤ start + width := by
  induction times with
  | nil => rfl
  | cons t rest ih =>
      unfold load units at ih ⊢
      rw [List.map_cons, List.filter_cons, List.countP_cons]
      split_ifs with hIn
      · rw [← ih, Nat.add_comm]
        rfl
      · exact ih

/-- For entries of weight one the recent weight is the length of the log. -/
theorem recent_units : recent width (units times) now = (logged width times now).length := by
  induction times with
  | nil => rfl
  | cons t rest ih =>
      unfold recent units logged at ih ⊢
      rw [List.map_cons, List.filter_cons, List.filter_cons]
      split_ifs with hIn
      · rw [List.length_cons, ← ih, Nat.add_comm]
        rfl
      · exact ih

variable {width}

variable [IsOrderedAddMonoid τ]

/-- One entry more, which is the newest, keeps every window within the limit
exactly if the window that ends with it is. -/
theorem bounded_snoc (hWidth : 0 ≤ width) (hNewest : ∀ entry ∈ entries, entry.time ≤ new.time) :
    Bounded width limit (entries ++ [new]) ↔
      Bounded width limit entries ∧ recent width entries new.time + new.weight ≤ limit := by
  have hEnd : new.time - width + width = new.time := sub_add_cancel _ _
  constructor
  · intro h
    refine ⟨fun start => ?_, ?_⟩
    · have hLoad := h start
      rw [load_snoc] at hLoad
      omega
    · have hLoad := h (new.time - width)
      rw [load_snoc, if_pos ⟨sub_le_self _ hWidth, hEnd.ge⟩] at hLoad
      apply le_trans _ hLoad
      apply Nat.add_le_add_right
      apply total_filter_mono
      intro entry hEntry hRecent
      simp only [decide_eq_true_eq] at hRecent ⊢
      exact ⟨hRecent, (hNewest entry hEntry).trans hEnd.ge⟩
  · rintro ⟨hBounded, hRecent⟩ start
    rw [load_snoc]
    split_ifs with hIn
    · apply le_trans _ hRecent
      apply Nat.add_le_add_right
      apply total_filter_mono
      intro entry hEntry hLoaded
      simp only [decide_eq_true_eq] at hLoaded ⊢
      exact (sub_le_iff_le_add.mpr hIn.2).trans hLoaded.1
    · exact hBounded start

/-- What is left of a log in order when its front is cleared: the times in the window
that ends now. -/
theorem dropWhile_eq_logged (hOrder : times.Pairwise (· ≤ ·)) :
    times.dropWhile (fun t => width < now - t) = logged width times now := by
  induction times with
  | nil => rfl
  | cons t rest ih =>
      have hRest := List.pairwise_cons.mp hOrder
      unfold logged at ih ⊢
      rw [List.dropWhile_cons, List.filter_cons]
      by_cases hOld : width < now - t
      · have hNot : ¬now - width ≤ t := fun h => (sub_le_comm.mp h).not_gt hOld
        rw [if_pos (decide_eq_true hOld), if_neg (by simpa using hNot)]
        exact ih hRest.2
      · have hIn : now - width ≤ t := sub_le_comm.mp (not_lt.mp hOld)
        rw [if_neg (by simpa using hOld), if_pos (decide_eq_true hIn), eq_comm]
        apply congrArg
        rw [List.filter_eq_self]
        intro other hOther
        exact decide_eq_true (hIn.trans (hRest.1 other hOther))

/-- The clock has moved on. -/
theorem logged_logged (hClock : clock ≤ now) :
    logged width (logged width times clock) now = logged width times now := by
  unfold logged
  rw [List.filter_filter]
  apply List.filter_congr
  intro t _
  by_cases hIn : now - width ≤ t
  · simp [hIn, (sub_le_sub_right hClock width).trans hIn]
  · simp [hIn]

/-- The log at a time that was just entered ends in that time. -/
theorem logged_snoc (hWidth : 0 ≤ width) :
    logged width (times ++ [now]) now = logged width times now ++ [now] := by
  simp [logged, List.filter_append, hWidth]

/-- The log holds one time for each entry of the window that ends now. -/
theorem length_logged (hPast : ∀ t ∈ times, t ≤ now) : (logged width times now).length =
    times.countP fun t => now - width ≤ t ∧ t ≤ now := by
  unfold logged
  rw [← List.countP_eq_length_filter]
  apply List.countP_congr
  intro t hTime
  simp [hPast t hTime]

/-- A log is a window. -/
theorem Bounded.logged_le (h : Bounded width limit (units times)) (hPast : ∀ t ∈ times, t ≤ now) :
    (logged width times now).length ≤ limit := by
  have hLoad := h (now - width)
  rw [load_units, sub_add_cancel] at hLoad
  exact (length_logged hPast).trans_le hLoad

/-- One time more keeps every window within the limit exactly if the log is
below it. -/
theorem bounded_units_snoc (hWidth : 0 ≤ width) (hPast : ∀ t ∈ times, t ≤ now) :
    Bounded width limit (units (times ++ [now])) ↔
      Bounded width limit (units times) ∧ (logged width times now).length < limit := by
  have hSplit : units (times ++ [now]) = units times ++ [⟨now, 1⟩] := List.map_append
  have hNewest : ∀ entry ∈ units times, entry.time ≤ now := by
    intro entry hEntry
    obtain ⟨t, hTime, rfl⟩ := List.mem_map.mp hEntry
    exact hPast t hTime
  rw [hSplit, bounded_snoc hWidth hNewest, recent_units]
  rfl

end RollingWindows
