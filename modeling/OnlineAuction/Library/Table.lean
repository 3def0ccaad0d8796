import Mathlib.Algebra.BigOperators.Group.Finset.Basic
import Mathlib.Algebra.BigOperators.Intervals
import Mathlib.Algebra.Order.BigOperators.Group.Finset
import Mathlib.Algebra.Order.Ring.Int
import Mathlib.Data.Int.Order.Basic
import Mathlib.Tactic.Ring

/-! Tables keyed by a serial number. Numbers are handed out in increasing
order and never again, also after a row is deleted. -/

/-- The field `unused` keeps the serial ahead of every stored row. -/
@[ext]
structure Table (ρ : Type) where
  get : Nat → Option ρ
  serial : Nat
  unused : ∀ id, serial ≤ id → get id = none

namespace Table

variable {ρ : Type}

def empty : Table ρ := ⟨fun _ => none, 0, fun _ _ => rfl⟩

def add (t : Table ρ) (row : Nat → ρ) : Table ρ where
  get id := if id = t.serial then some (row id) else t.get id
  serial := t.serial + 1
  unused id h := by
    have hNe : id ≠ t.serial := by omega
    simpa [hNe] using t.unused id (by omega)

def mapRows (t : Table ρ) (f : Nat → ρ → ρ) : Table ρ where
  get id := (t.get id).map (f id)
  serial := t.serial
  unused id h := by simp [t.unused id h]

def modify (t : Table ρ) (key : Nat) (f : ρ → ρ) : Table ρ :=
  t.mapRows fun id row => if id = key then f row else row

def erase (t : Table ρ) (key : Nat) : Table ρ where
  get id := if id = key then none else t.get id
  serial := t.serial
  unused id h := by
    split_ifs
    · rfl
    · exact t.unused id h

def total (t : Table ρ) (f : ρ → ℤ) : ℤ :=
  ∑ id ∈ Finset.range t.serial, ((t.get id).map f).getD 0

@[simp] theorem get_empty (id : Nat) : (empty : Table ρ).get id = none := rfl

/-- A new row stands at the next number and changes no other. -/
@[simp] theorem get_add (t : Table ρ) (row : Nat → ρ) (id : Nat) :
    (t.add row).get id = if id = t.serial then some (row id) else t.get id := rfl

/-- A row that is there after an insert is the new one or was there before. -/
theorem of_get_add {t : Table ρ} {row : Nat → ρ} {id : Nat} {found : ρ}
    (h : (t.add row).get id = some found) :
    id = t.serial ∧ found = row id ∨ t.get id = some found := by
  rw [get_add] at h
  split_ifs at h with hId
  · exact .inl ⟨hId, (Option.some.inj h).symm⟩
  · exact .inr h

@[simp] theorem serial_add (t : Table ρ) (row : Nat → ρ) : (t.add row).serial = t.serial + 1 := rfl

/-- A change of all rows changes each by its own number. -/
@[simp] theorem get_mapRows (t : Table ρ) (f : Nat → ρ → ρ) (id : Nat) :
    (t.mapRows f).get id = (t.get id).map (f id) := rfl

@[simp] theorem get_modify_self (t : Table ρ) (key : Nat) (f : ρ → ρ) :
    (t.modify key f).get key = (t.get key).map f := by
  simp [modify]

theorem get_modify_other (t : Table ρ) {key id : Nat} (f : ρ → ρ) (h : id ≠ key) :
    (t.modify key f).get id = t.get id := by
  simp [modify, h]

@[simp] theorem serial_modify (t : Table ρ) (key : Nat) (f : ρ → ρ) :
    (t.modify key f).serial = t.serial := rfl

@[simp] theorem get_erase (t : Table ρ) (key id : Nat) :
    (t.erase key).get id = if id = key then none else t.get id := rfl

/-- Every row was given a number that the table has reached. -/
theorem lt_serial {t : Table ρ} {id : Nat} {row : ρ} (h : t.get id = some row) : id < t.serial := by
  by_contra hNot
  rw [t.unused id (by omega)] at h
  cases h

/-- The rows in the order of their numbers, searched for the only one that meets a
condition. -/
theorem find?_of_sole {t : Table ρ} {key : Nat} {row : ρ} {p : ρ → Bool}
    (h : t.get key = some row) (hRow : p row = true)
    (hSole : ∀ id other, t.get id = some other → p other = true → id = key) :
    ((List.range t.serial).filterMap t.get).find? p = some row := by
  have hMem : row ∈ (List.range t.serial).filterMap t.get :=
    List.mem_filterMap.mpr ⟨key, List.mem_range.mpr (lt_serial h), h⟩
  obtain ⟨found, hFound⟩ := Option.isSome_iff_exists.mp (List.find?_isSome.mpr ⟨row, hMem, hRow⟩)
  obtain ⟨id, _, hGet⟩ := List.mem_filterMap.mp (List.mem_of_find?_eq_some hFound)
  have hKey := hSole id found hGet (List.find?_some hFound)
  rw [hKey, h] at hGet
  cases hGet
  exact hFound

theorem get_add_old {t : Table ρ} {id : Nat} {row : ρ} (h : t.get id = some row)
    (new : Nat → ρ) : (t.add new).get id = some row := by
  have hLt := lt_serial h
  have hNe : id ≠ t.serial := by omega
  simpa [hNe] using h

/-- A new row adds its own contribution. -/
theorem total_add (t : Table ρ) (row : Nat → ρ) (f : ρ → ℤ) :
    (t.add row).total f = t.total f + f (row t.serial) := by
  simp only [total, serial_add, Finset.sum_range_succ, get_add, if_true, Option.map_some,
    Option.getD_some, add_left_inj]
  apply Finset.sum_congr rfl
  intro id hId
  rw [if_neg (by have := Finset.mem_range.mp hId; omega)]

/-- A value that no row has below zero is not below zero where there is no row. -/
theorem value_nonneg (t : Table ρ) {f : ρ → ℤ} (hf : ∀ row, 0 ≤ f row) (id : Nat) :
    0 ≤ ((t.get id).map f).getD 0 := by
  cases t.get id with
  | none => exact le_rfl
  | some row => exact hf row

/-- No row contributes more than the total, when none contributes less than nothing. -/
theorem le_total {t : Table ρ} {key : Nat} {row : ρ} (h : t.get key = some row) {f : ρ → ℤ}
    (hf : ∀ row, 0 ≤ f row) : f row ≤ t.total f := by
  have hLe := Finset.single_le_sum (fun id _ => t.value_nonneg hf id)
    (Finset.mem_range.mpr (lt_serial h))
  rwa [h, Option.map_some, Option.getD_some] at hLe

/-- Updating one row changes the total by the change of its contribution. -/
theorem total_modify {t : Table ρ} {key : Nat} {row : ρ} (h : t.get key = some row) (g : ρ → ρ)
    (f : ρ → ℤ) : (t.modify key g).total f = t.total f + (f (g row) - f row) := by
  have hKey : key ∈ Finset.range t.serial := Finset.mem_range.mpr (lt_serial h)
  unfold total
  rw [serial_modify, ← Finset.add_sum_erase _ _ hKey, ← Finset.add_sum_erase _ _ hKey]
  have hRest : ∑ id ∈ (Finset.range t.serial).erase key,
      (((t.modify key g).get id).map f).getD 0 =
      ∑ id ∈ (Finset.range t.serial).erase key, ((t.get id).map f).getD 0 := by
    apply Finset.sum_congr rfl
    intro id hId
    rw [get_modify_other t g (Finset.ne_of_mem_erase hId)]
  rw [hRest]
  simp only [get_modify_self, h, Option.map_some, Option.getD_some]
  ring

/-- An update of an existing row by a function of its old value stores the
value of that function. -/
theorem modify_const {t : Table ρ} {key : Nat} {row : ρ} (h : t.get key = some row) (f : ρ → ρ) :
    t.modify key f = t.modify key fun _ => f row := by
  ext1
  · funext id
    by_cases hId : id = key
    · subst hId
      simp [h]
    · rw [get_modify_other _ _ hId, get_modify_other _ _ hId]
  · rfl

end Table
