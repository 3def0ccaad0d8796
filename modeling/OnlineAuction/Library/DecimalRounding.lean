import Mathlib.Algebra.Order.Ring.Int
import Mathlib.Algebra.Order.Field.Basic
import Mathlib.Data.Nat.Log
import Mathlib.Data.Rat.Cast.Order
import Mathlib.Tactic.FieldSimp
import Mathlib.Tactic.Linarith
import Mathlib.Tactic.Ring

/-! Decimal numbers as a coefficient and a number of decimal places, rounded
half up to fewer places and half to even to a context's precision. -/

namespace DecimalRounding

structure Decimal where
  units : ℤ
  places : Nat
  deriving DecidableEq, Repr

def divHalfUp (n m : Nat) : Nat := (2 * n + m) / (2 * m)

def divHalfEven (n m : Nat) : Nat :=
  if 2 * (n % m) < m then n / m
  else if m < 2 * (n % m) then n / m + 1
  else if (n / m) % 2 = 0 then n / m else n / m + 1

/-- The value on the grid of `places` decimal places, ties away from zero. -/
def Decimal.quantize (x : Decimal) (places : Nat) : ℤ :=
  x.units.sign * (divHalfUp (x.units.natAbs * 10 ^ places) (10 ^ x.places) : Nat)

/-- Round a coefficient to `precision` significant digits. -/
def keepDigits (precision n : Nat) : Nat :=
  if n < 10 ^ precision then n
  else
    let dropped := Nat.log 10 n + 1 - precision
    divHalfEven n (10 ^ dropped) * 10 ^ dropped

def Decimal.mul (precision : Nat) (x y : Decimal) : Decimal where
  units := (x.units * y.units).sign * (keepDigits precision (x.units * y.units).natAbs : Nat)
  places := x.places + y.places

/-- An exact sum, on the finer of the two grids. -/
def Decimal.add (x y : Decimal) : Decimal where
  units := x.units * 10 ^ (max x.places y.places - x.places) +
    y.units * 10 ^ (max x.places y.places - y.places)
  places := max x.places y.places

def Decimal.neg (x : Decimal) : Decimal := ⟨-x.units, x.places⟩

def Decimal.abs (x : Decimal) : Decimal := ⟨|x.units|, x.places⟩

/-- Division by a power of ten moves the point. -/
def Decimal.shift (x : Decimal) (k : Nat) : Decimal := ⟨x.units, x.places + k⟩

/-- A quotient that is at most a whole number rounds to at most that number. -/
theorem divHalfUp_le {n m q : Nat} (hm : 0 < m) (h : n ≤ q * m) : divHalfUp n m ≤ q := by
  unfold divHalfUp
  have hLt : (2 * n + m) / (2 * m) < q + 1 := by
    rw [Nat.div_lt_iff_lt_mul (by omega)]
    nlinarith
  omega

theorem divHalfUp_mul (q : Nat) {m : Nat} (hm : 0 < m) : divHalfUp (q * m) m = q := by
  unfold divHalfUp
  rw [Nat.div_eq_iff (by omega)]
  constructor
  · nlinarith
  · rw [Nat.mul_comm q m]
    have : 2 * (m * q) = q * (2 * m) := by ring
    omega

/-- Rounding half up is monotone in the numerator. -/
theorem divHalfUp_mono {n n' : Nat} (h : n ≤ n') (m : Nat) : divHalfUp n m ≤ divHalfUp n' m :=
  Nat.div_le_div_right (by omega)

/-- Whole steps pass through the rounding. -/
theorem divHalfUp_add_mul (n d : Nat) {m : Nat} (hm : 0 < m) :
    divHalfUp (n + d * m) m = divHalfUp n m + d := by
  unfold divHalfUp
  rw [show 2 * (n + d * m) + m = 2 * n + m + d * (2 * m) by ring,
    Nat.add_mul_div_right _ _ (by omega)]

/-- A common factor of the fraction does not matter. -/
theorem divHalfUp_mul_right (n m : Nat) {s : Nat} (hs : 0 < s) :
    divHalfUp (n * s) (m * s) = divHalfUp n m := by
  unfold divHalfUp
  rw [show 2 * (n * s) + m * s = (2 * n + m) * s by ring, show 2 * (m * s) = 2 * m * s by ring,
    Nat.mul_div_mul_right _ _ hs]

/-- The rounded value is half a step away at most. -/
theorem divHalfUp_near (n : Nat) {m : Nat} (hm : 0 < m) :
    |(divHalfUp n m : ℚ) - n / m| ≤ 1 / 2 := by
  have hDiv := Nat.div_add_mod (2 * n + m) (2 * m)
  have hMod := Nat.mod_lt (2 * n + m) (show 0 < 2 * m by omega)
  have hLow : 2 * m * divHalfUp n m ≤ 2 * n + m := by
    unfold divHalfUp
    omega
  have hHigh : 2 * n < 2 * m * divHalfUp n m + m := by
    unfold divHalfUp
    omega
  have hStep : (0 : ℚ) < m := by exact_mod_cast hm
  have hLow' : (2 : ℚ) * m * divHalfUp n m ≤ 2 * n + m := by exact_mod_cast hLow
  have hHigh' : (2 : ℚ) * n < 2 * m * divHalfUp n m + m := by exact_mod_cast hHigh
  rw [abs_le]
  constructor
  · rw [neg_le_sub_iff_le_add, div_le_iff₀ hStep]
    linarith
  · rw [sub_le_iff_le_add, ← sub_le_iff_le_add', le_div_iff₀ hStep]
    linarith

/-- A coefficient of few digits is kept. -/
theorem keepDigits_of_lt {precision n : Nat} (h : n < 10 ^ precision) :
    keepDigits precision n = n := if_pos h

/-- Rounding to even does not pass a multiple of the step. -/
theorem divHalfEven_le {n m q : Nat} (hm : 0 < m) (h : n ≤ q * m) : divHalfEven n m ≤ q := by
  have hDiv : n / m ≤ q := Nat.div_le_of_le_mul (by rwa [Nat.mul_comm] at h)
  have hSplit := Nat.div_add_mod n m
  have hExact : n / m = q → n % m = 0 := by
    intro hEq
    rw [hEq, Nat.mul_comm] at hSplit
    omega
  unfold divHalfEven
  split_ifs <;> omega

/-- Rounding to significant digits does not pass a bound that lies on every
grid the rounding may use. -/
theorem keepDigits_le {precision n bound zeros : Nat} (h : n ≤ bound * 10 ^ zeros)
    (hBound : bound < 10 ^ precision) : keepDigits precision n ≤ bound * 10 ^ zeros := by
  unfold keepDigits
  split_ifs with hSmall
  · exact h
  · set dropped := Nat.log 10 n + 1 - precision
    have hLog : Nat.log 10 n < precision + zeros := by
      have hNe : n ≠ 0 := by
        rintro rfl
        exact hSmall (by positivity)
      rw [Nat.log_lt_iff_lt_pow (by omega) hNe, pow_add]
      exact lt_of_le_of_lt h (Nat.mul_lt_mul_of_pos_right hBound (by positivity))
    have hDropped : dropped ≤ zeros := by omega
    obtain ⟨rest, rfl⟩ := Nat.exists_eq_add_of_le hDropped
    have hPow : bound * 10 ^ (dropped + rest) = bound * 10 ^ rest * 10 ^ dropped := by ring
    rw [hPow] at h ⊢
    exact Nat.mul_le_mul_right _ (divHalfEven_le (by positivity) h)

/-- A value already on the grid is kept. -/
@[simp] theorem Decimal.quantize_same (units : ℤ) (places : Nat) :
    (Decimal.mk units places).quantize places = units := by
  simp only [Decimal.quantize]
  rw [divHalfUp_mul _ (by positivity), Int.sign_mul_natAbs]

end DecimalRounding
