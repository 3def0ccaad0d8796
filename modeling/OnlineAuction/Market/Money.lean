import OnlineAuction.Library.DecimalRounding

/-! Money columns and the arithmetic of `app/utils/money.py`, with the
commission of `app/services/auctions.py`. -/

namespace OnlineAuction

open DecimalRounding

/-- The value of a `Numeric(12, 2)` column, or of a payload field validated to
two decimal places, in hundredths. -/
abbrev Money := ℤ

/-- `Decimal("1000.00")`, the default of `User.balance`. -/
def openingBalance : Money := 100000

/-- `Decimal("10000000.00")`. -/
def maxUserBalance : Money := 1000000000

/-- `Numeric(12, 2)` holds values below `10 ^ 10` in absolute value. -/
def numericLimit : Money := 1000000000000

def Money.toDecimal (m : Money) : Decimal := ⟨m, 2⟩

/-- `value.quantize(Decimal("0.01"), rounding=ROUND_HALF_UP)`. -/
def quantizeMoney (value : Decimal) : Money := value.quantize 2

/-- Money that is already in cents is not rounded. -/
@[simp] theorem quantizeMoney_toDecimal (m : Money) : quantizeMoney m.toDecimal = m :=
  Decimal.quantize_same m 2

/-- A sum on the grid stays on it: rounding changes nothing. Balances and
prices have at most twelve digits, far below the context's precision. -/
theorem quantizeMoney_add (a b : Money) : quantizeMoney (a.toDecimal.add b.toDecimal) = a + b := by
  simp [quantizeMoney, Money.toDecimal, Decimal.add]

@[simp] theorem quantizeMoney_abs (m : Money) : quantizeMoney m.toDecimal.abs = |m| :=
  Decimal.quantize_same |m| 2

/-- `f"{value:.2f}"` of a value on the grid. -/
def Money.format (m : Money) : String :=
  let cents := m.natAbs % 100
  (if m < 0 then "-" else "") ++ toString (m.natAbs / 100) ++ "." ++
    (if cents < 10 then "0" else "") ++ toString cents

/-- `PLATFORM_COMMISSION_PERCENT` as `_load_commission_percent` admits it: a
decimal in `[0, 100]`, normalised to the context's 28 digits. `text` is how
the decimal prints. -/
structure CommissionPercent where
  units : Nat
  places : Nat
  text : String
  le_hundred : units ≤ 100 * 10 ^ places

def CommissionPercent.toDecimal (p : CommissionPercent) : Decimal := ⟨p.units, p.places⟩

/-- The default of `PLATFORM_COMMISSION_PERCENT`. -/
def defaultCommission : CommissionPercent := ⟨7, 0, "7", by norm_num⟩

/-- Precision of Python's default decimal context. -/
def contextPrecision : Nat := 28

/-- `quantize_money(gross_price * PLATFORM_COMMISSION_PERCENT / Decimal(100))`. -/
def sellerCommission (percent : CommissionPercent) (gross : Money) : Money :=
  quantizeMoney ((Decimal.mul contextPrecision gross.toDecimal percent.toDecimal).shift 2)

/-- The commission withheld from a sale never exceeds the price. The product
may be rounded to the context's precision first, which keeps the bound. -/
theorem sellerCommission_bounds (percent : CommissionPercent) {gross : Money}
    (hPos : 0 ≤ gross) (hLimit : gross < numericLimit) :
    0 ≤ sellerCommission percent gross ∧ sellerCommission percent gross ≤ gross := by
  obtain ⟨n, rfl⟩ := Int.eq_ofNat_of_zero_le hPos
  have hn : n < 10 ^ contextPrecision := by
    have hSmall : (n : ℤ) < 1000000000000 := hLimit
    norm_num [contextPrecision]
    omega
  have hProduct : n * percent.units ≤ n * 10 ^ (2 + percent.places) := by
    have h := Nat.mul_le_mul_left n percent.le_hundred
    rwa [show 100 * 10 ^ percent.places = 10 ^ (2 + percent.places) by rw [pow_add]; norm_num] at h
  have hKept := keepDigits_le hProduct hn
  have hUnits : (Money.toDecimal (n : ℤ)).units * percent.toDecimal.units =
      ((n * percent.units : Nat) : ℤ) := by
    simp [Money.toDecimal, CommissionPercent.toDecimal]
  simp only [sellerCommission, quantizeMoney, Decimal.quantize, Decimal.shift, Decimal.mul, hUnits,
    Int.natAbs_natCast]
  rcases Nat.eq_zero_or_pos (n * percent.units) with hZero | hNonzero
  · simp [hZero]
  · have hSign : Int.sign ((n * percent.units : Nat) : ℤ) = 1 :=
      Int.sign_eq_one_of_pos (by exact_mod_cast hNonzero)
    rw [hSign, one_mul, Int.natAbs_natCast]
    set kept := keepDigits contextPrecision (n * percent.units)
    have hBound : divHalfUp (kept * 10 ^ 2)
        (10 ^ ((Money.toDecimal (n : ℤ)).places + percent.toDecimal.places + 2)) ≤ n := by
      apply divHalfUp_le (by positivity)
      simp only [Money.toDecimal, CommissionPercent.toDecimal]
      calc
        kept * 10 ^ 2 ≤ n * 10 ^ (2 + percent.places) * 10 ^ 2 := Nat.mul_le_mul_right _ hKept
        _ = n * 10 ^ (2 + percent.places + 2) := by ring
    rcases Nat.eq_zero_or_pos kept with hKeptZero | hKeptPos
    · simp [hKeptZero]
    · have hKeptSign : Int.sign (kept : ℤ) = 1 := Int.sign_eq_one_of_pos (by exact_mod_cast hKeptPos)
      rw [hKeptSign, one_mul]
      exact ⟨by positivity, by exact_mod_cast hBound⟩

example : sellerCommission defaultCommission 25000 = 1750 := by decide

end OnlineAuction
