import ClosedSql.Column.Reading
import Mathlib.Algebra.Order.Field.Rat
import Mathlib.Tactic.NormNum
import Mathlib.Tactic.Positivity
import Mathlib.Tactic.Ring

/-!
# Numbers as they are sent

A server sends a number of any length. It is read as a decimal, which has at most twenty-eight
places and ninety-six bits. A number that some decimal stands for is read as that number, and any
other one is rounded: this is the one place where a cell may lose digits.
-/

namespace ClosedSql

open Number

namespace Number

/-! ## Rounding what needs no rounding -/

/-- A whole number of denominators is its own rounding. -/
theorem roundHalfUp_mul {den : Nat} (hden : 0 < den) (n : Nat) : roundHalfUp (n * den) den = n := by
  have hsum : 2 * (n * den) + den = den + n * (2 * den) := by ring
  have hbelow : den / (2 * den) = 0 := Nat.div_eq_of_lt (by omega)
  unfold roundHalfUp
  rw [hsum, Nat.add_mul_div_right _ _ (by omega), hbelow, Nat.zero_add]

theorem roundHalfEven_mul {den : Nat} (hden : 0 < den) (n : Nat) :
    roundHalfEven (n * den) den = n := by
  have hne : den ≠ 0 := by omega
  unfold roundHalfEven
  simp [hne, Nat.mul_div_cancel n hden]

theorem tenTo_add (a b : Nat) : tenTo (a + b) = tenTo a * tenTo b :=
  Nat.pow_add 10 a b

theorem cast_tenTo (n : Nat) : (tenTo n : ℚ) = 10 ^ n :=
  Nat.cast_pow 10 n

namespace Decimal

/-- The number that a decimal stands for. -/
def value (d : Decimal) : ℚ :=
  d.signedMantissa / 10 ^ d.scale

/-- Two decimals are the same number if they stand for the same rational one. -/
theorem sameNumber_iff {a b : Decimal} : a.sameNumber b = true ↔ a.value = b.value := by
  unfold sameNumber value
  rw [beq_iff_eq, div_eq_div_iff (by positivity) (by positivity), ← cast_tenTo, ← cast_tenTo]
  norm_cast

/-- The size of a decimal does not depend on its sign. -/
theorem abs_value (d : Decimal) : |d.value| = d.mantissa / 10 ^ d.scale := by
  have hsize : (|(d.signedMantissa : ℚ)|) = d.mantissa := by
    unfold signedMantissa Binary64.signed
    split <;> simp
  unfold value
  rw [abs_div, hsize, abs_of_pos (by positivity)]

variable {negative : Bool} {num den : Nat} {e : Decimal}

/-- A fraction that a decimal stands for is a whole number of the last of as many places. -/
theorem mul_tenTo_of_scale_le (hexact : num * tenTo e.scale = e.mantissa * den) {scale : Nat}
    (hscale : e.scale ≤ scale) :
    num * tenTo scale = e.mantissa * tenTo (scale - e.scale) * den := by
  calc num * tenTo scale = num * tenTo e.scale * tenTo (scale - e.scale) := by
        rw [Nat.mul_assoc, ← tenTo_add, Nat.add_sub_cancel' hscale]
    _ = e.mantissa * tenTo (scale - e.scale) * den := by rw [hexact, Nat.mul_right_comm]

/-- A decimal made of the digits of another one and some zeros is the same number, but for its
sign. -/
theorem mantissa_of_make? {scale : Nat} {d : Decimal} (hscale : e.scale ≤ scale)
    (h : make? negative (e.mantissa * tenTo (scale - e.scale)) scale = some d) :
    d.negative = negative ∧ d.mantissa * tenTo e.scale = e.mantissa * tenTo d.scale := by
  unfold make? at h
  split at h
  · obtain rfl := Option.some.inj h
    exact ⟨rfl, by rw [Nat.mul_assoc, ← tenTo_add, Nat.sub_add_cancel hscale]⟩
  · cases h

/-- The mantissa of a decimal fits with either sign. -/
theorem make?_mantissa (negative : Bool) (e : Decimal) :
    make? negative e.mantissa e.scale = some { e with negative := negative } :=
  dif_pos ⟨e.mantissa_lt, e.scale_le⟩

/-- There is room for the digits of a decimal, at the latest where its own places are reached. -/
theorem shortened?_of_exact (hden : 0 < den) (hexact : num * tenTo e.scale = e.mantissa * den)
    {scale : Nat} (hscale : e.scale ≤ scale) :
    ∃ d, shortened? negative num den scale = some d ∧ d.negative = negative ∧
      d.mantissa * tenTo e.scale = e.mantissa * tenTo d.scale := by
  induction scale with
  | zero =>
      have hzero : e.scale = 0 := Nat.le_zero.1 hscale
      have hnum : num = e.mantissa * den := by simpa [hzero, tenTo] using hexact
      refine ⟨{ e with negative := negative }, ?_, rfl, rfl⟩
      unfold shortened?
      rw [hnum, roundHalfEven_mul hden, ← hzero]
      exact make?_mantissa negative e
  | succ scale ih =>
      unfold shortened?
      rw [mul_tenTo_of_scale_le hexact hscale, roundHalfEven_mul hden]
      cases hmade : make? negative (e.mantissa * tenTo (scale + 1 - e.scale)) (scale + 1) with
      | some d => exact ⟨d, rfl, mantissa_of_make? hscale hmade⟩
      | none =>
          -- With its own places the decimal itself would have been found.
          have hne : e.scale ≠ scale + 1 := by
            intro hown
            have hone : tenTo 0 = 1 := rfl
            rw [← hown, Nat.sub_self, hone, Nat.mul_one, make?_mantissa] at hmade
            cases hmade
          exact ih (by omega)

end Decimal

end Number

namespace Numeric

/-! ## The number that groups spell -/

/-- Groups of which each counts one power of ten thousand less than the one before. -/
def sumFrom (weight : Int) : List Nat → ℚ
  | [] => 0
  | group :: rest => group * 10000 ^ weight + sumFrom (weight - 1) rest

/-- The number that is sent. -/
def value (n : Numeric) : ℚ :=
  if n.negative then -sumFrom n.weight n.groups else sumFrom n.weight n.groups

/-- Groups taken onto a total are worth what the total and the groups are worth. -/
theorem foldl_mul_zpow (groups : List Nat) (weight : Int) (total : Nat) :
    ((groups.foldl (fun total group => 10000 * total + group) total : Nat) : ℚ) *
        10000 ^ (weight + 1 - groups.length) =
      total * 10000 ^ (weight + 1) + sumFrom weight groups := by
  induction groups generalizing weight total with
  | nil => simp [sumFrom]
  | cons group rest ih =>
      have hlast : weight + 1 - ((group :: rest).length : Int) = weight - 1 + 1 - rest.length := by
        rw [List.length_cons]
        omega
      have hstep : (10000 : ℚ) ^ (weight + 1) = 10000 * 10000 ^ weight := by
        rw [zpow_add_one₀ (by norm_num), mul_comm]
      rw [List.foldl_cons, hlast, ih, sumFrom, hstep, Int.sub_add_cancel]
      push_cast
      ring

theorem cast_tenTo_four_mul (n : Nat) : (tenTo (4 * n) : ℚ) = 10000 ^ n := by
  rw [cast_tenTo, pow_mul]
  norm_num

variable {n : Numeric}

theorem denominator_pos : 0 < n.denominator :=
  tenTo_pos _

theorem denominator_ne_zero : (n.denominator : ℚ) ≠ 0 :=
  Nat.cast_ne_zero.2 (Nat.pos_iff_ne_zero.1 denominator_pos)

/-- A power of ten thousand as a quotient of two, one of which is one. -/
theorem pow_toNat (exponent : Int) :
    (10000 : ℚ) ^ exponent.toNat = 10000 ^ exponent * 10000 ^ (-exponent).toNat := by
  obtain ⟨k, rfl | rfl⟩ := exponent.eq_nat_or_neg
  · simp
  · simp [zpow_neg]

/-- The fraction of a number is what its groups are worth. -/
theorem cast_numerator (n : Numeric) :
    (n.numerator : ℚ) = sumFrom n.weight n.groups * n.denominator := by
  have hsize : (n.size : ℚ) * 10000 ^ n.exponent = sumFrom n.weight n.groups := by
    have hfold := foldl_mul_zpow n.groups n.weight 0
    rw [Nat.cast_zero, zero_mul, zero_add] at hfold
    exact hfold
  unfold numerator denominator
  rw [Nat.cast_mul, cast_tenTo_four_mul, cast_tenTo_four_mul, pow_toNat, ← mul_assoc, hsize]

/-- What groups are worth, as a fraction. -/
theorem sumFrom_eq_div (n : Numeric) :
    sumFrom n.weight n.groups = (n.numerator : ℚ) / n.denominator := by
  rw [cast_numerator, mul_div_cancel_right₀ _ denominator_ne_zero]

/-- The size of a number is its fraction. -/
theorem abs_value (n : Numeric) : |n.value| = n.numerator / n.denominator := by
  have hnonneg : (0 : ℚ) ≤ n.numerator / n.denominator := by positivity
  unfold value
  rw [sumFrom_eq_div]
  split
  · rw [abs_neg, abs_of_nonneg hnonneg]
  · exact abs_of_nonneg hnonneg

/-- A number and a decimal that stands for it are the same fraction. -/
theorem mul_tenTo_of_value_eq {e : Decimal} (h : e.value = n.value) :
    n.numerator * tenTo e.scale = e.mantissa * n.denominator := by
  have habs := congrArg abs h
  rw [e.abs_value, n.abs_value, div_eq_div_iff (by positivity) denominator_ne_zero,
    ← cast_tenTo] at habs
  exact_mod_cast habs.symm

/-- A decimal with the sign of a number that is the same fraction stands for the number. -/
theorem value_eq_of_mul_tenTo {d : Decimal} (hsign : d.negative = n.negative)
    (hsize : n.numerator * tenTo d.scale = d.mantissa * n.denominator) : d.value = n.value := by
  have hfraction : (n.numerator : ℚ) / n.denominator = d.mantissa / 10 ^ d.scale := by
    rw [div_eq_div_iff denominator_ne_zero (by positivity), ← cast_tenTo]
    exact_mod_cast hsize
  unfold Decimal.value Decimal.signedMantissa value Binary64.signed
  rw [hsign, sumFrom_eq_div, hfraction]
  split
  · rw [Int.cast_neg, Int.cast_natCast, neg_div]
  · rw [Int.cast_natCast]

/-! ## Reading it as a decimal -/

/-- What is read of a number has the digits of any decimal that is the same fraction, but for the
zeros at the end. -/
theorem decimal?_of_mul_tenTo {e : Decimal}
    (hexact : n.numerator * tenTo e.scale = e.mantissa * n.denominator)
    (hscale : e.scale ≤ n.places) :
    ∃ d, n.decimal? = some d ∧ d.negative = n.negative ∧
      d.mantissa * tenTo e.scale = e.mantissa * tenTo d.scale := by
  have hroom : e.scale ≤ min n.places maxScale := le_min hscale e.scale_le
  unfold decimal?
  simp only [Decimal.mul_tenTo_of_scale_le hexact hroom, roundHalfUp_mul denominator_pos]
  -- Rounding did nothing; all that is open is whether there is room for the zeros as well.
  cases hmade : Decimal.make? n.negative (e.mantissa * tenTo (min n.places maxScale - e.scale))
      (min n.places maxScale) with
  | some d => exact ⟨d, rfl, Decimal.mantissa_of_make? hroom hmade⟩
  | none => exact Decimal.shortened?_of_exact denominator_pos hexact hroom

/-- A number that a decimal with no more places stands for is read, and as that number. -/
theorem decimal?_of_exact {e : Decimal} (hvalue : e.value = n.value) (hscale : e.scale ≤ n.places) :
    ∃ d, n.decimal? = some d ∧ d.value = n.value := by
  have hexact := mul_tenTo_of_value_eq hvalue
  obtain ⟨d, hread, hsign, hsize⟩ := decimal?_of_mul_tenTo hexact hscale
  refine ⟨d, hread, value_eq_of_mul_tenTo hsign ?_⟩
  apply Nat.eq_of_mul_eq_mul_right (tenTo_pos e.scale)
  calc n.numerator * tenTo d.scale * tenTo e.scale
      = n.numerator * tenTo e.scale * tenTo d.scale := Nat.mul_right_comm _ _ _
    _ = e.mantissa * tenTo d.scale * n.denominator := by rw [hexact, Nat.mul_right_comm]
    _ = d.mantissa * n.denominator * tenTo e.scale := by rw [← hsize, Nat.mul_right_comm]

/-- A decimal keeps a number: it is that number, if any decimal with no more places than the number
has is. -/
def KeptBy (n : Numeric) (d : Decimal) : Prop :=
  (∃ e : Decimal, e.value = n.value ∧ e.scale ≤ n.places) → d.value = n.value

/-- What is read of a number is a decimal that keeps it. -/
theorem keptBy_of_decimal? {d : Decimal} (h : n.decimal? = some d) : n.KeptBy d := by
  rintro ⟨e, hvalue, hscale⟩
  obtain ⟨found, hfound, hsame⟩ := decimal?_of_exact hvalue hscale
  obtain rfl := Option.some.inj (h.symm.trans hfound)
  exact hsame

theorem KeptBy.congr {d e : Decimal} (h : n.KeptBy d) (hsame : d.value = e.value) : n.KeptBy e :=
  fun hexact => hsame.symm.trans (h hexact)

end Numeric

end ClosedSql
