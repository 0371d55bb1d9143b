import Mathlib.Algebra.Order.Field.Power
import Mathlib.Data.Rat.Cast.Order
import Mathlib.Tactic.Positivity
import Mathlib.Tactic.Ring
import TextTemplate.Proofs.Decimal.Reading

/-! # The values of decimals

A decimal stands for a rational number. Comparing decimals compares these numbers, and the normal
form of a decimal depends on its number alone, so decimals of one value are displayed alike. -/

namespace TextTemplate.Decimal

/-! ### Values -/

/-- The number that a decimal stands for. -/
def value (d : Decimal) : ℚ := d.unscaled * 10 ^ (-d.scale)

/-- A power of ten is one among the rationals. -/
theorem cast_tenPow (exponent : Nat) : (tenPow exponent : ℚ) = 10 ^ exponent := by
  simp [tenPow]

/-- The unscaled integer at another scale is the value with the point moved. -/
theorem cast_unscaledAt {d : Decimal} {scale : Int} (enough : d.scale ≤ scale) :
    (d.unscaledAt scale : ℚ) = d.value * 10 ^ scale := by
  have exponent : ((scale - d.scale).toNat : Int) = -d.scale + scale := by omega
  rw [unscaledAt, value, Int.cast_mul, cast_tenPow, mul_assoc, ← zpow_add₀ (by norm_num),
    ← exponent, zpow_natCast]

/-- Comparing decimals compares their values. -/
theorem compare_eq_eq_iff {d d' : Decimal} : d.compare d' = .eq ↔ d.value = d'.value := by
  have positive : (10 : ℚ) ^ max d.scale d'.scale ≠ 0 := by positivity
  rw [compare, Std.compare_eq_iff_eq, ← Int.cast_inj (α := ℚ), cast_unscaledAt (le_max_left ..),
    cast_unscaledAt (le_max_right ..), mul_left_inj' positive]

/-- Decimals compare as their values do. -/
theorem compare_eq_lt_iff {d d' : Decimal} : d.compare d' = .lt ↔ d.value < d'.value := by
  have positive : 0 < (10 : ℚ) ^ max d.scale d'.scale := by positivity
  rw [compare, Int.compare_eq_lt, ← Int.cast_lt (R := ℚ), cast_unscaledAt (le_max_left ..),
    cast_unscaledAt (le_max_right ..), mul_lt_mul_iff_left₀ positive]

@[simp] theorem value_ofInt (number : Int) : (ofInt number).value = number := by
  simp [ofInt, value]

/-- A decimal is negative when its digits are. -/
theorem value_neg_iff {d : Decimal} : d.value < 0 ↔ d.unscaled < 0 := by
  have positive : 0 < (10 : ℚ) ^ (-d.scale) := by positivity
  rw [value, Rat.mul_neg_iff_of_pos_right positive, Int.cast_lt_zero]

/-- Zeros at the end of the digits are made up for by the scale. -/
theorem value_mul_tenPow (unscaled scale : Int) (count : Nat) :
    value ⟨unscaled * tenPow count, scale + count⟩ = value ⟨unscaled, scale⟩ := by
  have exponent : (count : Int) + -(scale + count) = -scale := by omega
  simp only [value]
  rw [Int.cast_mul, cast_tenPow, mul_assoc, ← zpow_natCast, ← zpow_add₀ (by norm_num), exponent]

/-- Decimals of one scale are equal when their values are. -/
theorem unscaled_eq_of_value_eq {d d' : Decimal} (scale : d.scale = d'.scale)
    (same : d.value = d'.value) : d = d' := by
  obtain ⟨unscaled, scale⟩ := d
  obtain ⟨unscaled', scale'⟩ := d'
  subst scale
  have positive : (10 : ℚ) ^ (-scale) ≠ 0 := by positivity
  rw [value, value, mul_left_inj' positive, Int.cast_inj] at same
  exact congrArg (Decimal.mk · scale) same

/-! ### Normal forms -/

/-- Taking zeros off the end of the digits leaves the value, and stops early only at a digit that is
not a zero. -/
theorem dropZeros_spec (count : Nat) (unscaled scale : Int) :
    ∃ dropped, dropped ≤ count ∧
      unscaled = (dropZeros count unscaled scale).unscaled * tenPow dropped ∧
      scale = (dropZeros count unscaled scale).scale + dropped ∧
      (dropped = count ∨ (dropZeros count unscaled scale).unscaled % 10 ≠ 0) := by
  induction count generalizing unscaled scale with
  | zero => exact ⟨0, by simp [dropZeros, tenPow]⟩
  | succ count ih =>
      rw [dropZeros]
      split
      next zero =>
        obtain ⟨dropped, few, digits, place, stopped⟩ := ih (unscaled / 10) (scale - 1)
        refine ⟨dropped + 1, by omega, ?_, by omega, stopped.imp_left (by omega)⟩
        have step : tenPow (dropped + 1) = tenPow dropped * 10 := rfl
        rw [step, ← mul_assoc, ← digits]
        omega
      next nonzero => exact ⟨0, by omega, by simp [tenPow], by simp, .inr nonzero⟩

/-- A number has fewer zeros at its end than binary digits. -/
theorem not_dvd_of_log2 {unscaled reduced : Int} {count : Nat} (nonzero : unscaled ≠ 0)
    (digits : unscaled = reduced * tenPow count) (many : count = Nat.log2 unscaled.natAbs) :
    reduced % 10 ≠ 0 := by
  intro zero
  obtain ⟨rest, rfl⟩ := Int.dvd_of_emod_eq_zero zero
  have size : unscaled.natAbs < 2 ^ (count + 1) :=
    (Nat.log2_eq_iff (Int.natAbs_ne_zero.mpr nonzero)).mp many.symm |>.2
  have factor : unscaled.natAbs = rest.natAbs * 10 ^ (count + 1) := by
    rw [digits, Int.natAbs_mul, Int.natAbs_mul, natAbs_tenPow, pow_succ]
    ring
  have restPositive : 0 < rest.natAbs := by
    rcases Nat.eq_zero_or_pos rest.natAbs with none | some
    · rw [none, zero_mul] at factor
      omega
    · exact some
  -- One more zero would make the number at least `10 ^ (count + 1)`, but it has only `count + 1`
  -- binary digits.
  have larger : 2 ^ (count + 1) ≤ 10 ^ (count + 1) := Nat.pow_le_pow_left (by decide) _
  have multiple := Nat.le_mul_of_pos_left (10 ^ (count + 1)) restPositive
  omega

/-- The normal form of a decimal other than zero has fewer zeros at the end of its digits, and none
at all. -/
theorem normalized_spec {d : Decimal} (nonzero : d.unscaled ≠ 0) :
    ∃ dropped : Nat, d.unscaled = d.normalized.unscaled * tenPow dropped ∧
      d.scale = d.normalized.scale + dropped ∧ d.normalized.unscaled % 10 ≠ 0 := by
  obtain ⟨dropped, -, digits, place, stopped⟩ :=
    dropZeros_spec (Nat.log2 d.unscaled.natAbs) d.unscaled d.scale
  rw [normalized, if_neg nonzero]
  exact ⟨dropped, digits, place, stopped.elim (not_dvd_of_log2 nonzero digits) id⟩

/-- Zero has one normal form, whatever its scale. -/
theorem normalized_of_zero {d : Decimal} (zero : d.unscaled = 0) : d.normalized = ⟨0, 0⟩ := by
  rw [normalized, if_pos zero]

/-- The normal form has the value of the decimal. -/
@[simp] theorem value_normalized (d : Decimal) : d.normalized.value = d.value := by
  by_cases zero : d.unscaled = 0
  · rw [normalized_of_zero zero]
    simp [value, zero]
  · obtain ⟨dropped, digits, place, -⟩ := normalized_spec zero
    have same := value_mul_tenPow d.normalized.unscaled d.normalized.scale dropped
    rw [← digits, ← place] at same
    exact same.symm

/-- A decimal has the value zero exactly if its digits are zero. -/
theorem value_eq_zero_iff {d : Decimal} : d.value = 0 ↔ d.unscaled = 0 := by
  have positive : (10 : ℚ) ^ (-d.scale) ≠ 0 := by positivity
  rw [value, mul_eq_zero, or_iff_left positive, Int.cast_eq_zero]

/-- Of two decimals of one value, one whose digits do not end in a zero has the smaller scale. -/
theorem scale_le_of_value_eq {d d' : Decimal} (same : d.value = d'.value)
    (reduced : d.unscaled % 10 ≠ 0) : d.scale ≤ d'.scale := by
  by_contra larger
  -- With a larger scale, the digits of `d` would be those of `d'` with zeros behind them.
  obtain ⟨count, place⟩ := Int.eq_ofNat_of_zero_le (show 0 ≤ d.scale - d'.scale - 1 by omega)
  have moved := value_mul_tenPow d'.unscaled d'.scale (count + 1)
  have scale : d'.scale + (count + 1 : Nat) = d.scale := by omega
  rw [scale, ← same] at moved
  have digits := congrArg Decimal.unscaled (unscaled_eq_of_value_eq (by rfl) moved)
  have step : tenPow (count + 1) = tenPow count * 10 := rfl
  simp only at digits
  rw [step, ← mul_assoc] at digits
  omega

/-- Decimals of one value have one normal form. -/
theorem normalized_eq_of_value_eq {d d' : Decimal} (same : d.value = d'.value) :
    d.normalized = d'.normalized := by
  by_cases zero : d.unscaled = 0
  · have zero' : d'.unscaled = 0 := by
      rw [← value_eq_zero_iff] at zero ⊢
      rw [← same, zero]
    rw [normalized_of_zero zero, normalized_of_zero zero']
  · have zero' : d'.unscaled ≠ 0 := fun isZero =>
      zero (value_eq_zero_iff.mp (same.trans (value_eq_zero_iff.mpr isZero)))
    obtain ⟨_, -, -, reduced⟩ := normalized_spec zero
    obtain ⟨_, -, -, reduced'⟩ := normalized_spec zero'
    have normal : d.normalized.value = d'.normalized.value := by simpa using same
    exact unscaled_eq_of_value_eq
      (le_antisymm (scale_le_of_value_eq normal reduced)
        (scale_le_of_value_eq normal.symm reduced')) normal

/-- Decimals of one value are displayed alike. -/
theorem plain_eq_of_value_eq {d d' : Decimal} (same : d.value = d'.value) :
    d.plain = d'.plain := by
  rw [plain, plain, normalized_eq_of_value_eq same]

/-! ### Displays -/

/-- A decimal whose value is an integer is displayed as the integer. -/
theorem plain_of_value_eq {d : Decimal} {number : Int} (same : d.value = number) :
    d.plain = Digits.ofInt number := by
  rw [← value_ofInt] at same
  rw [plain_eq_of_value_eq same]
  by_cases zero : number = 0
  · subst zero
    rfl
  · -- Displays are those of normalized decimals, and of an integer those end in the zeros that are
    -- dropped.
    obtain ⟨dropped, digits, place, reduced⟩ := normalized_spec (d := ofInt number) zero
    have scale : (ofInt number).normalized.scale = -dropped := by
      simp only [ofInt] at place ⊢
      omega
    have nonzero : 0 < (ofInt number).normalized.unscaled.natAbs := by
      rw [Int.natAbs_pos]
      rintro isZero
      rw [isZero] at reduced
      exact reduced rfl
    have magnitude : number.natAbs =
        (ofInt number).normalized.unscaled.natAbs * 10 ^ dropped := by
      rw [← natAbs_tenPow, ← Int.natAbs_mul, ← digits, ofInt]
    have sign := withSign_mul_tenPow (ofInt number).normalized.unscaled dropped
      (Digits.ofNat number.natAbs)
    rw [← digits] at sign
    rw [plain, plainDigits, if_pos (by omega), scale, Int.neg_neg, Int.toNat_natCast,
      ← ofNat_mul_pow nonzero, ← magnitude, ← sign]
    rfl

/-- A decimal has an integral value, or digits after the point in its normal form. -/
theorem integral_or_pointed (d : Decimal) :
    (∃ number : Int, d.value = number) ∨ 0 < d.normalized.scale := by
  by_cases pointed : 0 < d.normalized.scale
  · exact .inr pointed
  · refine .inl ⟨d.normalized.unscaledAt 0, ?_⟩
    rw [cast_unscaledAt (by omega), value_normalized, zpow_zero, mul_one]

/-- A decimal with digits after the point is not zero. -/
theorem unscaled_ne_zero_of_pointed {d : Decimal} (pointed : 0 < d.normalized.scale) :
    d.unscaled ≠ 0 := by
  intro zero
  rw [normalized_of_zero zero] at pointed
  exact absurd pointed (by decide)

/-- A decimal with digits after the point does not have an integral value. -/
theorem not_integral_of_pointed {d : Decimal} (pointed : 0 < d.normalized.scale) (number : Int) :
    d.value ≠ number := by
  intro integral
  obtain ⟨-, -, -, reduced⟩ := normalized_spec (unscaled_ne_zero_of_pointed pointed)
  have same : d.normalized.value = (ofInt number).value := by
    rw [value_normalized, integral, value_ofInt]
  have scale : d.normalized.scale ≤ 0 := scale_le_of_value_eq same reduced
  omega

/-- What a decimal is displayed as when it has digits after the point. -/
theorem plain_of_pointed {d : Decimal} (pointed : 0 < d.normalized.scale) :
    ∃ whole fraction, Digits.AreDigits (whole ++ fraction) ∧ whole ≠ [] ∧
      (fraction.length : Int) = d.normalized.scale ∧
      Digits.value (whole ++ fraction) = d.normalized.unscaled.natAbs ∧
      d.plain = withSign d.normalized.unscaled (whole ++ '.' :: fraction) := by
  obtain ⟨whole, fraction, zeros, text, nonempty, length, padded, -⟩ :=
    plainDigits_of_pos (Digits.ofNat d.normalized.unscaled.natAbs) pointed
  refine ⟨whole, fraction, ?_, nonempty, length, ?_, by rw [plain, text]⟩
  · rw [padded]
    simp [Digits.areDigits_ofNat]
  · rw [padded, value_zeros_append, Digits.value_ofNat]

end TextTemplate.Decimal
