import TextTemplate.Proofs.Decimal.Quotients
import TextTemplate.Proofs.Numeric.Exact

/-! # Exact powers are exact and bounded

Whether a power is calculated exactly is decided by an estimate of the number of its digits, which is
taken from the number of binary digits of the base. The estimate is never too low, so that no exact
power has more digits, or a larger scale, than is allowed. -/

namespace TextTemplate

/-- Powers of decimals are exact. -/
theorem Decimal.value_pow (base : Decimal) (count : Nat) :
    (base.pow count).value = base.value ^ count := by
  have scale : -(base.scale * count) = -base.scale * (count : Int) := by rw [Int.neg_mul]
  rw [value, pow, Int.pow_eq, Int.cast_pow, scale, zpow_mul, zpow_natCast, ← mul_pow, value]

namespace Numeric

/-! ### The estimate -/

/-- A number has no more binary digits than are counted. -/
theorem lt_two_pow_bitCount (number : Nat) : number < 2 ^ bitCount number := by
  unfold bitCount
  split_ifs with zero
  · rw [zero]
    exact Nat.one_pos
  · exact Nat.lt_log2_self

/-- The fraction of the estimate, which is not below the decimal logarithm of two. -/
def logarithmBound : {fraction : Nat × Nat // 2 ^ fraction.2 ≤ 10 ^ fraction.1} :=
  ⟨(12655, 42039), by decide +kernel⟩

/-- As many decimal digits as are estimated make no fewer numbers than the binary digits. -/
theorem two_pow_le_ten_pow (bits : Nat) : 2 ^ bits ≤ 10 ^ digitEstimate bits := by
  have logarithm : 2 ^ 42039 ≤ 10 ^ 12655 := logarithmBound.property
  have estimate : 12655 * bits ≤ digitEstimate bits * 42039 := by
    unfold digitEstimate
    omega
  refine (Nat.pow_le_pow_iff_left (show 42039 ≠ 0 by decide)).mp ?_
  calc (2 ^ bits) ^ 42039 = (2 ^ 42039) ^ bits := by rw [← pow_mul, ← pow_mul, mul_comm]
    _ ≤ (10 ^ 12655) ^ bits := Nat.pow_le_pow_left logarithm bits
    _ = 10 ^ (12655 * bits) := (pow_mul ..).symm
    _ ≤ 10 ^ (digitEstimate bits * 42039) := Nat.pow_le_pow_right (by decide) estimate
    _ = (10 ^ digitEstimate bits) ^ 42039 := pow_mul ..

/-- A number has no more decimal digits than are estimated. -/
theorem lt_ten_pow_digitEstimate (number : Nat) :
    number < 10 ^ digitEstimate (bitCount number) :=
  lt_of_lt_of_le (lt_two_pow_bitCount number) (two_pow_le_ten_pow _)

variable {unscaled scale : Int} {count : Nat}

/-- A power is exact where the estimate of its digits is within the bound. -/
theorem exactPowerFits_iff : exactPowerFits unscaled scale count = true ↔
    (digitEstimate (bitCount unscaled.natAbs) + scale.natAbs) * count ≤ maxExactDigits :=
  decide_eq_true_iff

/-- The digits of a power that is small enough are no more than are allowed. -/
theorem natAbs_pow_lt (fits : exactPowerFits unscaled scale count = true) :
    (unscaled ^ count).natAbs < 10 ^ maxExactDigits := by
  rw [exactPowerFits_iff, Nat.add_mul] at fits
  rw [Int.natAbs_pow]
  rcases Nat.eq_zero_or_pos count with rfl | positive
  · rw [pow_zero]
    exact Nat.one_lt_pow (by decide) (by decide)
  · calc unscaled.natAbs ^ count
        < (10 ^ digitEstimate (bitCount unscaled.natAbs)) ^ count :=
          Nat.pow_lt_pow_left (lt_ten_pow_digitEstimate _) positive.ne'
      _ = 10 ^ (digitEstimate (bitCount unscaled.natAbs) * count) := (pow_mul ..).symm
      _ ≤ 10 ^ maxExactDigits :=
          Nat.pow_le_pow_right (by decide) (le_trans (Nat.le_add_right _ _) fits)

/-- The scale of a power that is small enough is within the bound for digits. -/
theorem natAbs_scale_mul_le (fits : exactPowerFits unscaled scale count = true) :
    (scale * count).natAbs ≤ maxExactDigits := by
  rw [exactPowerFits_iff, Nat.add_mul] at fits
  rw [Int.natAbs_mul, Int.natAbs_natCast]
  exact le_trans (Nat.le_add_left _ _) fits

/-! ### The base -/

/-- The decimal that an exact power is a power of: the normal form of the base where the base or the
exponent is decimal, and the part of the base before the point otherwise. -/
def powerBase? (base exponent : Numeric) : Option Decimal :=
  if base.isDecimalLike || exponent.isDecimalLike then base.toDecimal?.map Decimal.normalized
  else base.toInt?.map Decimal.ofInt

variable {base exponent : Numeric} {d : Decimal} {n : Int}

/-- An exact power has a base. -/
theorem exists_powerBase? (finite : base.isFinite = true) (exponent : Numeric) :
    ∃ d, powerBase? base exponent = some d := by
  obtain ⟨d, isDecimal⟩ := exists_toDecimal? finite
  obtain ⟨i, isInt⟩ := exists_toInt? finite
  unfold powerBase?
  split
  · exact ⟨_, by rw [isDecimal, Option.map_some]⟩
  · exact ⟨_, by rw [isInt, Option.map_some]⟩

/-- The base of a power of decimals has the value of the number, and the base of a power of integers
is the integer that the number is cut to. -/
theorem value_powerBase? (found : powerBase? base exponent = some d) :
    (if base.isDecimalLike || exponent.isDecimalLike then base.value?
      else base.toInt?.map fun i : Int => (i : ℚ)) = some d.value := by
  unfold powerBase? at found
  split at found
  next decimalLike =>
    obtain ⟨d', isDecimal, rfl⟩ := Option.map_eq_some_iff.mp found
    rw [if_pos decimalLike, value?, isDecimal, Option.map_some, Decimal.value_normalized]
  next integral =>
    obtain ⟨i, isInt, rfl⟩ := Option.map_eq_some_iff.mp found
    rw [if_neg integral, isInt, Option.map_some, Decimal.value_ofInt]

/-- The power of a base, as an integer if it is one of integers. -/
def powerOf (base exponent : Numeric) (d : Decimal) (count : Nat) : Numeric :=
  if base.isDecimalLike || exponent.isDecimalLike then .decimal (d.pow count)
  else .integer (d.unscaled ^ count)

/-- An exact power is the power of its base, where that is small enough. -/
theorem exactPower?_eq (found : powerBase? base exponent = some d) (count : Nat) :
    exactPower? base exponent count =
      if exactPowerFits d.unscaled d.scale count then some (powerOf base exponent d count)
      else none := by
  unfold powerBase? at found
  unfold exactPower? powerOf
  split at found
  next decimalLike =>
    obtain ⟨d', isDecimal, rfl⟩ := Option.map_eq_some_iff.mp found
    rw [if_pos decimalLike, if_pos decimalLike, isDecimal, Option.bind_eq_bind, Option.bind_some,
      Option.pure_def]
  next integral =>
    obtain ⟨i, isInt, rfl⟩ := Option.map_eq_some_iff.mp found
    rw [if_neg integral, if_neg integral, isInt, Option.bind_eq_bind, Option.bind_some,
      Option.pure_def, Int.pow_eq]
    rfl

/-- The decimal of a power is the power of the decimal. -/
theorem toDecimal?_powerOf (found : powerBase? base exponent = some d) (count : Nat) :
    (powerOf base exponent d count).toDecimal? = some (d.pow count) := by
  unfold powerBase? at found
  unfold powerOf
  split at found
  next decimalLike =>
    rw [if_pos decimalLike]
    rfl
  next integral =>
    obtain ⟨i, -, rfl⟩ := Option.map_eq_some_iff.mp found
    rw [if_neg integral, Decimal.pow, Decimal.ofInt, Int.zero_mul]
    rfl

/-! ### Powers -/

/-- An exponent of an exact power is a whole number that is not too large. -/
theorem of_exactExponent? (found : exactExponent? exponent = some n) :
    exponent.isIntegral = true ∧ exponent.toInt? = some n ∧ n.natAbs ≤ maxExactExponent := by
  unfold exactExponent? at found
  split at found
  next integral =>
    obtain ⟨isInt, small⟩ := Option.filter_eq_some_iff.mp found
    exact ⟨integral, isInt, of_decide_eq_true small⟩
  next => cases found

/-- A number without a fraction is finite. -/
theorem isFinite_of_isIntegral (integral : exponent.isIntegral = true) :
    exponent.isFinite = true := by
  cases exponent with
  | double x =>
      cases x with
      | finite => rfl
      | _ => cases integral
  | _ => rfl

/-- A power with a small whole exponent is calculated exactly if it is small enough. -/
theorem power_of_exactPower? {result : Numeric} (finite : base.isFinite = true)
    (isExponent : exactExponent? exponent = some n)
    (found : exactPower? base exponent n.natAbs = some result) :
    base.power exponent = if 0 ≤ n then result else divide (.integer 1) result := by
  have finite' := isFinite_of_isIntegral (of_exactExponent? isExponent).1
  simp only [power, finite, finite', isExponent, found, Bool.not_true, Bool.or_self,
    Bool.false_eq_true, if_false, Option.bind_some, Option.map_some]

/-- An exact power has the value of the power and no more digits and no larger scale than are
allowed. -/
theorem of_exactPower? {result : Numeric} {count : Nat} (isBase : powerBase? base exponent = some d)
    (found : exactPower? base exponent count = some result) :
    ∃ p, result.toDecimal? = some p ∧ p.value = d.value ^ count ∧
      p.digitCount ≤ maxExactDigits ∧ p.scale.natAbs ≤ maxExactDigits := by
  rw [exactPower?_eq isBase count] at found
  split at found
  next fits =>
    cases found
    exact ⟨d.pow count, toDecimal?_powerOf isBase count, Decimal.value_pow d count,
      (Digits.length_ofNat_le_iff (by decide)).mpr (natAbs_pow_lt fits),
      natAbs_scale_mul_le fits⟩
  next => cases found

/-- A power with a small whole exponent is calculated exactly just where the estimate of its size
allows it. It then has the value of the power and no more digits and no larger scale than are
allowed; with a negative exponent, one is divided by it. -/
theorem power_exact (finite : base.isFinite = true) (isExponent : exactExponent? exponent = some n) :
    ∃ d, powerBase? base exponent = some d ∧
      (if base.isDecimalLike || exponent.isDecimalLike then base.value?
        else base.toInt?.map fun i : Int => (i : ℚ)) = some d.value ∧
      ((exactPower? base exponent n.natAbs).isSome = true ↔
        exactPowerFits d.unscaled d.scale n.natAbs = true) ∧
      ∀ result, exactPower? base exponent n.natAbs = some result →
        base.power exponent = (if 0 ≤ n then result else divide (.integer 1) result) ∧
        ∃ p, result.toDecimal? = some p ∧ p.value = d.value ^ n.natAbs ∧
          p.digitCount ≤ maxExactDigits ∧ p.scale.natAbs ≤ maxExactDigits := by
  obtain ⟨d, isBase⟩ := exists_powerBase? finite exponent
  refine ⟨d, isBase, value_powerBase? isBase, ?_, fun result found => ?_⟩
  · rw [exactPower?_eq isBase n.natAbs]
    cases exactPowerFits d.unscaled d.scale n.natAbs <;> simp
  · exact ⟨power_of_exactPower? finite isExponent found, of_exactPower? isBase found⟩

/-- A decimal to the power of a negative double. -/
theorem power_exact_of_negative :
    let base := Numeric.decimal ⟨-150, 2⟩
    let exponent := Numeric.double (.ofInt (-3))
    base.isFinite = true ∧ exactExponent? exponent = some (-3) ∧
      ∃ d, powerBase? base exponent = some d ∧
        (if base.isDecimalLike || exponent.isDecimalLike then base.value?
          else base.toInt?.map fun i : Int => (i : ℚ)) = some d.value ∧
        ((exactPower? base exponent (Int.natAbs (-3))).isSome = true ↔
          exactPowerFits d.unscaled d.scale (Int.natAbs (-3)) = true) ∧
        ∀ result, exactPower? base exponent (Int.natAbs (-3)) = some result →
          base.power exponent = (if (0 : Int) ≤ -3 then result else divide (.integer 1) result) ∧
          ∃ p, result.toDecimal? = some p ∧ p.value = d.value ^ Int.natAbs (-3) ∧
            p.digitCount ≤ maxExactDigits ∧ p.scale.natAbs ≤ maxExactDigits := by
  intro base exponent
  have isExponent : exactExponent? exponent = some (-3) := by decide +kernel
  exact ⟨rfl, isExponent, power_exact rfl isExponent⟩

end Numeric

end TextTemplate
