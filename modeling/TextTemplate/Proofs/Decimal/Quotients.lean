import Mathlib.Algebra.Order.Round
import Mathlib.Tactic.FieldSimp
import Mathlib.Tactic.Linarith
import TextTemplate.Proofs.Decimal.Arithmetic

/-! # Quotients of decimals

A quotient of decimals is the exact one rounded at a scale that depends on nothing but the orders of
magnitude of the operands. These tell the order of magnitude of the quotient up to one, so that the
error is small next to the quotient, and a quotient that ends is exact if it has no more digits than
are kept. -/

namespace TextTemplate.Decimal

/-! ### Rounding -/

/-- The nearest integer; a half is rounded away from zero. -/
def roundAway (q : ℚ) : ℤ := if 0 ≤ q then round q else -round (-q)

/-- The nearest number with so many digits after the point; a half is rounded away from zero. -/
def roundedAt (places : ℤ) (q : ℚ) : ℚ := roundAway (q * 10 ^ places) * 10 ^ (-places)

/-- Rounding a half away from zero is symmetric about zero. -/
theorem roundAway_neg (q : ℚ) : roundAway (-q) = -roundAway q := by
  rcases lt_trichotomy q 0 with negative | rfl | positive
  · rw [roundAway, roundAway, if_pos (by linarith), if_neg (by linarith), neg_neg]
  · simp [roundAway]
  · rw [roundAway, roundAway, if_neg (by linarith), if_pos positive.le, neg_neg]

/-- Adding half of the divisor beforehand rounds a quotient of natural numbers. -/
theorem divRound_natCast (numerator : Nat) {denominator : Nat} (positive : 0 < denominator) :
    divRound numerator denominator = ((2 * numerator + denominator) / (2 * denominator) : Nat) := by
  have split := Nat.div_add_mod numerator denominator
  have bound := Nat.mod_lt numerator positive
  have signs : decide ((numerator : Int) < 0) = decide ((denominator : Int) < 0) := by
    rw [decide_eq_false (by omega), decide_eq_false (by omega)]
  simp only [divRound, ← Int.ofNat_tdiv, ← Int.ofNat_tmod, Int.natAbs_natCast, signs]
  generalize numerator / denominator = quotient at *
  generalize numerator % denominator = remainder at *
  have double : 2 * numerator + denominator =
      2 * remainder + denominator + quotient * (2 * denominator) := by
    rw [← split]
    ring
  rw [double, Nat.add_mul_div_right _ _ (by omega)]
  split
  next up =>
    have one : (2 * remainder + denominator) / (2 * denominator) = 1 :=
      Nat.div_eq_of_lt_le (by omega) (by omega)
    rw [one]
    simp
    omega
  next down =>
    rw [Nat.div_eq_of_lt (by omega), Nat.zero_add]

/-- The sign of the numerator is that of the rounded quotient. -/
theorem divRound_neg_left (numerator : Int) {denominator : Int} (nonzero : denominator ≠ 0) :
    divRound (-numerator) denominator = -divRound numerator denominator := by
  simp only [divRound, Int.neg_tdiv, Int.neg_tmod, Int.natAbs_neg]
  split
  next up =>
    -- There is a remainder, so that the numerator has a sign.
    have flipped : decide (-numerator < 0) = !decide (numerator < 0) := by
      have some : numerator ≠ 0 := by
        rintro rfl
        rw [Int.zero_tmod] at up
        omega
      rw [← decide_not, decide_eq_decide]
      omega
    rw [flipped]
    cases decide (numerator < 0) <;> cases decide (denominator < 0) <;> simp <;> omega
  next => rfl

/-- So is the sign of the denominator. -/
theorem divRound_neg_right (numerator : Int) {denominator : Int} (nonzero : denominator ≠ 0) :
    divRound numerator (-denominator) = -divRound numerator denominator := by
  have flipped : decide (-denominator < 0) = !decide (denominator < 0) := by
    rw [← decide_not, decide_eq_decide]
    omega
  simp only [divRound, Int.tdiv_neg, Int.tmod_neg, Int.natAbs_neg, flipped]
  split
  next => cases decide (numerator < 0) <;> cases decide (denominator < 0) <;> simp <;> omega
  next => rfl

/-- The quotient of integers, rounded. -/
theorem roundAway_div (numerator : Int) {denominator : Int} (nonzero : denominator ≠ 0) :
    roundAway (numerator / denominator : ℚ) = divRound numerator denominator := by
  have natural (m n : Nat) (positive : 0 < n) : roundAway (m / n : ℚ) = divRound m n := by
    have sum : (m / n : ℚ) + 1 / 2 = ((2 * m + n : Nat) : ℤ) / ((2 * n : Nat) : ℚ) := by
      push_cast
      field_simp
    rw [divRound_natCast m positive, roundAway, if_pos (by positivity), round_eq, sum,
      Rat.floor_intCast_div_natCast, Int.natCast_div]
  obtain ⟨m, rfl | rfl⟩ := numerator.eq_nat_or_neg <;>
    obtain ⟨n, rfl | rfl⟩ := denominator.eq_nat_or_neg
  · exact natural m n (by omega)
  · rw [divRound_neg_right _ (by omega), ← natural m n (by omega), Int.cast_neg, div_neg,
      roundAway_neg]
    rfl
  · rw [divRound_neg_left _ (by omega), ← natural m n (by omega), Int.cast_neg, neg_div,
      roundAway_neg]
    rfl
  · rw [divRound_neg_left _ (by omega), divRound_neg_right _ (by omega),
      ← natural m n (by omega), Int.cast_neg, Int.cast_neg, neg_div_neg_eq, neg_neg]
    rfl

/-! ### Orders of magnitude -/

/-- How many digits stand before the point; a negative number counts the zeros after it. -/
def order (d : Decimal) : ℤ := d.digitCount - d.scale

/-- Every decimal has a digit. -/
theorem digitCount_pos (d : Decimal) : 0 < d.digitCount :=
  List.length_pos_of_ne_nil (Digits.ofNat_ne_nil _)

/-- A number is less than the power of ten that has one digit more. -/
theorem natAbs_lt_pow (d : Decimal) : d.unscaled.natAbs < 10 ^ d.digitCount :=
  (Digits.length_ofNat_le_iff d.digitCount_pos).mp le_rfl

/-- A number other than zero is at least the power of ten with as many digits. -/
theorem pow_le_natAbs {d : Decimal} (nonzero : d.unscaled ≠ 0) :
    10 ^ (d.digitCount - 1) ≤ d.unscaled.natAbs := by
  rcases Nat.lt_or_ge 1 d.digitCount with many | one
  · by_contra less
    have short : d.digitCount ≤ d.digitCount - 1 :=
      (Digits.length_ofNat_le_iff (by omega)).mpr (Nat.lt_of_not_le less)
    omega
  · have positive := Int.natAbs_pos.mpr nonzero
    rw [Nat.sub_eq_zero_of_le one, pow_zero]
    exact positive

/-- A value is as large as the power of ten that its order of magnitude tells, up to one place. -/
theorem abs_value_bounds {d : Decimal} (nonzero : d.unscaled ≠ 0) :
    10 ^ (d.order - 1) ≤ |d.value| ∧ |d.value| < 10 ^ d.order := by
  have positive : 0 < (10 : ℚ) ^ (-d.scale) := by positivity
  have magnitude : |d.value| = d.unscaled.natAbs * 10 ^ (-d.scale) := by
    rw [value, abs_mul, abs_of_pos positive, Nat.cast_natAbs, Int.cast_abs]
  have above : (d.unscaled.natAbs : ℚ) < 10 ^ d.digitCount := by
    exact_mod_cast natAbs_lt_pow d
  have below : (10 : ℚ) ^ (d.digitCount - 1) ≤ d.unscaled.natAbs := by
    exact_mod_cast pow_le_natAbs nonzero
  have count : ((d.digitCount - 1 : Nat) : Int) = d.digitCount - 1 := by
    have := d.digitCount_pos
    omega
  rw [magnitude]
  constructor
  · calc (10 : ℚ) ^ (d.order - 1) = 10 ^ (d.digitCount - 1) * 10 ^ (-d.scale) := by
          rw [← zpow_natCast, ← zpow_add₀ (by norm_num), count, order]
          congr 1
          ring
      _ ≤ d.unscaled.natAbs * 10 ^ (-d.scale) := mul_le_mul_of_nonneg_right below positive.le
  · calc (d.unscaled.natAbs : ℚ) * 10 ^ (-d.scale) < 10 ^ d.digitCount * 10 ^ (-d.scale) :=
          mul_lt_mul_of_pos_right above positive
      _ = 10 ^ d.order := by
          rw [← zpow_natCast, ← zpow_add₀ (by norm_num), order, sub_eq_add_neg]

/-- Numbers of one value have one order of magnitude. -/
theorem order_eq_of_value_eq {d d' : Decimal} (nonzero : d.unscaled ≠ 0)
    (same : d.value = d'.value) : d.order = d'.order := by
  have nonzero' : d'.unscaled ≠ 0 := by
    rwa [ne_eq, ← value_eq_zero_iff, ← same, value_eq_zero_iff]
  obtain ⟨low, high⟩ := abs_value_bounds nonzero
  obtain ⟨low', high'⟩ := abs_value_bounds nonzero'
  rw [same] at low high
  have less := (zpow_lt_zpow_iff_right₀ (by norm_num)).mp (low.trans_lt high')
  have less' := (zpow_lt_zpow_iff_right₀ (by norm_num)).mp (low'.trans_lt high)
  omega

/-- Whether lining the digits of dividend and divisor up takes fewer than `2 ^ 32` zeros. -/
def Aligns (left right : Decimal) : Prop :=
  (right.scale - left.scale + quotientScale left right).natAbs < 2 ^ 32

instance (left right : Decimal) : Decidable (left.Aligns right) :=
  inferInstanceAs (Decidable (_ < _))

variable {left right : Decimal}

/-- The quotient of the digits lined up at a scale, in either direction. -/
theorem div_aligned (left : Decimal) {right : Decimal} (nonzero : right.unscaled ≠ 0)
    (scale : Int) :
    let shift := right.scale - left.scale + scale
    roundAway (left.value / right.value * 10 ^ scale) =
      if 0 ≤ shift then divRound (left.unscaled * tenPow shift.toNat) right.unscaled
      else divRound left.unscaled (right.unscaled * tenPow (-shift).toNat) := by
  intro shift
  have digits : (right.unscaled : ℚ) ≠ 0 := by exact_mod_cast nonzero
  have quotient : left.value / right.value * 10 ^ scale =
      left.unscaled / right.unscaled * 10 ^ shift := by
    simp only [value, shift]
    rw [zpow_add₀ (by norm_num), zpow_sub₀ (by norm_num), zpow_neg, zpow_neg]
    field_simp
  rw [quotient]
  split_ifs with forward
  · rw [← roundAway_div _ nonzero, Int.cast_mul, cast_tenPow, ← zpow_natCast,
      Int.toNat_of_nonneg forward, div_mul_eq_mul_div]
  · have backward : ((-shift).toNat : Int) = -shift := by omega
    rw [← roundAway_div _ (mul_ne_zero nonzero (tenPow_pos _).ne'), Int.cast_mul, cast_tenPow,
      ← zpow_natCast, backward, zpow_neg, ← div_div, div_inv_eq_mul]

/-- The quotient is the exact one, rounded at its scale. -/
theorem div?_eq_some (aligns : left.Aligns right) (nonzero : right.unscaled ≠ 0) :
    ∃ quotient : Decimal, left.div? right = some quotient.normalized ∧
      quotient.value = roundedAt (quotientScale left right) (left.value / right.value) := by
  have near : ¬Nat.pow 2 32 ≤
      (right.scale - left.scale + quotientScale left right).natAbs := by
    rw [Nat.pow_eq]
    exact Nat.not_le.mpr aligns
  refine ⟨⟨roundAway (left.value / right.value * 10 ^ quotientScale left right),
    quotientScale left right⟩, ?_, rfl⟩
  rw [div?, if_neg near, div_aligned left nonzero]

/-- A quotient does not depend on how the divisor is written. -/
theorem div?_eq_of_value_eq {right' : Decimal} (aligns : left.Aligns right)
    (aligns' : left.Aligns right') (nonzero : right.unscaled ≠ 0)
    (same : right.value = right'.value) :
    ∃ quotient, left.div? right = some quotient ∧ left.div? right' = some quotient := by
  have nonzero' : right'.unscaled ≠ 0 := by
    rwa [ne_eq, ← value_eq_zero_iff, ← same, value_eq_zero_iff]
  have scale : quotientScale left right = quotientScale left right' := by
    have orders := order_eq_of_value_eq nonzero same
    simp only [order] at orders
    simp only [quotientScale, orders]
  obtain ⟨quotient, found, rounded⟩ := div?_eq_some aligns nonzero
  obtain ⟨quotient', found', rounded'⟩ := div?_eq_some aligns' nonzero'
  have exact : quotient.value = quotient'.value := by rw [rounded, rounded', scale, same]
  exact ⟨quotient.normalized, found, by rw [found', normalized_eq_of_value_eq exact]⟩

end TextTemplate.Decimal
