import Mathlib.Data.Rat.Floor
import TextTemplate.Proofs.Decimal.Value

/-! # Arithmetic on decimals is exact

The sum, difference, product and remainder of decimals stand for the sum, difference, product and
remainder of the numbers that they stand for, whatever scale the result has. -/

namespace TextTemplate.Decimal

/-! ### Remainders of rational numbers -/

/-- The part of a rational number before the point. -/
def wholePart (q : ℚ) : ℤ := if 0 ≤ q then ⌊q⌋ else ⌈q⌉

/-- The remainder of the division that rounds toward zero. -/
def remainder (left right : ℚ) : ℚ := left - right * wholePart (left / right)

/-- The sign of a number is the sign of its whole part. -/
theorem wholePart_neg (q : ℚ) : wholePart (-q) = -wholePart q := by
  rcases lt_trichotomy q 0 with negative | rfl | positive
  · rw [wholePart, wholePart, if_pos (by linarith), if_neg (by linarith), Int.floor_neg]
  · rfl
  · rw [wholePart, wholePart, if_neg (by linarith), if_pos positive.le, Int.ceil_neg]

/-- The whole part of a quotient of integers is their quotient rounded toward zero. -/
theorem wholePart_div (left right : Int) : wholePart (left / right : ℚ) = left.tdiv right := by
  have natural (m n : Nat) : wholePart (m / n : ℚ) = (m / n : Nat) := by
    have floor := Rat.floor_intCast_div_natCast m n
    rw [Int.cast_natCast] at floor
    rw [wholePart, if_pos (by positivity), floor, Int.natCast_div]
  obtain ⟨m, rfl | rfl⟩ := left.eq_nat_or_neg <;> obtain ⟨n, rfl | rfl⟩ := right.eq_nat_or_neg
  · simp [natural]
  · simp [natural, div_neg, wholePart_neg]
  · simp [natural, neg_div, wholePart_neg, Int.neg_tdiv]
  · simp [natural, Int.neg_tdiv]

/-- Between integers the remainder is that of the truncated quotient. -/
theorem cast_tmod (left right : Int) : (left.tmod right : ℚ) = remainder left right := by
  rw [remainder, wholePart_div, Int.tmod_def, Int.cast_sub, Int.cast_mul]

/-! ### Values of results -/

variable (d d' : Decimal)

/-- A decimal written at another scale. -/
theorem value_unscaledAt {scale : Int} (enough : d.scale ≤ scale) :
    d.unscaledAt scale * 10 ^ (-scale) = d.value := by
  rw [cast_unscaledAt enough, mul_assoc, ← zpow_add₀ (by norm_num), add_neg_cancel, zpow_zero,
    mul_one]

@[simp] theorem value_neg : d.neg.value = -d.value := by
  rw [value, neg, Int.cast_neg, neg_mul]
  rfl

/-- The sum of decimals has the sum of their values. -/
theorem value_add : (d.add d').value = d.value + d'.value := by
  rw [← value_unscaledAt d (le_max_left d.scale d'.scale),
    ← value_unscaledAt d' (le_max_right d.scale d'.scale), ← add_mul, ← Int.cast_add]
  rfl

/-- A decimal is zero exactly if its value is. -/
theorem isZero_iff : d.isZero = true ↔ d.value = 0 := by
  rw [isZero, beq_iff_eq, value_eq_zero_iff]

/-- The difference of decimals has the difference of their values. -/
theorem value_sub : (d.sub d').value = d.value - d'.value := by
  unfold sub
  split_ifs with rightZero leftZero
  · rw [(isZero_iff d').mp rightZero, sub_zero]
  · rw [(isZero_iff d).mp leftZero, value_neg, zero_sub]
  · rw [← value_unscaledAt d (le_max_left d.scale d'.scale),
      ← value_unscaledAt d' (le_max_right d.scale d'.scale), ← sub_mul, ← Int.cast_sub]
    rfl

/-- A decimal is one exactly if its value is, however many zeros it has. -/
theorem isOne_iff : d.isOne = true ↔ d.value = 1 := by
  have split : (10 : ℚ) ^ (-d.scale) = 10 ^ (-d.scale).toNat / 10 ^ d.scale.toNat := by
    have exponent : -d.scale = ((-d.scale).toNat : Int) - (d.scale.toNat : Int) := by omega
    conv_lhs => rw [exponent]
    rw [zpow_sub₀ (by norm_num), zpow_natCast, zpow_natCast]
  rw [isOne, beq_iff_eq, value, split, ← mul_div_assoc, div_eq_one_iff_eq (by positivity),
    ← Int.cast_inj (α := ℚ), Int.cast_mul, cast_tenPow, cast_tenPow]

/-- The product of decimals has the product of their values. -/
theorem value_mul : (d.mul d').value = d.value * d'.value := by
  unfold mul
  split_ifs with leftOne rightOne
  · rw [(isOne_iff d).mp leftOne, one_mul]
  · rw [(isOne_iff d').mp rightOne, mul_one]
  · simp only [value]
    rw [Int.cast_mul, neg_add, zpow_add₀ (by norm_num)]
    ring

/-- The remainder of decimals has the remainder of their values. -/
theorem value_rem : (d.rem d').value = remainder d.value d'.value := by
  have left := value_unscaledAt d (le_max_left d.scale d'.scale)
  have right := value_unscaledAt d' (le_max_right d.scale d'.scale)
  have positive : (10 : ℚ) ^ (-max d.scale d'.scale) ≠ 0 := by positivity
  rw [remainder, ← left, ← right, mul_div_mul_right _ _ positive, mul_right_comm, ← sub_mul,
    ← remainder, ← cast_tmod]
  rfl

end TextTemplate.Decimal
