import TextTemplate.Proofs.Decimal.Quotients
import TextTemplate.Proofs.Numeric.Exact

/-! # Quotients of numbers

The quotient of two finite numbers is a decimal, whatever their representations, as long as their
digits can be lined up. It is the exact quotient rounded, and it is rounded even where the exact
quotient ends, unless that has few enough digits after the point. -/

namespace TextTemplate.Numeric

variable {left right : Numeric} {l r : Decimal}

/-! ### Decimal quotients -/

/-- A number is zero when its decimal is. -/
theorem isZero_iff (found : left.toDecimal? = some l) : left.isZero = true ↔ l.unscaled = 0 := by
  cases left with
  | double x =>
      cases x with
      | finite negative place =>
          cases found
          rw [isZero, Double.isZero, beq_iff_eq]
          rcases Nat.eq_zero_or_pos place.val with none | positive
          · simp [none]
          · obtain ⟨decimal, nonzero, -, same⟩ := Decimal.ofDouble_spec negative positive
            have digits : (Double.signed negative decimal).natAbs ≠ 0 := by
              rw [Decimal.natAbs_signed]
              exact nonzero.ne'
            rw [← Decimal.value_eq_zero_iff, same, Decimal.value_eq_zero_iff]
            exact iff_of_false positive.ne' (Int.natAbs_ne_zero.mp digits)
      | _ => cases found
  | integer i =>
      cases found
      rw [isZero, beq_iff_eq, Decimal.ofInt]
  | decimal d =>
      cases found
      rw [isZero, Decimal.isZero, beq_iff_eq]

/-- A quotient of finite numbers is calculated as one of decimals. -/
theorem divide_of_toDecimal? {quotient : Decimal} (isLeft : left.toDecimal? = some l)
    (isRight : right.toDecimal? = some r) (nonzero : right.isZero = false)
    (found : l.div? r = some quotient) : left.divide right = .decimal quotient := by
  simp only [divide, isFinite_of_toDecimal? isLeft, isFinite_of_toDecimal? isRight, nonzero,
    Bool.not_true, Bool.or_self, Bool.false_eq_true, if_false, isLeft, isRight, found]

end TextTemplate.Numeric
