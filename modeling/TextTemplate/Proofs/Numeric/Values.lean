import TextTemplate.Expr.Printer
import TextTemplate.Numeric.Arithmetic
import TextTemplate.Proofs.Decimal.Rounded
import TextTemplate.Proofs.Token.Spelled

/-! # Numbers by their decimals

A literal stands for a decimal, whatever its representation. The decimal says how the number is
displayed, whether it is negative and which numbers it equals. -/

namespace TextTemplate.Numeric

/-! ### The decimal of a literal -/

/-- A literal has a decimal, whose scale is within its bounds. -/
theorem toDecimal?_of_isLiteral {value : Numeric} (literal : value.IsLiteral) :
    ∃ d, value.toDecimal? = some d ∧ d.scale ≤ 10000 := by
  cases value with
  | double x =>
      cases x with
      | finite negative place =>
          obtain ⟨-, few⟩ := Decimal.scale_ofDouble negative place.val
          exact ⟨_, rfl, by omega⟩
      | _ => cases literal
  | integer i => exact ⟨_, rfl, by simp [Decimal.ofInt]⟩
  | decimal d =>
      have bounded : d.scale.natAbs ≤ 10000 := of_decide_eq_true literal
      exact ⟨d, rfl, by omega⟩

/-- A number is displayed as its decimal is. -/
theorem display_of_toDecimal? {value : Numeric} {d : Decimal} (found : value.toDecimal? = some d) :
    value.display = d.plain := by
  cases value with
  | double x =>
      cases x with
      | finite negative place =>
          cases found
          rfl
      | _ => cases found
  | integer i =>
      cases found
      exact (Decimal.plain_of_value_eq (Decimal.value_ofInt i)).symm
  | decimal d' =>
      cases found
      rfl

/-- Only finite numbers have decimals. -/
theorem isFinite_of_toDecimal? {value : Numeric} {d : Decimal}
    (found : value.toDecimal? = some d) : value.isFinite = true := by
  cases value with
  | double x => cases x <;> first | rfl | cases found
  | _ => rfl

/-! ### Order -/

/-- Two numbers that are not both doubles compare as their decimals do. -/
theorem compare?_of_toDecimal? {value other : Numeric} {d d' : Decimal}
    (found : value.toDecimal? = some d) (found' : other.toDecimal? = some d')
    (mixed : ∀ x x', value = .double x → other ≠ .double x') :
    value.compare? other = some (d.compare d') := by
  have decimals : (if !value.isFinite || !other.isFinite then
      value.toDouble.compare? other.toDouble
    else do
      let l ← value.toDecimal?
      let r ← other.toDecimal?
      return l.compare r) = some (d.compare d') := by
    rw [isFinite_of_toDecimal? found, isFinite_of_toDecimal? found', found, found']
    rfl
  -- Integers are compared without a detour, which comes to the same.
  cases value with
  | double x =>
      cases other with
      | double x' => exact absurd rfl (mixed x x' rfl)
      | _ => exact decimals
  | integer i =>
      cases other with
      | integer i' =>
          cases found
          cases found'
          simp [compare?, Decimal.compare, Decimal.ofInt, Decimal.unscaledAt, Decimal.tenPow]
      | _ => exact decimals
  | decimal _ => exact decimals

/-- All places but the first one are of positive numbers. -/
theorem unitsAt_pos_iff {place : Nat} : 0 < Double.unitsAt place ↔ 0 < place := by
  have zero : Double.unitsAt 0 = 0 := Double.unitsAt_of_lt (Nat.pow_pos (by decide))
  rw [← zero, Double.unitsAt_strictMono.lt_iff_lt, zero]

/-- A double is less than zero when it is a negative one other than zero. -/
theorem compare?_zero_iff {negative : Bool} {place : Fin Double.placeCount} :
    (Double.finite negative place).compare? (.zero false) = some .lt ↔
      negative = true ∧ 0 < place.val := by
  have zero : Double.unitsAt 0 = 0 := Double.unitsAt_of_lt (Nat.pow_pos (by decide))
  rw [← unitsAt_pos_iff, ← Decimal.signed_neg_iff, Double.zero, Double.ofPlace,
    dif_pos (by decide)]
  simp [Double.compare?, zero, Double.signed, Int.compare_eq_lt]

/-- A number is negative when its decimal is. -/
theorem isNegative_iff {value : Numeric} {d : Decimal} (found : value.toDecimal? = some d) :
    Expr.isNegative value = true ↔ d.unscaled < 0 := by
  rw [Expr.isNegative, beq_iff_eq]
  -- The zero that a number is compared with is a double, and doubles are compared as such.
  by_cases isDouble : ∃ x, value = .double x
  · obtain ⟨x, rfl⟩ := isDouble
    cases x with
    | finite negative place =>
        cases found
        rw [Decimal.unscaled_ofDouble_neg_iff]
        exact compare?_zero_iff
    | _ => cases found
  · have zeroValue : (Decimal.ofDouble false 0).value = 0 := by
      simp [Decimal.value]
    have zeroFound : toDecimal? (.double (.zero false)) = some (Decimal.ofDouble false 0) := rfl
    rw [compare?_of_toDecimal? found zeroFound fun x _ same => absurd ⟨x, same⟩ isDouble,
      Option.some_inj, Decimal.compare_eq_lt_iff, zeroValue, Decimal.value_neg_iff]

/-- Numbers whose decimals have one value are equal. Doubles are compared as such and not by their
decimals, so two of them have to be the same. -/
theorem numericEq_of_value_eq {value other : Numeric} {d d' : Decimal}
    (found : value.toDecimal? = some d) (found' : other.toDecimal? = some d')
    (same : d.value = d'.value)
    (doubles : ∀ x x', value = .double x → other = .double x' → x = x') :
    value.numericEq other = true := by
  rw [numericEq, beq_iff_eq]
  by_cases mixed : ∀ x x', value = .double x → other ≠ .double x'
  · rw [compare?_of_toDecimal? found found' mixed, Decimal.compare_eq_eq_iff.mpr same]
  · push Not at mixed
    obtain ⟨x, x', rfl, rfl⟩ := mixed
    cases doubles x x' rfl rfl
    cases x with
    | finite negative place => simp [compare?, Double.compare?]
    | _ => cases found

end TextTemplate.Numeric
