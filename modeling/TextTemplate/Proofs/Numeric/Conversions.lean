import TextTemplate.Proofs.Double.Rounding
import TextTemplate.Proofs.Numeric.Order
import TextTemplate.Proofs.Numeric.Spelling

/-! # Conversions depend on the value

Whether a number is a whole number below `2 ^ 53`, and which, is told by its value alone, and so is
the double that it is converted to unless it is a decimal. -/

namespace TextTemplate

namespace Decimal

/-! ### Decimals of doubles -/

/-- The zeros of both signs alone have the decimal zero. -/
theorem place_pos_of_value_ne_zero {negative : Bool} {place : Nat}
    (nonzero : (ofDouble negative place).value ≠ 0) : 0 < place := by
  refine Nat.pos_of_ne_zero fun none => nonzero ?_
  rw [none, ofDouble_zero, value_eq_zero_iff]

/-- A double other than zero is known from the value of its decimal. -/
theorem ofDouble_inj {negative negative' : Bool} {place place' : Nat}
    (nonzero : (ofDouble negative place).value ≠ 0)
    (same : (ofDouble negative place).value = (ofDouble negative' place').value) :
    negative = negative' ∧ place = place' := by
  have positive := place_pos_of_value_ne_zero nonzero
  have positive' := place_pos_of_value_ne_zero (same ▸ nonzero)
  have sign : negative = negative' := by
    have below := value_neg_iff (d := ofDouble negative place)
    rw [same, value_neg_iff, unscaled_ofDouble_neg_iff, unscaled_ofDouble_neg_iff,
      and_iff_left positive, and_iff_left positive'] at below
    exact (Bool.eq_iff_iff.mpr below).symm
  subst sign
  refine ⟨rfl, value_ofDouble_strictMono.injective ?_⟩
  rw [value_ofDouble, value_ofDouble negative place'] at same
  cases negative
  · exact same
  · exact neg_injective same

end Decimal

/-! ### Whole numbers -/

/-- A decimal has the value of an integer just where nothing but zeros stands after its point and the
integer before it. -/
theorem Decimal.isIntegral_and_truncated_iff {d : Decimal} {n : Int} :
    d.isIntegral = true ∧ d.truncated = n ↔ d.value = n := by
  unfold isIntegral truncated
  by_cases whole : d.scale ≤ 0
  · have digits := cast_unscaledAt whole
    rw [zpow_zero, mul_one] at digits
    simp [whole, ← digits]
  · obtain ⟨places, scale⟩ := Int.eq_ofNat_of_zero_le (show 0 ≤ d.scale by omega)
    have positive := tenPow_pos places
    have power : (tenPow places : ℚ) ≠ 0 := by exact_mod_cast positive.ne'
    -- The digits after the point are what is left of a division by a power of ten.
    have split := Int.mul_tdiv_add_tmod d.unscaled (tenPow places)
    have digits : d.value = n ↔ d.unscaled = n * tenPow places := by
      rw [value, scale, zpow_neg, zpow_natCast, ← cast_tenPow, ← div_eq_mul_inv, div_eq_iff power]
      exact_mod_cast Iff.rfl
    rw [scale] at whole
    simp only [scale, whole, decide_false, Bool.false_or, if_false, beq_iff_eq, Int.toNat_natCast,
      digits]
    constructor
    · rintro ⟨none, rfl⟩
      rw [none, add_zero, mul_comm] at split
      exact split.symm
    · intro same
      rw [same]
      exact ⟨Int.mul_tmod_left _ _, Int.mul_tdiv_cancel _ positive.ne'⟩

/-- A double beyond `2 ^ 53` has no fraction. -/
theorem Double.unitsAt_mod_of_large {place : Nat} (large : 2 ^ 53 * unitsPerOne ≤ unitsAt place) :
    unitsAt place % unitsPerOne = 0 := by
  unfold unitsPerOne at *
  -- The exponent stays a variable, so that no power is calculated.
  generalize 1074 = bits at *
  rw [Nat.pow_eq] at *
  have unit : 1 ≤ 2 ^ bits := Nat.one_le_two_pow
  rcases Nat.lt_or_ge place (Nat.pow 2 52) with first | later
  · rw [unitsAt_of_lt first] at large
    simp only [Nat.pow_eq] at first
    omega
  · rw [unitsAt_of_ge later] at large ⊢
    have digits : Nat.pow 2 52 + place % Nat.pow 2 52 < 2 ^ 53 := by
      simp only [Nat.pow_eq]
      omega
    have many : bits ≤ place / Nat.pow 2 52 - 1 := by
      by_contra! few
      have less : Nat.pow 2 (place / Nat.pow 2 52 - 1) ≤ 2 ^ bits :=
        Nat.pow_le_pow_right (by decide) few.le
      have small := Nat.mul_lt_mul_of_lt_of_le digits less (Nat.pow_pos (by decide))
      exact absurd large (Nat.not_le.mpr small)
    exact Nat.mod_eq_zero_of_dvd (Dvd.dvd.mul_left (pow_dvd_pow 2 many) _)

/-- An integer is converted to a double without a fraction. -/
theorem Double.isIntegral_of_ofInt {negative : Bool} {place : Fin placeCount} {number : Int}
    (isPlace : ofInt number = finite negative place) :
    (finite negative place).isIntegral = true := by
  rw [ofInt] at isPlace
  rcases Nat.lt_or_ge number.natAbs (2 ^ 53) with small | large
  · obtain ⟨_, same, units⟩ := isWhole_nearest (decide (number < 0)) small
    rw [isPlace] at same
    cases same
    exact isIntegral_finite_iff.mpr (by rw [units, Nat.mul_mod_left])
  · have above := le_unitsAt_nearestPlace large
    rw [nearest, ofPlace] at isPlace
    split_ifs at isPlace
    cases isPlace
    exact isIntegral_finite_iff.mpr (unitsAt_mod_of_large above)

/-- A double is an integer just where it is a whole number of that sign and magnitude. -/
theorem Double.isIntegral_and_toInt?_iff {negative : Bool} {place : Fin placeCount} {number : Int} :
    (finite negative place).isIntegral = true ∧ (finite negative place).toInt? = some number ↔
      (finite negative place).IsWhole negative number.natAbs ∧
        signed negative number.natAbs = number := by
  constructor
  · rintro ⟨integral, found⟩
    have whole := isIntegral_finite_iff.mp integral
    rw [toInt?, wholePart, Option.some_inj] at found
    have magnitude := congrArg Int.natAbs found
    rw [Decimal.natAbs_signed] at magnitude
    rw [← magnitude]
    exact ⟨⟨place, rfl, (Nat.div_mul_cancel (Nat.dvd_of_mod_eq_zero whole)).symm⟩, found⟩
  · rintro ⟨whole, sign⟩
    refine ⟨?_, by rw [whole.toInt?_eq, sign]⟩
    obtain ⟨place', same, units⟩ := whole
    cases same
    exact isIntegral_finite_iff.mpr (by rw [units, Nat.mul_mod_left])

namespace Numeric

variable {left right : Numeric} {l r : Decimal} {n : Int}

/-- A number is a whole number below `2 ^ 53` just where its value is. -/
theorem isIntegral_and_toInt?_iff (found : left.toDecimal? = some l) (small : n.natAbs < 2 ^ 53) :
    left.isIntegral = true ∧ left.toInt? = some n ↔ l.value = n := by
  cases left with
  | integer i =>
      cases found
      simp [isIntegral, toInt?]
  | decimal d =>
      cases found
      rw [← Decimal.isIntegral_and_truncated_iff]
      simp [isIntegral, toInt?]
  | double x =>
      cases x with
      | finite negative place =>
          cases found
          refine Double.isIntegral_and_toInt?_iff.trans ⟨?_, fun same => ?_⟩
          · rintro ⟨whole, sign⟩
            rw [whole.value_ofDouble small, sign]
          · -- The sign of a zero is no part of its value, so a zero is looked at apart.
            rcases Nat.eq_zero_or_pos place.val with none | positive
            · have zero : n = 0 := by
                rw [none, Decimal.ofDouble_zero, Decimal.value_eq_zero_iff.mpr rfl] at same
                exact_mod_cast same.symm
              subst zero
              refine ⟨⟨place, rfl, ?_⟩, by cases negative <;> rfl⟩
              rw [none, Int.natAbs_zero, Nat.zero_mul]
              exact Double.unitsAt_of_lt (Nat.pow_pos (by decide))
            · have rounded := Decimal.ofInt_eq_of_value positive same
              have whole := Double.isWhole_nearest (decide (n < 0)) small
              rw [Double.ofInt] at rounded
              rw [rounded] at whole
              obtain ⟨_, isPlace, -⟩ := id whole
              obtain rfl := (Double.finite.inj isPlace).1
              exact ⟨whole, signed_natAbs n⟩
      | _ => cases found

/-! ### Doubles -/

/-- Whether a number is stored as a decimal. -/
def IsDecimal (number : Numeric) : Prop := ∃ d, number = .decimal d

/-- Whether two numbers are converted to the same double if one of them is a decimal. -/
def ConvertAlike (left right : Numeric) : Prop :=
  left.IsDecimal ∨ right.IsDecimal → left.toDouble = right.toDouble

/-- The double of which an integer other than zero has the shortest digits is the one that the
integer is converted to. -/
theorem ofInt_eq_of_toDecimal? {x : Double} {i : Int} (found : toDecimal? (.double x) = some l)
    (same : l.value = i) (nonzero : i ≠ 0) : Double.ofInt i = x := by
  cases x with
  | finite negative place =>
      cases found
      exact Decimal.ofInt_eq_of_value
        (Decimal.place_pos_of_value_ne_zero (by rw [same]; exact_mod_cast nonzero)) same
  | _ => cases found

/-- Numbers of one value other than zero are converted to the same double, unless one of them is a
decimal that is rounded in another way. -/
theorem toDouble_eq_of_value_eq (isLeft : left.toDecimal? = some l)
    (isRight : right.toDecimal? = some r) (same : l.value = r.value) (nonzero : l.value ≠ 0)
    (alike : left.ConvertAlike right) : left.toDouble = right.toDouble := by
  -- Decimals are rounded in a way of their own, so those cases are what is assumed of the numbers.
  cases left with
  | decimal d => exact alike (.inl ⟨d, rfl⟩)
  | integer i =>
      cases isLeft
      rw [Decimal.value_ofInt] at same nonzero
      cases right with
      | decimal d => exact alike (.inr ⟨d, rfl⟩)
      | integer j =>
          cases isRight
          rw [Decimal.value_ofInt, Int.cast_inj] at same
          rw [same]
      | double x => exact ofInt_eq_of_toDecimal? isRight same.symm (by exact_mod_cast nonzero)
  | double x =>
      cases right with
      | decimal d => exact alike (.inr ⟨d, rfl⟩)
      | integer j =>
          cases isRight
          rw [Decimal.value_ofInt] at same
          rw [same] at nonzero
          exact (ofInt_eq_of_toDecimal? isLeft same (by exact_mod_cast nonzero)).symm
      | double x' =>
          cases x with
          | finite negative place =>
              cases x' with
              | finite negative' place' =>
                  cases isLeft
                  cases isRight
                  obtain ⟨rfl, isPlace⟩ := Decimal.ofDouble_inj nonzero same
                  rw [Fin.ext isPlace]
              | _ => cases isRight
          | _ => cases isLeft

/-- A double of which an integer has the shortest digits has no fraction. -/
theorem isDecimalLike_of_integer {x : Double} {i : Int} (found : toDecimal? (.double x) = some l)
    (same : l.value = i) : isDecimalLike (.double x) = false := by
  have integral : x.isIntegral = true := by
    by_cases zero : i = 0
    · subst zero
      exact ((isIntegral_and_toInt?_iff found (by decide)).mpr same).1
    · have rounded := ofInt_eq_of_toDecimal? found same zero
      cases x with
      | finite negative place => exact Double.isIntegral_of_ofInt rounded
      | _ => cases found
  rw [isDecimalLike, integral, Bool.not_true]

/-- Numbers of one value make arithmetic decimal alike if neither of them is stored as a decimal. -/
theorem isDecimalLike_eq_of_value_eq (isLeft : left.toDecimal? = some l)
    (isRight : right.toDecimal? = some r) (same : l.value = r.value) (stored : ¬left.IsDecimal)
    (stored' : ¬right.IsDecimal) : left.isDecimalLike = right.isDecimalLike := by
  cases left with
  | decimal d => exact absurd ⟨d, rfl⟩ stored
  | integer i =>
      cases isLeft
      rw [Decimal.value_ofInt] at same
      cases right with
      | decimal d => exact absurd ⟨d, rfl⟩ stored'
      | integer j => rfl
      | double x => exact (isDecimalLike_of_integer isRight same.symm).symm
  | double x =>
      cases right with
      | decimal d => exact absurd ⟨d, rfl⟩ stored'
      | integer j =>
          cases isRight
          rw [Decimal.value_ofInt] at same
          exact isDecimalLike_of_integer isLeft same
      | double x' =>
          -- Doubles of the same value are the same, except for the two zeros.
          by_cases zero : l.value = 0
          · rw [isDecimalLike_of_integer isLeft (i := 0) (by simpa using zero),
              isDecimalLike_of_integer isRight (i := 0) (by simpa [← same] using zero)]
          · obtain rfl : x = x' := toDouble_eq_of_value_eq isLeft isRight same zero
              fun decimal => absurd decimal (not_or.mpr ⟨stored, stored'⟩)
            rfl

end Numeric

end TextTemplate
