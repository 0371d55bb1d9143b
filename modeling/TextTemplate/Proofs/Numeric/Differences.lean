import TextTemplate.Proofs.Numeric.Order

/-! # Comparisons and differences

Numbers are compared by the values of their decimals, and a difference of whole numbers is taken of
integers. The decimal of a whole double beyond `2 ^ 53` need not be the double's integer, so the two
disagree about a whole double and an integer between its two readings. There they disagree, and
nowhere else. -/

namespace TextTemplate

/-- Two numbers compare with a third one alike unless it lies between them, the ends included. -/
theorem cmp_eq_cmp_iff {α : Type*} [LinearOrder α] {x y z : α} :
    cmp x z = cmp y z ↔ ¬(x ≠ y ∧ min x y ≤ z ∧ z ≤ max x y) := by
  unfold cmp cmpUsing
  grind

namespace Numeric

variable {left right : Numeric} {l r : Decimal} {i j : Int}

/-! ### Readings of whole doubles -/

/-- A whole double in units is its integer in units. -/
theorem signed_unitsAt_of_isIntegral {negative : Bool} {place : Fin Double.placeCount}
    (integral : (Double.finite negative place).isIntegral = true) :
    Double.signed negative (Double.unitsAt place.val) =
      Double.wholePart negative place.val * Double.unitsPerOne := by
  have whole := Double.isIntegral_finite_iff.mp integral
  rw [Double.wholePart, ← Double.signed_mul,
    Nat.div_mul_cancel (Nat.dvd_of_mod_eq_zero whole)]

/-- The decimals of whole doubles come in the order of their integers. -/
theorem cmp_wholePart {negative negative' : Bool} {place place' : Fin Double.placeCount}
    (integral : (Double.finite negative place).isIntegral = true)
    (integral' : (Double.finite negative' place').isIntegral = true) :
    cmp (Decimal.ofDouble negative place.val).value (Decimal.ofDouble negative' place'.val).value =
      cmp (Double.wholePart negative place.val) (Double.wholePart negative' place'.val) := by
  have positive : (0 : Int) < Double.unitsPerOne := Int.natCast_pos.mpr Double.unitsPerOne_pos
  simp only [cmp, cmpUsing, ← Decimal.signed_unitsAt_lt_iff, signed_unitsAt_of_isIntegral integral,
    signed_unitsAt_of_isIntegral integral', mul_lt_mul_iff_left₀ positive]

/-- Whether an integer lies between the two readings of a whole double, the integer that it is cut
to and the number that its shortest digits spell, where these differ. The ends are included. -/
def SplitsReadings (j : Int) (x : Double) : Prop :=
  x.isIntegral = true ∧ ∃ (i : Int) (v : ℚ), x.toInt? = some i ∧ value? (.double x) = some v ∧
    v ≠ i ∧ min v i ≤ j ∧ j ≤ max v (i : ℚ)

/-- An integer compares with both readings alike unless it lies between them. -/
theorem cmp_reading_eq_iff {negative : Bool} {place : Fin Double.placeCount}
    (integral : (Double.finite negative place).isIntegral = true) :
    cmp (Decimal.ofDouble negative place.val).value j = cmp (Double.wholePart negative place.val) j ↔
      ¬SplitsReadings j (.finite negative place) := by
  rw [← Int.cast_strictMono (R := ℚ) |>.cmp_map_eq, cmp_eq_cmp_iff, not_iff_not]
  constructor
  · exact fun between => ⟨integral, _, _, rfl, rfl, between⟩
  · rintro ⟨-, _, _, isInt, isValue, between⟩
    cases isInt
    cases isValue
    exact between

/-- Whether one of two numbers is a whole double and the other an integer between its readings. -/
def AreMisjudged (left right : Numeric) : Prop :=
  ∃ x j, SplitsReadings j x ∧
    (left = .double x ∧ right = .integer j ∨ left = .integer j ∧ right = .double x)

/-- Neither a decimal nor a fraction is misjudged. -/
theorem AreMisjudged.integral (misjudged : left.AreMisjudged right) :
    (left.isDecimalLike || right.isDecimalLike) = false := by
  obtain ⟨x, j, ⟨integral, -⟩, ⟨rfl, rfl⟩ | ⟨rfl, rfl⟩⟩ := misjudged <;>
    simp [isDecimalLike, integral]

/-- Numbers without a fraction compare by their values as by their integers unless they are
misjudged. -/
theorem cmp_value_eq_iff (isLeft : left.toDecimal? = some l) (isRight : right.toDecimal? = some r)
    (isInt : left.toInt? = some i) (isInt' : right.toInt? = some j)
    (integral : (left.isDecimalLike || right.isDecimalLike) = false) :
    cmp l.value r.value = cmp i j ↔ ¬left.AreMisjudged right := by
  obtain ⟨integral, integral'⟩ := Bool.or_eq_false_iff.mp integral
  -- Only a double against an integer can be misjudged: two of a kind are compared by what they are.
  cases left with
  | decimal d => cases integral
  | integer i' =>
      cases isLeft
      cases isInt
      rw [Decimal.value_ofInt]
      cases right with
      | decimal d => cases integral'
      | integer j' =>
          cases isRight
          cases isInt'
          rw [Decimal.value_ofInt, Int.cast_strictMono.cmp_map_eq]
          exact iff_of_true rfl (by simp [AreMisjudged])
      | double x =>
          cases x with
          | finite negative place =>
              cases isRight
              cases isInt'
              have whole : (Double.finite negative place).isIntegral = true := by
                simpa [isDecimalLike] using integral'
              rw [← cmp_swap, ← cmp_swap (Double.wholePart _ _), Ordering.swap_inj,
                cmp_reading_eq_iff whole]
              simp [AreMisjudged]
          | _ => cases isRight
  | double x =>
      cases x with
      | finite negative place =>
          cases isLeft
          cases isInt
          have whole : (Double.finite negative place).isIntegral = true := by
            simpa [isDecimalLike] using integral
          cases right with
          | decimal d => cases integral'
          | integer j' =>
              cases isRight
              cases isInt'
              rw [Decimal.value_ofInt, cmp_reading_eq_iff whole]
              simp [AreMisjudged]
          | double x' =>
              cases x' with
              | finite negative' place' =>
                  cases isRight
                  cases isInt'
                  have whole' : (Double.finite negative' place').isIntegral = true := by
                    simpa [isDecimalLike] using integral'
                  rw [cmp_wholePart whole whole']
                  exact iff_of_true rfl (by simp [AreMisjudged])
              | _ => cases isRight
      | _ => cases isLeft

/-! ### Signs of differences -/

/-- With a decimal or a fraction among the operands, the sign of the difference is the order. -/
theorem subtract_of_decimalLike (isLeft : left.toDecimal? = some l)
    (isRight : right.toDecimal? = some r)
    (decimalLike : (left.isDecimalLike || right.isDecimalLike) = true) :
    ∃ difference, (left.subtract right).value? = some difference ∧
      cmp difference 0 = cmp l.value r.value := by
  refine ⟨l.value - r.value, ?_, cmp_sub_zero _ _⟩
  rw [subtract, apply_of_decimalLike .subtract isLeft isRight decimalLike, value?, toDecimal?,
    Option.map_some, value_onDecimals]
  rfl

/-- Without one, it is the order of the integers. -/
theorem subtract_of_integral (isLeft : left.toInt? = some i) (isRight : right.toInt? = some j)
    (finite : left.isFinite = true) (finite' : right.isFinite = true)
    (integral : (left.isDecimalLike || right.isDecimalLike) = false) :
    ∃ difference, (left.subtract right).value? = some difference ∧
      cmp difference 0 = cmp i j := by
  refine ⟨(i - j : Int), ?_, ?_⟩
  · rw [subtract, apply_of_integral .subtract isLeft isRight finite finite' integral, value?,
      toDecimal?, Option.map_some, Decimal.value_ofInt]
    rfl
  · rw [← Int.cast_zero, Int.cast_strictMono.cmp_map_eq, cmp_sub_zero]

/-- Finite numbers compare as the sign of their difference tells just where they are not misjudged,
and so do all of them whose doubles are at most `2 ^ 53 - 1` in magnitude. -/
theorem compare?_eq_sign_iff (finite : left.isFinite = true) (finite' : right.isFinite = true) :
    ∃ difference, (left.subtract right).value? = some difference ∧
      (left.compare? right = some (cmp difference 0) ↔ ¬left.AreMisjudged right) ∧
      (left.IsModerate → right.IsModerate → left.compare? right = some (cmp difference 0)) := by
  obtain ⟨l, isLeft⟩ := exists_toDecimal? finite
  obtain ⟨r, isRight⟩ := exists_toDecimal? finite'
  rw [compare?_finite isLeft isRight]
  -- With a fraction in sight both go by decimals; else the difference goes by integers.
  cases decimalLike : left.isDecimalLike || right.isDecimalLike with
  | true =>
      obtain ⟨difference, found, sign⟩ := subtract_of_decimalLike isLeft isRight decimalLike
      refine ⟨difference, found, iff_of_true (by rw [sign]) fun misjudged => ?_,
        fun _ _ => by rw [sign]⟩
      exact Bool.noConfusion (decimalLike.symm.trans misjudged.integral)
  | false =>
      obtain ⟨i, isInt⟩ := exists_toInt? finite
      obtain ⟨j, isInt'⟩ := exists_toInt? finite'
      obtain ⟨difference, found, sign⟩ :=
        subtract_of_integral isInt isInt' finite finite' decimalLike
      refine ⟨difference, found, ?_, fun moderate moderate' => ?_⟩
      · rw [sign, Option.some_inj, cmp_value_eq_iff isLeft isRight isInt isInt' decimalLike]
      · obtain ⟨integral, integral'⟩ := Bool.or_eq_false_iff.mp decimalLike
        have value := value?_of_toInt? moderate integral isInt
        have value' := value?_of_toInt? moderate' integral' isInt'
        rw [value?, isLeft, Option.map_some, Option.some_inj] at value
        rw [value?, isRight, Option.map_some, Option.some_inj] at value'
        rw [sign, value, value', Int.cast_strictMono.cmp_map_eq]

/-- The integer `2 ^ 60` and the double of that value, whose shortest digits spell a larger number:
the difference is zero, and the integer is less. -/
theorem compare?_ne_sign_of_large :
    let integer := Numeric.integer (2 ^ 60)
    let double := Numeric.double (.ofInt (2 ^ 60))
    integer.isFinite = true ∧ double.isFinite = true ∧ integer.AreMisjudged double ∧
      integer.compare? double = some .lt ∧
      ∃ difference, (integer.subtract double).value? = some difference ∧ difference = 0 ∧
        integer.compare? double ≠ some (cmp difference 0) := by
  intro integer double
  have finite : double.isFinite = true := by decide +kernel
  have misjudged : integer.AreMisjudged double := by
    refine ⟨_, _, ⟨by decide +kernel, 2 ^ 60, 1152921504606847000, by decide +kernel, ?_, ?_⟩,
      .inr ⟨rfl, rfl⟩⟩
    · have found : double.toDecimal? = some (.ofInt 1152921504606847000) := by decide +kernel
      rw [value?, found, Option.map_some, Decimal.value_ofInt]
      rfl
    · norm_num
  have same : integer.subtract double = .integer 0 := by decide +kernel
  have finite' : integer.isFinite = true := rfl
  obtain ⟨difference, found, disagree, -⟩ := compare?_eq_sign_iff finite' finite
  refine ⟨finite', finite, misjudged, by decide +kernel, difference, found, ?_, ?_⟩
  · rw [same, value?, toDecimal?, Option.map_some, Decimal.value_ofInt, Option.some_inj] at found
    exact found.symm
  · exact fun agree => disagree.mp agree misjudged

end Numeric

end TextTemplate
