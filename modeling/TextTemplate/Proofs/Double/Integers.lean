import Mathlib.Algebra.Order.Ring.Int
import TextTemplate.Double.Arithmetic
import TextTemplate.Proofs.Decimal.Rounded

/-! # Arithmetic on whole doubles

The sum, difference, product or remainder of two whole doubles is a whole number that is rounded
once. Rounding leaves numbers below `2 ^ 53` as they are, and never takes a larger one below it; so a
result below `2 ^ 53` is exact. -/

namespace TextTemplate.Double

/-! ### Rounding -/

/-- Rounding a quotient depends on the quotient. -/
theorem roundHalfEven_mul {factor : Nat} (positive : 0 < factor) (numerator denominator : Nat) :
    roundHalfEven (numerator * factor) (denominator * factor) =
      roundHalfEven numerator denominator := by
  have below : 2 * (numerator % denominator * factor) < denominator * factor ↔
      2 * (numerator % denominator) < denominator := by
    rw [← Nat.mul_assoc, Nat.mul_lt_mul_right positive]
  have above : denominator * factor < 2 * (numerator % denominator * factor) ↔
      denominator < 2 * (numerator % denominator) := by
    rw [← Nat.mul_assoc, Nat.mul_lt_mul_right positive]
  simp only [roundHalfEven, Nat.mul_div_mul_right _ _ positive, Nat.mul_mod_mul_right, below,
    above]

/-- The place that is nearest to a quotient stays the same when the fraction is expanded. -/
theorem nearestPlace_mul {factor : Nat} (positive : 0 < factor) (numerator denominator : Nat) :
    nearestPlace (numerator * factor) (denominator * factor) =
      nearestPlace numerator denominator := by
  simp only [nearestPlace, Nat.mul_div_mul_right _ _ positive]
  rw [Nat.mul_right_comm, roundHalfEven_mul positive]

/-- A quotient is not rounded below its whole part. -/
theorem le_roundHalfEven (numerator denominator : Nat) :
    numerator / denominator ≤ roundHalfEven numerator denominator := by
  simp only [roundHalfEven]
  split_ifs <;> omega

/-- A quotient is not rounded below a power of two that it reaches, if it has 53 binary digits. -/
theorem two_pow_le_unitsAt_nearestPlace {bits numerator denominator : Nat} (many : 52 ≤ bits)
    (large : 2 ^ bits ≤ numerator / denominator) :
    2 ^ bits ≤ unitsAt (nearestPlace numerator denominator) := by
  have nonzero : numerator / denominator ≠ 0 :=
    (lt_of_lt_of_le (Nat.pow_pos (by decide)) large).ne'
  obtain ⟨low, -⟩ := (Nat.log2_eq_iff nonzero).mp rfl
  have digits : bits ≤ Nat.log2 (numerator / denominator) := (Nat.le_log2 nonzero).mpr large
  obtain ⟨block, size⟩ := Nat.exists_eq_add_of_le (le_trans many digits)
  rw [size] at digits low
  have whole : 2 ^ 52 ≤ roundHalfEven numerator (denominator * Nat.pow 2 block) := by
    refine le_trans ?_ (le_roundHalfEven _ _)
    rw [← Nat.div_div_eq_div_mul, Nat.pow_eq, Nat.le_div_iff_mul_le (Nat.pow_pos (by decide)),
      ← pow_add]
    exact low
  have place : 2 ^ 52 + block * 2 ^ 52 ≤ nearestPlace numerator denominator := by
    simp only [nearestPlace, size, Nat.add_sub_cancel_left]
    exact Nat.add_le_add_right whole _
  calc 2 ^ bits ≤ 2 ^ (52 + block) := Nat.pow_le_pow_right (by decide) digits
    _ = unitsAt (2 ^ 52 + block * 2 ^ 52) := by
      rw [unitsAt_block block (Nat.le_refl _) (by decide), pow_add]
    _ ≤ unitsAt (nearestPlace numerator denominator) := unitsAt_strictMono.monotone place

/-- A number of more than 53 binary digits is not rounded below all numbers that have more. -/
theorem le_unitsAt_nearestPlace {number : Nat} (large : 2 ^ 53 ≤ number) :
    2 ^ 53 * unitsPerOne ≤ unitsAt (nearestPlace (number * unitsPerOne) 1) := by
  unfold unitsPerOne
  -- The exponent stays a variable, so that no power is calculated.
  generalize 1074 = bits
  rw [Nat.pow_eq, ← pow_add]
  refine two_pow_le_unitsAt_nearestPlace (by omega) ?_
  rw [Nat.div_one, pow_add]
  exact Nat.mul_le_mul_right _ large

/-! ### Whole doubles -/

/-- Whether a double is a whole number of a sign and a magnitude. -/
def IsWhole (x : Double) (negative : Bool) (number : Nat) : Prop :=
  ∃ place : Fin placeCount, x = .finite negative place ∧ unitsAt place.val = number * unitsPerOne

/-- There are units in a one. -/
theorem unitsPerOne_pos : 0 < unitsPerOne := by
  unfold unitsPerOne
  generalize 1074 = bits
  exact Nat.pow_pos (by decide)

variable {x y : Double} {negative negative' : Bool} {number number' : Nat}

/-- A finite double is an integer just where its magnitude is a whole number of ones. -/
theorem isIntegral_finite_iff {place : Fin placeCount} :
    (finite negative place).isIntegral = true ↔ unitsAt place.val % unitsPerOne = 0 := by
  rw [isIntegral, beq_iff_eq]

/-- The integer of a whole double. -/
theorem IsWhole.toInt?_eq (whole : IsWhole x negative number) :
    x.toInt? = some (signed negative number) := by
  obtain ⟨place, rfl, units⟩ := whole
  rw [toInt?, wholePart, units, Nat.mul_div_cancel _ unitsPerOne_pos]

/-- A whole double with the other sign. -/
theorem IsWhole.neg (whole : IsWhole x negative number) : IsWhole x.neg (!negative) number := by
  obtain ⟨place, rfl, units⟩ := whole
  exact ⟨place, rfl, units⟩

/-- A natural number is converted to what is nearest to it. -/
theorem ofInt_natCast (number : Nat) :
    ofInt number = nearest false (number * unitsPerOne) 1 := by
  rw [ofInt, Int.natAbs_natCast, decide_eq_false (Int.not_lt.mpr (Int.natCast_nonneg number))]

/-- Whole numbers below `2 ^ 53` are rounded to themselves. -/
theorem isWhole_nearest (negative : Bool) (small : number < 2 ^ 53) :
    IsWhole (nearest negative (number * unitsPerOne) 1) negative number := by
  rcases Nat.eq_zero_or_pos number with rfl | positive
  · refine ⟨⟨0, by decide⟩, ?_, ?_⟩
    · rw [Nat.zero_mul]
      rfl
    · rw [Nat.zero_mul]
      exact unitsAt_of_lt (Nat.pow_pos (by decide))
  · obtain ⟨place, -, bounded, -, units, nearest⟩ := exists_place positive small
    exact ⟨⟨place, bounded⟩, by rw [Double.nearest, nearest, ofPlace, dif_pos bounded], units⟩

/-- A whole double is known from its sign and magnitude. -/
theorem IsWhole.eq (whole : IsWhole x negative number) (other : IsWhole y negative number) :
    x = y := by
  obtain ⟨place, rfl, units⟩ := whole
  obtain ⟨place', rfl, units'⟩ := other
  rw [Fin.ext (unitsAt_strictMono.injective (units.trans units'.symm))]

/-- The decimal of a whole double below `2 ^ 53` is the whole number. -/
theorem IsWhole.value_ofDouble {place : Fin placeCount}
    (whole : IsWhole (.finite negative place) negative number) (small : number < 2 ^ 53) :
    (Decimal.ofDouble negative place.val).value = signed negative number := by
  obtain ⟨place', nearest, -, exact⟩ := Decimal.exists_ofDouble negative small
  have same := whole.eq (isWhole_nearest negative small)
  rw [nearest, Double.finite.injEq] at same
  rw [same.2, exact]

/-! ### Rounded results -/

/-- Whether a double is what an integer is rounded to, with either sign if it is zero. -/
def Rounds (x : Double) (integer : Int) : Prop :=
  ∃ negative number, x = nearest negative (number * unitsPerOne) 1 ∧
    signed negative number = integer

/-- The sign of a product with a natural number is that of the other factor. -/
theorem signed_mul (negative : Bool) (number factor : Nat) :
    signed negative (number * factor) = signed negative number * factor := by
  cases negative <;> simp [signed]

/-- The opposite sign gives the opposite number. -/
theorem signed_not (negative : Bool) (number : Nat) :
    signed (!negative) number = -signed negative number := by
  cases negative <;> simp [signed]

/-- The sum of whole doubles is their sum rounded. -/
theorem IsWhole.add (left : IsWhole x negative number) (right : IsWhole y negative' number') :
    Rounds (x.add y) (signed negative number + signed negative' number') := by
  obtain ⟨place, rfl, units⟩ := left
  obtain ⟨place', rfl, units'⟩ := right
  have sum : signed negative (unitsAt place.val) + signed negative' (unitsAt place'.val) =
      (signed negative number + signed negative' number') * unitsPerOne := by
    rw [units, units', signed_mul, signed_mul, Int.add_mul]
  have positive : (0 : Int) < unitsPerOne := Int.natCast_pos.mpr unitsPerOne_pos
  simp only [Double.add, sum]
  generalize signed negative number + signed negative' number' = total
  -- A sum that is zero has a sign of its own, which the integer does not have.
  split_ifs with none
  · have zero : total = 0 := (Int.mul_eq_zero.mp none).resolve_right positive.ne'
    refine ⟨negative && negative', 0, ?_, ?_⟩
    · rw [Nat.zero_mul]
      rfl
    · subst zero
      cases negative && negative' <;> rfl
  · have sign : total * unitsPerOne < 0 ↔ total < 0 := by
      have scaled := mul_lt_mul_iff_left₀ (b := total) (c := 0) positive
      rwa [Int.zero_mul] at scaled
    refine ⟨decide (total < 0), total.natAbs, ?_, ?_⟩
    · rw [decide_eq_decide.mpr sign, Int.natAbs_mul, Int.natAbs_natCast]
    · simp only [signed, decide_eq_true_eq]
      split_ifs <;> omega

/-- The difference of whole doubles is their difference rounded. -/
theorem IsWhole.sub (left : IsWhole x negative number) (right : IsWhole y negative' number') :
    Rounds (x.sub y) (signed negative number - signed negative' number') := by
  have sum := left.add right.neg
  rwa [signed_not, ← Int.sub_eq_add_neg] at sum

/-- The product of whole doubles is their product rounded. -/
theorem IsWhole.mul (left : IsWhole x negative number) (right : IsWhole y negative' number') :
    Rounds (x.mul y) (signed negative number * signed negative' number') := by
  obtain ⟨place, rfl, units⟩ := left
  obtain ⟨place', rfl, units'⟩ := right
  refine ⟨negative != negative', number * number', ?_, ?_⟩
  -- Units are multiplied with units, so the product is a quotient by units.
  · have scaled := nearestPlace_mul unitsPerOne_pos (number * number' * unitsPerOne) 1
    rw [Nat.one_mul] at scaled
    rw [Double.mul, nearest, nearest, units, units', ← scaled, Nat.mul_mul_mul_comm,
      ← Nat.mul_assoc]
  · cases negative <;> cases negative' <;> simp [signed]

/-- The remainder of whole doubles is their remainder rounded, if there is one. -/
theorem IsWhole.rem (left : IsWhole x negative number) (right : IsWhole y negative' number') :
    x.rem y = .nan ∨ Rounds (x.rem y) ((signed negative number).tmod (signed negative' number')) := by
  obtain ⟨place, rfl, units⟩ := left
  obtain ⟨place', rfl, units'⟩ := right
  simp only [Double.rem]
  split_ifs
  · exact .inl rfl
  · refine .inr ⟨negative, number % number', ?_, ?_⟩
    · rw [units, units', Nat.mul_mod_mul_right]
    · cases negative <;> cases negative' <;> simp [signed, Int.neg_tmod, Int.tmod_eq_emod_of_nonneg]

end TextTemplate.Double
