import Mathlib.Data.Int.ModEq
import TextTemplate.Proofs.Numeric.Conversions

/-! # Numbers reduced to 32 bits

Operators on bits take the whole part of a number modulo `2 ^ 32`. A double is reduced by a
remainder of doubles, in which nothing is rounded, and any other number by a remainder of integers
that is moved up if it is negative. Both are the remainder that is never negative, and so the sum of
whole numbers is reduced to the sum of their remainders. -/

namespace TextTemplate

/-! ### Remainders of doubles -/

namespace Double

variable {x y : Double} {negative negative' : Bool} {number modulus : Nat}

/-- The magnitude of a double is rounded to its own place. -/
theorem nearestPlace_unitsAt (place : Nat) : nearestPlace (unitsAt place) 1 = place := by
  rcases Nat.eq_zero_or_pos place with rfl | positive
  · rw [unitsAt_of_lt (Nat.pow_pos (by decide))]
    rfl
  · have found := nearestPlace_of_roundsTo (roundsTo_self positive)
    rw [decimalUnitsAt] at found
    generalize 1074 = exponent at found
    rw [← nearestPlace_mul (pow_five_pos exponent), Nat.one_mul, found]

/-- A division that rounds toward zero leaves the sign alone. -/
theorem signed_div (negative : Bool) (number divisor : Nat) :
    signed negative (number / divisor) = (signed negative number).tdiv divisor := by
  cases negative with
  | false => rfl
  | true => exact (Int.neg_tdiv number divisor).symm

/-- Without its fraction a double is a whole number: one that has none stays as it is, and one that
has a fraction is below `2 ^ 53`. -/
theorem isWhole_trunc (negative : Bool) (place : Fin placeCount) :
    IsWhole (finite negative place).trunc negative (unitsAt place.val / unitsPerOne) := by
  rcases Nat.lt_or_ge (unitsAt place.val / unitsPerOne) (2 ^ 53) with small | large
  · exact isWhole_nearest negative small
  · have integral := unitsAt_mod_of_large ((Nat.le_div_iff_mul_le unitsPerOne_pos).mp large)
    have same := Nat.div_mul_cancel (Nat.dvd_of_mod_eq_zero integral)
    refine ⟨place, ?_, same.symm⟩
    rw [trunc, same, nearest, nearestPlace_unitsAt, ofPlace, dif_pos place.isLt]

/-- What an integer below `2 ^ 53` is rounded to is the integer. -/
theorem Rounds.toInt?_eq {integer : Int} (rounds : Rounds x integer)
    (small : integer.natAbs < 2 ^ 53) : x.toInt? = some integer := by
  obtain ⟨negative, number, rfl, rfl⟩ := rounds
  rw [Decimal.natAbs_signed] at small
  exact (isWhole_nearest negative small).toInt?_eq

/-- The remainder of whole doubles is exact if the divisor is small. -/
theorem IsWhole.rem_eq (whole : IsWhole x negative number) (divisor : IsWhole y negative' modulus)
    (positive : 0 < modulus) (small : modulus ≤ 2 ^ 53) :
    IsWhole (x.rem y) negative (number % modulus) := by
  obtain ⟨place, rfl, units⟩ := whole
  obtain ⟨place', rfl, units'⟩ := divisor
  have nonzero : place'.val ≠ 0 := by
    intro zero
    rw [zero, unitsAt_of_lt (Nat.pow_pos (by decide))] at units'
    exact absurd units' (Nat.mul_pos positive unitsPerOne_pos).ne
  rw [Double.rem, if_neg nonzero, units, units', Nat.mul_mod_mul_right]
  exact isWhole_nearest negative (lt_of_lt_of_le (Nat.mod_lt number positive) small)

/-- A whole double is less than zero when its integer is. -/
theorem IsWhole.compare?_zero_iff (whole : IsWhole x negative number) :
    x.compare? (zero false) = some .lt ↔ signed negative number < 0 := by
  obtain ⟨place, rfl, units⟩ := whole
  rw [Numeric.compare?_zero_iff, Decimal.signed_neg_iff, ← Numeric.unitsAt_pos_iff, units,
    Nat.mul_pos_iff_of_pos_right unitsPerOne_pos]

/-- The remainder of a signed number, from the one of its magnitude. -/
theorem signed_emod (negative : Bool) (number modulus : Nat) :
    signed negative number % modulus = signed negative (number % modulus) % modulus := by
  have congruent : ((number % modulus : Nat) : Int) ≡ number [ZMOD modulus] := by
    rw [Int.natCast_mod]
    exact Int.mod_modEq number modulus
  cases negative with
  | false => exact congruent.symm
  | true => exact congruent.symm.neg

/-- The remainder that is never negative is the one of the integers. -/
theorem IsWhole.toInt?_remEuclid (whole : IsWhole x negative number)
    (divisor : IsWhole y false modulus) (positive : 0 < modulus) (small : modulus ≤ 2 ^ 53) :
    (x.remEuclid y).toInt? = some (signed negative number % modulus) := by
  have remainder := whole.rem_eq divisor positive small
  have below := Nat.mod_lt number positive
  rw [signed_emod, remEuclid]
  generalize number % modulus = rest at remainder below ⊢
  split
  next less =>
    -- A negative remainder is moved up by the divisor, and the sum is too small to be rounded.
    have isNegative := remainder.compare?_zero_iff.mp less
    have magnitude : IsWhole y.abs false modulus := by
      obtain ⟨place, rfl, units⟩ := divisor
      exact ⟨place, rfl, units⟩
    have sum : signed negative rest + signed false modulus = signed negative rest % modulus := by
      have size := Decimal.natAbs_signed negative rest
      rw [← Int.add_emod_right, Int.emod_eq_of_lt (by omega) (by omega)]
      rfl
    rw [← sum]
    refine (remainder.add magnitude).toInt?_eq ?_
    have size := Decimal.natAbs_signed negative rest
    have top : signed false modulus = modulus := rfl
    omega
  next notLess =>
    have nonnegative := remainder.compare?_zero_iff.not.mp notLess
    have size := Decimal.natAbs_signed negative rest
    rw [remainder.toInt?_eq, Int.emod_eq_of_lt (by omega) (by omega)]

end Double

/-! ### Whole parts -/

namespace Decimal

/-- An integer is its own whole part. -/
@[simp] theorem wholePart_intCast (number : Int) : wholePart number = number := by
  have quotient := wholePart_div number 1
  rwa [Int.cast_one, div_one, Int.tdiv_one] at quotient

/-- What stands before the point is the whole part of the value. -/
theorem truncated_eq (d : Decimal) : d.truncated = wholePart d.value := by
  unfold truncated
  split
  next whole =>
    have digits := cast_unscaledAt whole
    rw [zpow_zero, mul_one] at digits
    rw [← digits, wholePart_intCast]
  next pointed =>
    obtain ⟨places, scale⟩ := Int.eq_ofNat_of_zero_le (show 0 ≤ d.scale by omega)
    rw [value, scale, zpow_neg, zpow_natCast, ← cast_tenPow, ← div_eq_mul_inv, wholePart_div,
      Int.toNat_natCast]

end Decimal

namespace Numeric

variable {left right : Numeric} {i j : Int}

/-- The rational number that a number is. A double counts units, whatever its shortest digits
spell. -/
def rational? : Numeric → Option ℚ
  | .double (.finite negative place) =>
      some (Double.signed negative (Double.unitsAt place.val) / Double.unitsPerOne)
  | .double _ => none
  | .integer i => some i
  | .decimal d => some d.value

/-- The integer of a number is its whole part. -/
theorem exists_rational? (found : left.toInt? = some i) :
    ∃ x, left.rational? = some x ∧ i = Decimal.wholePart x := by
  cases left with
  | double x =>
      cases x with
      | finite negative place =>
          cases found
          refine ⟨_, rfl, ?_⟩
          have quotient := Decimal.wholePart_div
            (Double.signed negative (Double.unitsAt place.val)) Double.unitsPerOne
          rw [Int.cast_natCast] at quotient
          rw [quotient, Double.wholePart, Double.signed_div]
      | _ => cases found
  | integer number =>
      cases found
      exact ⟨_, rfl, (Decimal.wholePart_intCast i).symm⟩
  | decimal d =>
      cases found
      exact ⟨_, rfl, Decimal.truncated_eq d⟩

/-! ### 32 bits -/

/-- A remainder that rounds toward zero, moved up if it is negative, is the one that is never
negative. -/
theorem tmod_moved (number : Int) :
    (if number.tmod (2 ^ 32) < 0 then number.tmod (2 ^ 32) + 2 ^ 32 else number.tmod (2 ^ 32)) =
      number % 2 ^ 32 := by
  rw [Int.tmod_eq_emod]
  split_ifs <;> omega

/-- Words have 32 bits. -/
theorem cast_modulus : ((Nat.pow 2 32 : Nat) : Int) = 2 ^ 32 := by norm_num

/-- A double is reduced to its remainder of doubles. -/
theorem toUInt32_double {x : Double}
    (remainder : (x.trunc.remEuclid (.ofInt (Nat.pow 2 32))).toInt? = some i) :
    (Numeric.double x).toUInt32 = i.toNat.toUInt32 := by
  rw [toUInt32, remainder]

/-- Both ways to 32 bits take the remainder of the integer. -/
theorem toNat_toUInt32 (found : left.toInt? = some i) :
    (left.toUInt32.toNat : Int) = i % 2 ^ 32 := by
  have bounds : 0 ≤ i % 2 ^ 32 ∧ i % 2 ^ 32 < 2 ^ 32 := by omega
  have reduced : left.toUInt32 = (i % 2 ^ 32).toNat.toUInt32 := by
    cases left with
    | double x =>
        cases x with
        | finite negative place =>
            have modulus := Double.isWhole_nearest false (show Nat.pow 2 32 < 2 ^ 53 by decide)
            rw [← Double.ofInt_natCast] at modulus
            have remainder := (Double.isWhole_trunc negative place).toInt?_remEuclid modulus
              (by decide) (by decide)
            cases found
            rw [toUInt32_double remainder, cast_modulus, Double.wholePart]
        | _ => cases found
    | _ => simp only [toUInt32, found, cast_modulus, tmod_moved]
  rw [reduced, Nat.toUInt32_eq, UInt32.toNat_ofNat', Nat.mod_eq_of_lt (by omega),
    Int.toNat_of_nonneg bounds.1]

/-- A word read with a sign is congruent to the word and lies in the signed range. -/
theorem toInt_toInt32 (word : UInt32) :
    word.toInt32.toInt ≡ word.toNat [ZMOD 2 ^ 32] ∧ -2 ^ 31 ≤ word.toInt32.toInt ∧
      word.toInt32.toInt < 2 ^ 31 := by
  have balanced : word.toInt32.toInt = (word.toNat : Int).bmod (2 ^ 32) := by
    rw [← Int32.toInt_toBitVec]
    exact BitVec.toInt_eq_toNat_bmod word.toBitVec
  have lower := Int.le_bmod (x := word.toNat) (m := 2 ^ 32) (by decide)
  have upper := Int.bmod_lt (x := word.toNat) (m := 2 ^ 32) (by decide)
  rw [balanced]
  refine ⟨?_, by omega, by omega⟩
  exact Int.bmod_emod

/-! ### Sums -/

/-- A moderate whole number stands for its integer. -/
theorem value?_of_isIntegral (moderate : left.IsModerate) (integral : left.isIntegral = true)
    (found : left.toInt? = some i) : left.value? = some ↑i := by
  cases left with
  | double x => exact value?_of_toInt? moderate (congrArg not integral) found
  | integer number => exact value?_of_toInt? moderate rfl found
  | decimal d =>
      cases found
      exact congrArg some (Decimal.isIntegral_and_truncated_iff.mp ⟨integral, rfl⟩)

/-- The integer of a sum of moderate whole numbers is the sum of their integers. -/
theorem toInt?_add (finite : left.isFinite = true) (finite' : right.isFinite = true)
    (moderate : left.IsModerate) (moderate' : right.IsModerate) (integral : left.isIntegral = true)
    (integral' : right.isIntegral = true) (found : left.toInt? = some i)
    (found' : right.toInt? = some j) : (left.add right).toInt? = some (i + j) := by
  cases decimalLike : left.isDecimalLike || right.isDecimalLike with
  | true =>
      obtain ⟨d, isLeft⟩ := exists_toDecimal? finite
      obtain ⟨d', isRight⟩ := exists_toDecimal? finite'
      have value := value?_of_isIntegral moderate integral found
      have value' := value?_of_isIntegral moderate' integral' found'
      rw [value?, isLeft, Option.map_some, Option.some_inj] at value
      rw [value?, isRight, Option.map_some, Option.some_inj] at value'
      rw [add, apply_of_decimalLike .add isLeft isRight decimalLike, toInt?, Decimal.truncated_eq,
        value_onDecimals, value, value']
      exact congrArg some ((congrArg Decimal.wholePart (Int.cast_add i j).symm).trans
        (Decimal.wholePart_intCast (i + j)))
  | false =>
      rw [add, apply_of_integral .add found found' finite finite' decimalLike]
      rfl

/-- A finite number is reduced to the remainder of its whole part, with a sign or without one, and
the sum of whole numbers is reduced to the sum of what they are reduced to. A double that is added
must not be so large that its shortest digits do not tell its value. -/
theorem toUInt32_eq_emod (finite : left.isFinite = true) :
    (∃ x i, left.rational? = some x ∧ left.toInt? = some i ∧ i = Decimal.wholePart x ∧
      (left.toUInt32.toNat : Int) = i % 2 ^ 32 ∧
      left.toInt32.toInt ≡ i [ZMOD 2 ^ 32] ∧ -2 ^ 31 ≤ left.toInt32.toInt ∧
      left.toInt32.toInt < 2 ^ 31) ∧
    ∀ right : Numeric, right.isFinite = true → left.isIntegral = true → right.isIntegral = true →
      left.IsModerate → right.IsModerate →
      (left.add right).toUInt32.toNat =
        (left.toUInt32.toNat + right.toUInt32.toNat) % 2 ^ 32 := by
  obtain ⟨i, found⟩ := exists_toInt? finite
  have reduced := toNat_toUInt32 found
  constructor
  · obtain ⟨x, rational, whole⟩ := exists_rational? found
    obtain ⟨congruent, lower, upper⟩ := toInt_toInt32 left.toUInt32
    rw [reduced] at congruent
    exact ⟨x, i, rational, found, whole, reduced, congruent.trans (Int.mod_modEq i _), lower, upper⟩
  · intro right finite' integral integral' moderate moderate'
    obtain ⟨j, found'⟩ := exists_toInt? finite'
    have reduced' := toNat_toUInt32 found'
    have sum := toNat_toUInt32
      (toInt?_add finite finite' moderate moderate' integral integral' found found')
    omega

/-- The least of the moderate doubles, and a whole number that is stored as a decimal. -/
theorem toUInt32_eq_emod_of_negative :
    let least := Numeric.double (.ofInt (-maxSafeInteger))
    let decimal := Numeric.decimal ⟨15, -20⟩
    least.isFinite = true ∧ decimal.isFinite = true ∧ least.isIntegral = true ∧
      decimal.isIntegral = true ∧ least.IsModerate ∧ decimal.IsModerate ∧
      (∃ x i, least.rational? = some x ∧ least.toInt? = some i ∧ i = Decimal.wholePart x ∧
        (least.toUInt32.toNat : Int) = i % 2 ^ 32 ∧
        least.toInt32.toInt ≡ i [ZMOD 2 ^ 32] ∧ -2 ^ 31 ≤ least.toInt32.toInt ∧
        least.toInt32.toInt < 2 ^ 31) ∧
      (least.add decimal).toUInt32.toNat =
        (least.toUInt32.toNat + decimal.toUInt32.toNat) % 2 ^ 32 := by
  intro least decimal
  have finite : least.isFinite = true := by decide +kernel
  have integral : least.isIntegral = true := by decide +kernel
  have moderate : least.IsModerate := by
    intro x same
    rw [← Numeric.double.inj same]
    decide +kernel
  have moderate' : decimal.IsModerate := nofun
  obtain ⟨reduced, sums⟩ := toUInt32_eq_emod finite
  exact ⟨finite, rfl, integral, rfl, moderate, moderate', reduced,
    sums decimal rfl integral rfl moderate moderate'⟩

end Numeric

end TextTemplate
