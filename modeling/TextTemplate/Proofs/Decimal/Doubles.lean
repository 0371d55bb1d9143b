import TextTemplate.Proofs.Double.Integers

/-! # The doubles of decimals are numbers

A decimal of a large number is converted to a double by a product of its leading digits and a power
of ten. Each of them is one at least, so that an infinity among them is never multiplied by zero, if
not all of the digits are left off. How many are left off is estimated from the number of binary
digits, and the estimate is low enough. -/

namespace TextTemplate

namespace Double

/-! ### Large doubles -/

/-- Whether a double is a number of magnitude one at least. -/
def IsLarge : Double → Prop
  | .nan => False
  | .infinity _ => True
  | .finite _ place => unitsPerOne ≤ unitsAt place.val

/-- A large double is a number. -/
theorem IsLarge.ne_nan {x : Double} (large : x.IsLarge) : x ≠ .nan := by
  rintro rfl
  exact large

/-- There is a number at every place, or an infinity. -/
theorem ofPlace_ne_nan (negative : Bool) (place : Nat) : ofPlace negative place ≠ .nan := by
  unfold ofPlace
  split <;> simp

/-- What is nearest to a quotient is a number. -/
theorem nearest_ne_nan (negative : Bool) (numerator denominator : Nat) :
    nearest negative numerator denominator ≠ .nan := ofPlace_ne_nan _ _

/-- Digits and an exponent are read as a number. -/
theorem ofDecimal_ne_nan (negative : Bool) (digits : Nat) (exponent : Int) :
    ofDecimal negative digits exponent ≠ .nan := by
  unfold ofDecimal
  split
  · exact ofPlace_ne_nan _ _
  · dsimp only
    split_ifs
    · simp
    · exact ofPlace_ne_nan _ _
    · exact nearest_ne_nan _ _ _
    · exact nearest_ne_nan _ _ _

/-- A large finite double is not zero. -/
theorem place_ne_zero {place : Nat} (large : unitsPerOne ≤ unitsAt place) : place ≠ 0 := by
  rintro rfl
  rw [unitsAt_of_lt (Nat.pow_pos (by decide))] at large
  exact absurd large (Nat.not_le.mpr unitsPerOne_pos)

/-- A number of one or more is rounded to one or more. -/
theorem isLarge_nearest (negative : Bool) {numerator denominator : Nat}
    (large : unitsPerOne ≤ numerator / denominator) :
    IsLarge (nearest negative numerator denominator) := by
  have units : unitsPerOne ≤ unitsAt (nearestPlace numerator denominator) := by
    unfold unitsPerOne at large ⊢
    have many : 52 ≤ 1074 := by decide
    generalize 1074 = bits at *
    exact two_pow_le_unitsAt_nearestPlace many large
  unfold nearest ofPlace
  split
  · exact units
  · trivial

/-- An integer other than zero is converted to a large double. -/
theorem isLarge_ofInt {number : Int} (nonzero : number ≠ 0) : IsLarge (ofInt number) := by
  refine isLarge_nearest _ ?_
  rw [Nat.div_one]
  exact Nat.le_mul_of_pos_left _ (Int.natAbs_pos.mpr nonzero)

/-- The product of large doubles is large. -/
theorem IsLarge.mul {x y : Double} (left : x.IsLarge) (right : y.IsLarge) : (x.mul y).IsLarge := by
  cases x with
  | nan => exact left.elim
  | infinity negative =>
      cases y with
      | nan => exact right.elim
      | infinity negative' => trivial
      | finite negative' place' =>
          simp only [Double.mul, if_neg (place_ne_zero right)]
          trivial
  | finite negative place =>
      cases y with
      | nan => exact right.elim
      | infinity negative' =>
          simp only [Double.mul, if_neg (place_ne_zero left)]
          trivial
      | finite negative' place' =>
          refine isLarge_nearest _ ?_
          rw [Nat.le_div_iff_mul_le unitsPerOne_pos]
          exact Nat.mul_le_mul left right

/-- Powers of large doubles are large. -/
theorem isLarge_mulPowNat {product square : Double} (left : product.IsLarge)
    (right : square.IsLarge) (exponent : Nat) : (mulPowNat product square exponent).IsLarge := by
  induction exponent using Nat.strong_induction_on generalizing product square with
  | h exponent ih =>
      rw [mulPowNat]
      split_ifs with zero odd
      · exact left
      · exact ih _ (by omega) (left.mul right) (right.mul right)
      · exact ih _ (by omega) left (right.mul right)

/-- So are powers by squaring, which start from one. -/
theorem isLarge_powNat {base : Double} (large : base.IsLarge) (exponent : Nat) :
    (powNat base exponent).IsLarge :=
  isLarge_mulPowNat (isLarge_ofInt (by decide)) large exponent

end Double

namespace Decimal

/-! ### Decimal digits of powers of two -/

/-- A number below `2 ^ 2 ^ count`, by squaring: a mantissa with thirty digits after the point, and
an exponent of ten. Digits behind those of the mantissa are left off. -/
def squaring : Nat → Nat × Nat
  | 0 => (2 * 10 ^ 30, 0)
  | count + 1 =>
      let (mantissa, exponent) := squaring count
      if 10 ^ 61 ≤ mantissa * mantissa then (mantissa * mantissa / 10 ^ 31, 2 * exponent + 1)
      else (mantissa * mantissa / 10 ^ 30, 2 * exponent)

/-- What squaring gives is no larger than the power, since digits are only left off. -/
theorem squaring_le (count : Nat) :
    (squaring count).1 * 10 ^ (squaring count).2 ≤ 10 ^ 30 * 2 ^ 2 ^ count := by
  induction count with
  | zero => decide
  | succ count ih =>
      rw [squaring]
      generalize squaring count = bound at *
      obtain ⟨mantissa, exponent⟩ := bound
      have power : 2 ^ 2 ^ (count + 1) = 2 ^ 2 ^ count * 2 ^ 2 ^ count := by
        rw [← pow_add, ← two_mul, pow_succ']
      rw [power]
      generalize 2 ^ 2 ^ count = root at *
      -- A mantissa that is cut only gets smaller, so that the bound survives squaring.
      have step (places : Nat) :
          mantissa * mantissa / 10 ^ (30 + places) * 10 ^ (2 * exponent + places) ≤
            10 ^ 30 * (root * root) := by
        refine Nat.le_of_mul_le_mul_left ?_ (show 0 < 10 ^ 30 by decide)
        calc 10 ^ 30 * (mantissa * mantissa / 10 ^ (30 + places) * 10 ^ (2 * exponent + places))
            = mantissa * mantissa / 10 ^ (30 + places) * 10 ^ (30 + places) *
                (10 ^ exponent * 10 ^ exponent) := by ring
          _ ≤ mantissa * mantissa * (10 ^ exponent * 10 ^ exponent) :=
            Nat.mul_le_mul_right _ (Nat.div_mul_le_self ..)
          _ = mantissa * 10 ^ exponent * (mantissa * 10 ^ exponent) := by ring
          _ ≤ 10 ^ 30 * root * (10 ^ 30 * root) := Nat.mul_le_mul ih ih
          _ = 10 ^ 30 * (10 ^ 30 * (root * root)) := by ring
      dsimp only
      split
      · exact step 1
      · exact step 0

/-- The factor of the estimate of the number of decimal digits is below the decimal logarithm of
two. Fifty squarings tell all its digits. -/
theorem exists_power_above :
    ∃ exponent count, 0 < count ∧ 10 ^ exponent ≤ 2 ^ count ∧
      30102999566398 * count ≤ exponent * 10 ^ 14 := by
  refine ⟨(squaring 50).2, 2 ^ 50, by decide, ?_, by decide +kernel⟩
  have bound := squaring_le 50
  have one : 10 ^ 30 ≤ (squaring 50).1 := by decide +kernel
  generalize squaring 50 = squares at *
  generalize 2 ^ 2 ^ 50 = power at *
  exact Nat.le_of_mul_le_mul_left
    (le_trans (Nat.mul_le_mul_right _ one) bound) (show 0 < 10 ^ 30 by decide)

/-- As many decimal digits as are estimated do not make more than the binary digits. -/
theorem ten_pow_le_two_pow {digits bits : Nat} (few : digits * 10 ^ 14 ≤ bits * 30102999566398) :
    10 ^ digits ≤ 2 ^ bits := by
  obtain ⟨exponent, count, positive, power, above⟩ := exists_power_above
  have scaled : digits * count ≤ bits * exponent := by
    refine Nat.le_of_mul_le_mul_right ?_ (show 0 < 10 ^ 14 by decide)
    calc digits * count * 10 ^ 14 = digits * 10 ^ 14 * count := by ring
      _ ≤ bits * 30102999566398 * count := Nat.mul_le_mul_right _ few
      _ = bits * (30102999566398 * count) := by ring
      _ ≤ bits * (exponent * 10 ^ 14) := Nat.mul_le_mul_left _ above
      _ = bits * exponent * 10 ^ 14 := by ring
  refine (Nat.pow_le_pow_iff_left positive.ne').mp ?_
  calc (10 ^ digits) ^ count = 10 ^ (digits * count) := (pow_mul ..).symm
    _ ≤ 10 ^ (bits * exponent) := Nat.pow_le_pow_right (by decide) scaled
    _ = (10 ^ exponent) ^ bits := by rw [mul_comm, pow_mul]
    _ ≤ (2 ^ count) ^ bits := Nat.pow_le_pow_left power _
    _ = (2 ^ bits) ^ count := by rw [← pow_mul, ← pow_mul, mul_comm]

/-! ### Conversion -/

/-- Not all of the digits are left off. -/
theorem pow_trimCount_le {magnitude : Nat} (positive : 0 < magnitude) :
    Nat.pow 10 (trimCount magnitude) ≤ magnitude := by
  rw [Nat.pow_eq]
  rcases Nat.lt_or_ge (estimatedDigits magnitude) keptDigits with few | many
  · have none : trimCount magnitude = 0 := by
      rw [trimCount, Nat.sub_eq_zero_of_le few.le, Nat.zero_div, Nat.zero_mul]
    rw [none]
    exact positive
  · have kept : trimCount magnitude + keptDigits ≤ estimatedDigits magnitude := by
      have multiple := Nat.div_mul_le_self (estimatedDigits magnitude - keptDigits) trimmedDigits
      unfold trimCount
      omega
    have estimate : estimatedDigits magnitude * 10 ^ 14 ≤
        (Nat.log2 magnitude + 2) * 30102999566398 := Nat.div_mul_le_self ..
    have spare : 4 ≤ 10 ^ keptDigits := by decide
    have low : 2 ^ Nat.log2 magnitude ≤ magnitude :=
      ((Nat.log2_eq_iff positive.ne').mp rfl).1
    -- The digits that are kept make up for the two binary digits that the estimate adds.
    refine Nat.le_of_mul_le_mul_right ?_ (show 0 < 4 by decide)
    calc 10 ^ trimCount magnitude * 4
        ≤ 10 ^ trimCount magnitude * 10 ^ keptDigits := Nat.mul_le_mul_left _ spare
      _ = 10 ^ (trimCount magnitude + keptDigits) := (pow_add ..).symm
      _ ≤ 10 ^ estimatedDigits magnitude := Nat.pow_le_pow_right (by decide) kept
      _ ≤ 2 ^ (Nat.log2 magnitude + 2) := ten_pow_le_two_pow estimate
      _ = 2 ^ Nat.log2 magnitude * 4 := pow_add 2 (Nat.log2 magnitude) 2
      _ ≤ magnitude * 4 := Nat.mul_le_mul_right _ low

/-- The double of a decimal is a number. -/
theorem toDouble_ne_nan (d : Decimal) : d.toDouble ≠ .nan := by
  unfold toDouble
  split
  · exact Double.ofPlace_ne_nan _ _
  next nonzero =>
    split
    · exact Double.nearest_ne_nan _ _ _
    next =>
      extract_lets negative removed leading exponent
      have some : 0 < leading :=
        Nat.div_pos (pow_trimCount_le (Int.natAbs_pos.mpr nonzero)) (Nat.pow_pos (by decide))
      have signed : Double.signed negative leading ≠ 0 := by
        rw [← Int.natAbs_ne_zero, natAbs_signed]
        exact some.ne'
      split
      · exact ((Double.isLarge_ofInt signed).mul
          (Double.isLarge_powNat (Double.isLarge_ofInt (by decide)) _)).ne_nan
      · exact Double.ofDecimal_ne_nan _ _ _

end Decimal

end TextTemplate
