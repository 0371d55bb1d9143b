import TextTemplate.Double.Arithmetic
import TextTemplate.Double.Text

/-! # Decimals of any length

A decimal is an integer and the number of its digits that stand after the point. The scale is part
of a decimal, so `1.5` and `1.50` differ as spellings; `compare` and the value ignore it. -/

namespace TextTemplate

/-- The number `unscaled * 10 ^ -scale`. -/
structure Decimal where
  /-- All the digits, as an integer. -/
  unscaled : Int
  /-- How many of the digits stand after the point; a negative scale adds zeros before it. -/
  scale : Int
  deriving DecidableEq

namespace Decimal

instance : Inhabited Decimal := ⟨⟨0, 0⟩⟩

/-- A power of ten, as an integer. -/
def tenPow (exponent : Nat) : Int := (Nat.pow 10 exponent : Nat)

/-- An integer as a decimal. -/
def ofInt (value : Int) : Decimal := ⟨value, 0⟩

/-- Whether the value is zero. -/
def isZero (d : Decimal) : Bool := d.unscaled == 0

/-- The unscaled integer of the same value at a scale that is not smaller. -/
def unscaledAt (d : Decimal) (scale : Int) : Int :=
  d.unscaled * tenPow (scale - d.scale).toNat

/-- Whether nothing but zeros stands after the point. -/
def isIntegral (d : Decimal) : Bool :=
  d.scale ≤ 0 || d.unscaled.tmod (tenPow d.scale.toNat) == 0

/-- The part before the point. -/
def truncated (d : Decimal) : Int :=
  if d.scale ≤ 0 then d.unscaledAt 0 else d.unscaled.tdiv (tenPow d.scale.toNat)

/-! ### Arithmetic -/

/-- The decimal with its sign changed. -/
def neg (d : Decimal) : Decimal := ⟨-d.unscaled, d.scale⟩

/-- The sum, at the larger scale. -/
def add (left right : Decimal) : Decimal :=
  let scale := max left.scale right.scale
  ⟨left.unscaledAt scale + right.unscaledAt scale, scale⟩

/-- The difference, at the larger scale. A zero operand leaves the other its own scale. -/
def sub (left right : Decimal) : Decimal :=
  if right.isZero then left
  else if left.isZero then right.neg
  else
    let scale := max left.scale right.scale
    ⟨left.unscaledAt scale - right.unscaledAt scale, scale⟩

/-- Whether the value is one. -/
def isOne (d : Decimal) : Bool :=
  d.unscaled * tenPow (-d.scale).toNat == tenPow d.scale.toNat

/-- The product; the scales add up. A factor of one leaves the other its own scale. -/
def mul (left right : Decimal) : Decimal :=
  if left.isOne then right
  else if right.isOne then left
  else ⟨left.unscaled * right.unscaled, left.scale + right.scale⟩

/-- The remainder of the division that rounds toward zero, with the dividend's sign. -/
def rem (left right : Decimal) : Decimal :=
  let scale := max left.scale right.scale
  ⟨(left.unscaledAt scale).tmod (right.unscaledAt scale), scale⟩

/-- The power of a natural exponent. -/
def pow (base : Decimal) (exponent : Nat) : Decimal :=
  ⟨base.unscaled.pow exponent, base.scale * exponent⟩

/-- The order of the values. -/
def compare (left right : Decimal) : Ordering :=
  let scale := max left.scale right.scale
  Ord.compare (left.unscaledAt scale) (right.unscaledAt scale)

/-! ### Normal form -/

/-- Takes off at most `count` zeros at the end of the digits. -/
def dropZeros : Nat → Int → Int → Decimal
  | 0, unscaled, scale => ⟨unscaled, scale⟩
  | count + 1, unscaled, scale =>
      if unscaled % 10 = 0 then dropZeros count (unscaled / 10) (scale - 1)
      else ⟨unscaled, scale⟩

/-- The decimal of the same value whose digits do not end in a zero; zero has scale zero. A number
has fewer zeros at its end than binary digits. -/
def normalized (d : Decimal) : Decimal :=
  if d.unscaled = 0 then ⟨0, 0⟩
  else dropZeros (Nat.log2 d.unscaled.natAbs) d.unscaled d.scale

/-! ### Quotients -/

/-- The number of digits kept of a quotient that does not end. -/
def quotientDigits : Int := 32

/-- How many digits the unscaled integer has. -/
def digitCount (d : Decimal) : Nat := (Digits.ofNat d.unscaled.natAbs).length

/-- The scale at which a quotient keeps `quotientDigits` digits: the difference of the orders of
magnitude tells the quotient's own up to one. -/
def quotientScale (left right : Decimal) : Int :=
  let magnitude := (left.digitCount - left.scale) - (right.digitCount - right.scale)
  max (quotientDigits - magnitude) 0 + 1

/-- An integer quotient with a half rounded away from zero. -/
def divRound (numerator denominator : Int) : Int :=
  let quotient := numerator.tdiv denominator
  let remainder := numerator.tmod denominator
  if denominator.natAbs ≤ 2 * remainder.natAbs then
    if decide (numerator < 0) ≠ decide (denominator < 0) then quotient - 1 else quotient + 1
  else quotient

/-- The quotient rounded at its scale. There is none when the scales lie so far apart that lining
the digits up would take `2 ^ 32` zeros. -/
def div? (left right : Decimal) : Option Decimal :=
  let scale := quotientScale left right
  let shift := right.scale - left.scale + scale
  if Nat.pow 2 32 ≤ shift.natAbs then none
  else
    let quotient :=
      if 0 ≤ shift then divRound (left.unscaled * tenPow shift.toNat) right.unscaled
      else divRound left.unscaled (right.unscaled * tenPow (-shift).toNat)
    -- A quotient that ends has been padded with zeros.
    some (normalized ⟨quotient, scale⟩)

/-! ### Doubles -/

/-- How many digits are left off at a time where a number has many. -/
def trimmedDigits : Nat := 19

/-- How many digits a number keeps at least when digits are left off. -/
def keptDigits : Nat := 25

/-- An estimate of the number of digits, from the number of binary digits: one more than those,
times the decimal logarithm of two, rounded down. -/
def estimatedDigits (magnitude : Nat) : Nat :=
  (Nat.log2 magnitude + 2) * 30102999566398 / Nat.pow 10 14

/-- How many digits are left off a number before it is converted to a double: as many whole groups
of `trimmedDigits` as leave `keptDigits` of the estimated digits. -/
def trimCount (magnitude : Nat) : Nat :=
  (estimatedDigits magnitude - keptDigits) / trimmedDigits * trimmedDigits

/-- The double of a decimal. A decimal of scale zero converts as the integer it is. Any other is
first cut to its leading digits. If these are all before the point, their integer is converted and
multiplied by a power of ten, each step with its own rounding; if some of them stand after it, the
nearest double is taken at once. -/
def toDouble (d : Decimal) : Double :=
  if d.unscaled = 0 then Double.zero false
  else if d.scale = 0 then Double.ofInt d.unscaled
  else
    let negative := decide (d.unscaled < 0)
    let removed := trimCount d.unscaled.natAbs
    let leading := d.unscaled.natAbs / Nat.pow 10 removed
    let exponent := removed - d.scale
    if 0 ≤ exponent then
      (Double.ofInt (Double.signed negative leading)).mul
        (Double.powNat (Double.ofInt 10) exponent.toNat)
    else Double.ofDecimal negative leading exponent

/-- The decimal of a finite double's shortest digits, with no zeros before the point for its
scale to count. -/
def ofDouble (negative : Bool) (place : Nat) : Decimal :=
  let (digits, exponent) := Double.shortest .up place
  ⟨Double.signed negative (digits * Nat.pow 10 exponent.toNat), max (-exponent) 0⟩

end Decimal

end TextTemplate
