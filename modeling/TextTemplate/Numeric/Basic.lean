import TextTemplate.Double.Arithmetic
import TextTemplate.Decimal.Text

/-! # Numbers in three representations

A number is a double, an integer of any length or a decimal of any length. This module classifies
numbers and converts between the representations; `Numeric.Arithmetic` calculates with them. -/

namespace TextTemplate

/-- A number in exactly one representation. -/
inductive Numeric where
  /-- A double-precision number. -/
  | double (value : Double)
  /-- An integer of any length. -/
  | integer (value : Int)
  /-- A decimal of any length. -/
  | decimal (value : Decimal)
  deriving DecidableEq

namespace Numeric

instance : Inhabited Numeric := ⟨.double (.zero false)⟩

/-! ### Bounds -/

/-- The largest integer up to which every integer is a double. -/
def maxSafeInteger : Nat := Nat.pow 2 53 - 1

/-- The largest number of digits for which a run of digits is read as a double. -/
def maxDoubleDigits : Nat := 15

/-- The largest exponent, in magnitude, with which a power is calculated exactly. -/
def maxExactExponent : Nat := 4096

/-- The largest number of digits of an exact power, and the largest scale of a decimal that is
read. Beyond it numbers become doubles. -/
def maxExactDigits : Nat := 10000

/-- Whether a decimal's scale is within the bound for reading. -/
def scaleWithinBounds (d : Decimal) : Bool := d.scale.natAbs ≤ maxExactDigits

/-! ### Classification -/

/-- Whether the number is neither an infinity nor not a number. -/
def isFinite : Numeric → Bool
  | .double x => x.isFinite
  | _ => true

/-- Whether the number is not a number. -/
def isNaN : Numeric → Bool
  | .double x => x.isNaN
  | _ => false

/-- Whether the value is zero. -/
def isZero : Numeric → Bool
  | .double x => x.isZero
  | .integer i => i == 0
  | .decimal d => d.isZero

/-- Whether the value is an integer. -/
def isIntegral : Numeric → Bool
  | .double x => x.isIntegral
  | .integer _ => true
  | .decimal d => d.isIntegral

/-- Whether the number makes arithmetic decimal: decimals do, and doubles with a fractional part. -/
def isDecimalLike : Numeric → Bool
  | .double x => !x.isIntegral
  | .integer _ => false
  | .decimal _ => true

/-! ### Conversions -/

/-- The nearest double. -/
def toDouble : Numeric → Double
  | .double x => x
  | .integer i => .ofInt i
  | .decimal d => d.toDouble

/-- The decimal of the same value, a double being the value of its shortest digits; `none` when
the number is not finite. -/
def toDecimal? : Numeric → Option Decimal
  | .double (.finite negative place) => some (.ofDouble negative place.val)
  | .double _ => none
  | .integer i => some (.ofInt i)
  | .decimal d => some d

/-- The part before the point; `none` when the number is not finite. -/
def toInt? : Numeric → Option Int
  | .double x => x.toInt?
  | .integer i => some i
  | .decimal d => some d.truncated

/-- The number reduced modulo `2 ^ 32`, after truncation; zero when it is not finite. Doubles are
reduced as doubles, the other representations as integers. -/
def toUInt32 : Numeric → UInt32
  | .double x =>
      -- The remainder of an infinity is not a number, and has no integer.
      match (x.trunc.remEuclid (.ofInt (Nat.pow 2 32))).toInt? with
      | some reduced => reduced.toNat.toUInt32
      | none => 0
  | other =>
      match other.toInt? with
      | some whole =>
          let reduced := whole.tmod (Nat.pow 2 32)
          (if reduced < 0 then reduced + Nat.pow 2 32 else reduced).toNat.toUInt32
      | none => 0

/-- The number reduced modulo `2 ^ 32` into the signed range. -/
def toInt32 (n : Numeric) : Int32 := n.toUInt32.toInt32

/-- A finite double as an integer if it has no fractional part, and as a decimal otherwise; other
doubles stay as they are. -/
def ofComputed : Double → Numeric
  | .finite negative place =>
      if (Double.finite negative place).isIntegral then
        .integer (Double.wholePart negative place.val)
      else .decimal (.ofDouble negative place.val)
  | other => .double other

/-- An integer of the machine's word size: a double within the safe range, an integer outside. -/
def ofWord (value : Int) : Numeric :=
  if value.natAbs ≤ maxSafeInteger then .double (.ofInt value) else .integer value

/-- A length or position. -/
def ofLength (length : Nat) : Numeric := ofWord length

/-- The number with its sign changed. -/
def negate : Numeric → Numeric
  | .double x => .double x.neg
  | .integer i => .integer (-i)
  | .decimal d => .decimal d.neg

end Numeric

end TextTemplate
