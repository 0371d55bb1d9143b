import TextTemplate.Double.Basic

/-! # Arithmetic on doubles

Each operation computes its exact result in units and rounds once, to the nearest double. The
special cases follow the standard rules of binary floating point: a sum of opposite infinities, a
product of zero and an infinity, and a quotient of two zeros or two infinities are not numbers;
zeros keep signs. -/

namespace TextTemplate.Double

/-- The number with its sign changed. -/
def neg : Double → Double
  | .nan => .nan
  | .infinity negative => .infinity (!negative)
  | .finite negative place => .finite (!negative) place

/-- The number without its sign. -/
def abs : Double → Double
  | .nan => .nan
  | .infinity _ => .infinity false
  | .finite _ place => .finite false place

/-- The rounded sum. An exact zero is positive unless both operands are negative. -/
def add : Double → Double → Double
  | .nan, _ => .nan
  | _, .nan => .nan
  | .infinity negative, .infinity negative' =>
      if negative = negative' then .infinity negative else .nan
  | .infinity negative, .finite _ _ => .infinity negative
  | .finite _ _, .infinity negative => .infinity negative
  | .finite negative place, .finite negative' place' =>
      let sum := signed negative (unitsAt place.val) + signed negative' (unitsAt place'.val)
      if sum = 0 then zero (negative && negative')
      else nearest (decide (sum < 0)) sum.natAbs 1

/-- The rounded difference. -/
def sub (left right : Double) : Double := add left right.neg

/-- The rounded product. -/
def mul : Double → Double → Double
  | .nan, _ => .nan
  | _, .nan => .nan
  | .infinity negative, .infinity negative' => .infinity (negative != negative')
  | .infinity negative, .finite negative' place =>
      if place.val = 0 then .nan else .infinity (negative != negative')
  | .finite negative place, .infinity negative' =>
      if place.val = 0 then .nan else .infinity (negative != negative')
  | .finite negative place, .finite negative' place' =>
      -- The product counts squares of units.
      nearest (negative != negative') (unitsAt place.val * unitsAt place'.val) unitsPerOne

/-- The rounded quotient; dividing by zero gives an infinity. -/
def div : Double → Double → Double
  | .nan, _ => .nan
  | _, .nan => .nan
  | .infinity _, .infinity _ => .nan
  | .infinity negative, .finite negative' _ => .infinity (negative != negative')
  | .finite negative _, .infinity negative' => zero (negative != negative')
  | .finite negative place, .finite negative' place' =>
      if place'.val = 0 then
        if place.val = 0 then .nan else .infinity (negative != negative')
      else
        -- The units cancel out, so the quotient gets them back.
        nearest (negative != negative') (unitsAt place.val * unitsPerOne) (unitsAt place'.val)

/-- The remainder of the division that rounds toward zero: exact, with the dividend's sign. -/
def rem : Double → Double → Double
  | .nan, _ => .nan
  | _, .nan => .nan
  | .infinity _, _ => .nan
  | .finite negative place, .infinity _ => .finite negative place
  | .finite negative place, .finite _ place' =>
      if place'.val = 0 then .nan
      else nearest negative (unitsAt place.val % unitsAt place'.val) 1

/-- The number without its fractional part. -/
def trunc : Double → Double
  | .finite negative place =>
      nearest negative (unitsAt place.val / unitsPerOne * unitsPerOne) 1
  | other => other

/-- The order of two numbers; `none` when one of them is not a number. The zeros are equal. -/
def compare? : Double → Double → Option Ordering
  | .nan, _ => none
  | _, .nan => none
  | .infinity negative, .infinity negative' => some (compare negative' negative)
  | .infinity negative, .finite _ _ => some (if negative then .lt else .gt)
  | .finite _ _, .infinity negative => some (if negative then .gt else .lt)
  | .finite negative place, .finite negative' place' =>
      some (compare (signed negative (unitsAt place.val)) (signed negative' (unitsAt place'.val)))

/-- The remainder taken into the range from zero to the divisor's magnitude. -/
def remEuclid (left right : Double) : Double :=
  let remainder := rem left right
  if remainder.compare? (zero false) = some .lt then add remainder right.abs else remainder

/-! ### Powers -/

/-- Multiplies `product` by the power of `square` with a natural exponent, one binary digit of the
exponent at a time; `square` is squared for each. -/
def mulPowNat (product square : Double) (exponent : Nat) : Double :=
  if exponent = 0 then product
  else
    mulPowNat (if exponent % 2 = 1 then product.mul square else product) (square.mul square)
      (exponent / 2)
termination_by exponent

/-- The power with a natural exponent by repeated squaring, every product rounded. -/
def powNat (base : Double) (exponent : Nat) : Double := mulPowNat (ofInt 1) base exponent

/-! The general power function of the platform works on the machine's own doubles, so both operands
pass through their 64-bit encodings: a sign bit above the place. -/

/-- The 64-bit encoding. -/
def toBits : Double → UInt64
  | .nan => 0x7FF8000000000000
  | .infinity false => 0x7FF0000000000000
  | .infinity true => 0xFFF0000000000000
  | .finite false place => place.val.toUInt64
  | .finite true place => 0x8000000000000000 + place.val.toUInt64

/-- The number with a 64-bit encoding. -/
def ofBits (bits : UInt64) : Double :=
  let negative := decide (0x8000000000000000 ≤ bits)
  let place := bits.toNat % Nat.pow 2 63
  -- The place behind the last finite double is the infinity, and there is no number behind it.
  if placeCount < place then .nan else ofPlace negative place

/-- The platform's power function. -/
def pow (base exponent : Double) : Double :=
  ofBits (Float.pow (Float.ofBits base.toBits) (Float.ofBits exponent.toBits)).toBits

end TextTemplate.Double
