/-! # Double-precision numbers

The 64-bit binary format as a type of its own, so that every operation is an exact computation on
natural numbers followed by one rounding. The finite doubles of one sign stand in a line, from zero
upwards; a double is stored by its place in that line. Every finite double is a whole number of
*units*, the smallest positive double `2 ^ -1074`, so no operation needs a negative exponent. -/

namespace TextTemplate

/-- How many finite doubles there are of one sign: `2 ^ 52` for each of the `2047` exponents. -/
def Double.placeCount : Nat := 2047 * Nat.pow 2 52

/-- A double-precision number. -/
inductive Double where
  /-- Not a number. -/
  | nan
  /-- An infinity of the given sign. -/
  | infinity (negative : Bool)
  /-- The finite double at `place` among those of its sign; place `0` is a signed zero. -/
  | finite (negative : Bool) (place : Fin Double.placeCount)
  deriving DecidableEq

namespace Double

instance : Inhabited Double := ⟨.nan⟩

/-! ### Places and units -/

/-- How many units the number one has. -/
def unitsPerOne : Nat := Nat.pow 2 1074

/-- The magnitude at a place, in units: consecutive below `2 ^ 53`, then each further block of
`2 ^ 52` places lies twice as far apart as the one before. -/
def unitsAt (place : Nat) : Nat :=
  if place < Nat.pow 2 52 then place
  else (Nat.pow 2 52 + place % Nat.pow 2 52) * Nat.pow 2 (place / Nat.pow 2 52 - 1)

/-- A quotient rounded to the nearest natural number, a half going to the even neighbour. -/
def roundHalfEven (numerator denominator : Nat) : Nat :=
  let quotient := numerator / denominator
  let remainder := numerator % denominator
  if 2 * remainder < denominator then quotient
  else if denominator < 2 * remainder then quotient + 1
  -- Exactly in the middle.
  else if quotient % 2 = 0 then quotient
  else quotient + 1

/-- The place whose magnitude is nearest to `numerator / denominator` units. The block is the one
that holds the quotient's whole part; rounding up into the next block lands on its first place. -/
def nearestPlace (numerator denominator : Nat) : Nat :=
  -- At most 53 binary digits are kept, and the others are rounded away.
  let block := Nat.log2 (numerator / denominator) - 52
  roundHalfEven numerator (denominator * Nat.pow 2 block) + block * Nat.pow 2 52

/-- The double at a place, or the infinity when the line of finite doubles ends before it. -/
def ofPlace (negative : Bool) (place : Nat) : Double :=
  if h : place < placeCount then .finite negative ⟨place, h⟩ else .infinity negative

/-- The double nearest to `numerator / denominator` units, with the given sign. -/
def nearest (negative : Bool) (numerator denominator : Nat) : Double :=
  ofPlace negative (nearestPlace numerator denominator)

/-- The zero of a sign. -/
def zero (negative : Bool) : Double := ofPlace negative 0

/-- An integer of a sign as a whole number. -/
def signed (negative : Bool) (magnitude : Nat) : Int :=
  if negative then -(magnitude : Int) else magnitude

/-- The double nearest to an integer. -/
def ofInt (value : Int) : Double :=
  nearest (decide (value < 0)) (value.natAbs * unitsPerOne) 1

/-! ### Classification -/

/-- Whether the number is not a number. -/
def isNaN : Double → Bool
  | .nan => true
  | _ => false

/-- Whether the number is neither an infinity nor not a number. -/
def isFinite : Double → Bool
  | .finite _ _ => true
  | _ => false

/-- The number itself, if it is finite. -/
def finite? : Double → Option Double
  | .finite negative place => some (.finite negative place)
  | _ => none

/-- Whether the number is zero, of either sign. -/
def isZero : Double → Bool
  | .finite _ place => place.val == 0
  | _ => false

/-- Whether the number is finite and has no fractional part. -/
def isIntegral : Double → Bool
  | .finite _ place => unitsAt place.val % unitsPerOne == 0
  | _ => false

/-- The part of a finite double before the point. -/
def wholePart (negative : Bool) (place : Nat) : Int :=
  signed negative (unitsAt place / unitsPerOne)

/-- The part before the point; `none` where there is no such integer. -/
def toInt? : Double → Option Int
  | .finite negative place => some (wholePart negative place.val)
  | _ => none

end Double

end TextTemplate
