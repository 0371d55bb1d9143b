import TextTemplate.Double.Arithmetic
import TextTemplate.Double.Text

/-! # Doubles in a data format

How a data format spells a double: the shortest digits, laid out plainly or, for very large and
very small numbers, with an exponent. And how it reads one: as many digits as fit 64 bits, then a
multiplication or division by a power of ten, rounded like any other operation on doubles. For
numbers of few digits and moderate size that is the nearest double, in general it is a near one. -/

namespace TextTemplate.Double

/-! ### Writing -/

/-- The digits of `digits * 10 ^ exponent` with `point` of them before the point: zeros fill up the
places that the digits do not reach, and at least one digit stands on each side. -/
def pointed (digits : List Char) (point : Int) : List Char :=
  if point ≤ 0 then
    ['0', '.'] ++ List.replicate (-point).toNat '0' ++ digits
  else if (digits.length : Int) ≤ point then
    digits ++ List.replicate (point.toNat - digits.length) '0' ++ ['.', '0']
  else
    digits.take point.toNat ++ '.' :: digits.drop point.toNat

/-- One digit before the point, and the exponent always with its sign. -/
def scientific (digits : List Char) (exponent : Int) : List Char :=
  let mantissa := match digits with
    | first :: second :: rest => first :: '.' :: second :: rest
    | short => short
  mantissa ++ 'e' :: (if exponent < 0 then Digits.ofInt exponent else '+' :: Digits.ofInt exponent)

/-- A finite double as a data format spells it: plainly, with a digit after the point, from
`10 ^ -5` up to `10 ^ 16`, and with an exponent outside. -/
def dataText (negative : Bool) (place : Nat) : List Char :=
  let (number, exponent) := shortest .even place
  let digits := Digits.ofNat number
  let point : Int := digits.length + exponent
  let text :=
    if place = 0 then pointed digits 1
    else if -5 < point ∧ point ≤ 16 then pointed digits point
    else scientific digits (point - 1)
  if negative then '-' :: text else text

/-! ### Reading -/

/-- The first number that 64 bits cannot hold. -/
def wordBound : Nat := Nat.pow 2 64

/-- Continues a number with the digits before the point while it fits 64 bits, and counts the
digits that do not go into it. -/
def takeWhole (significand : Nat) : List Char → Nat × Nat
  | [] => (significand, 0)
  | digit :: rest =>
      let next := significand * 10 + Digits.digitValue digit
      if next < wordBound then takeWhole next rest else (significand, rest.length + 1)

/-- Continues a number with the digits after the point while it fits 64 bits, and counts the digits
that go into it. -/
def takeFraction (significand : Nat) : List Char → Nat × Nat
  | [] => (significand, 0)
  | digit :: rest =>
      let next := significand * 10 + Digits.digitValue digit
      if next < wordBound then
        let (result, count) := takeFraction next rest
        (result, count + 1)
      else (significand, 0)

/-- The largest exponent of which the power of ten is a double. -/
def maxPowerOfTen : Nat := 308

/-- The double nearest to a power of ten. -/
def powerOfTen (exponent : Nat) : Double := ofDecimal false 1 exponent

/-- The product of a double that is not negative and a power of ten; `none` when it is too large.
Exponents below the range take as many divisions as it needs; three leave nothing of any number
that 64 bits hold. -/
def scaled? : Nat → Double → Int → Option Double
  | 0, x, _ => some x
  | steps + 1, x, exponent =>
      if exponent.natAbs ≤ maxPowerOfTen then
        if 0 ≤ exponent then
          (x.mul (powerOfTen exponent.natAbs)).finite?
        else some (x.div (powerOfTen exponent.natAbs))
      -- A zero stays a zero, however large the exponent is.
      else if x.isZero then some x
      else if 0 ≤ exponent then none
      else scaled? steps (x.div (powerOfTen maxPowerOfTen)) (exponent + maxPowerOfTen)

/-- The double that a data format's number spells: a sign, digits, a fraction and an exponent, of
which only the digits before the point are required. `none` when the number is too large. -/
def readData? (spelling : List Char) : Option Double := do
  let negative := spelling.head? = some '-'
  let unsigned := if negative then spelling.drop 1 else spelling
  let (whole, surplus) := takeWhole 0 (unsigned.takeWhile Char.isDigit)
  let afterWhole := unsigned.dropWhile Char.isDigit
  let (fraction, afterFraction) := match afterWhole with
    | '.' :: tail => (tail.takeWhile Char.isDigit, tail.dropWhile Char.isDigit)
    | other => ([], other)
  let (significand, count) := takeFraction whole fraction
  let exponent ← readExponent? afterFraction
  -- The digits before the point that did not fit move the point to the right, and those after it
  -- that did fit move it to the left.
  let magnitude ← scaled? 4 (ofInt significand) (exponent + surplus - count)
  return if negative then magnitude.neg else magnitude

end TextTemplate.Double
