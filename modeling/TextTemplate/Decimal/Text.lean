import TextTemplate.Decimal.Basic

/-! # Decimals as text

`plain` is the displayed form, without exponent and without trailing zeros. `dataText` is the form
of the interchange format, which keeps the scale. `read?` accepts every form that these write, and
more. -/

namespace TextTemplate.Decimal

/-! ### Writing -/

/-- A minus sign in front of the text of a negative number. -/
def withSign (unscaled : Int) (text : List Char) : List Char :=
  if unscaled < 0 then '-' :: text else text

/-- Digits with the last `scale` of them after the point, padded with zeros on either side. -/
def plainDigits (digits : List Char) (scale : Int) : List Char :=
  if scale ≤ 0 then digits ++ List.replicate (-scale).toNat '0'
  else
    -- At least one digit stands before the point.
    let padded := List.replicate (scale.toNat + 1 - digits.length) '0' ++ digits
    let point := padded.length - scale.toNat
    padded.take point ++ '.' :: padded.drop point

/-- The displayed form: every digit written out, trailing zeros after the point left off. -/
def plain (d : Decimal) : List Char :=
  let n := d.normalized
  withSign n.unscaled (plainDigits (Digits.ofNat n.unscaled.natAbs) n.scale)

/-- How many zeros may follow the point before the first digit, in the interchange format. -/
def leadingZeroLimit : Int := 5

/-- How many zeros may be added before the point, in the interchange format. -/
def trailingZeroLimit : Int := 15

/-- One digit before the point, then a capital `E` and the exponent. -/
def scientific (digits : List Char) (exponent : Int) : List Char :=
  let mantissa := match digits with
    | first :: second :: rest => first :: '.' :: second :: rest
    | short => short
  mantissa ++ 'E' :: Digits.ofInt exponent

/-- The form of the interchange format: plain digits at the decimal's own scale, unless too many
zeros would be needed. Small numbers then get one digit before the point and a negative exponent,
large ones all their digits and a positive exponent. Zero is a single digit. -/
def dataText (d : Decimal) : List Char :=
  if d.unscaled = 0 then ['0']
  else
    let digits := Digits.ofNat d.unscaled.natAbs
    let leading := d.scale - digits.length
    withSign d.unscaled <|
      if leadingZeroLimit < leading then scientific digits (-(leading + 1))
      else if trailingZeroLimit < -d.scale then
        digits ++ ['e', '+'] ++ Digits.ofInt (-d.scale)
      else plainDigits digits d.scale

/-! ### Reading -/

/-- Whether a character starts an exponent. -/
def isExponentMark (c : Char) : Bool := c == 'e' || c == 'E'

/-- The number after the exponent mark; zero when there is no mark. -/
def readExponent? : List Char → Option Int
  | [] => some 0
  | _ :: exponent => Digits.readInt? exponent

/-- Takes out the first point, and counts the characters after it that are not underscores. -/
def splitPoint (text : List Char) : List Char × Nat :=
  match text.dropWhile (· ≠ '.') with
  | [] => (text, 0)
  | _ :: fraction =>
      (text.takeWhile (· ≠ '.') ++ fraction, (fraction.filter (· ≠ '_')).length)

/-- The decimal that a text spells, with the scale of its spelling: digits, at most one point, and
an exponent. What stands after the first exponent mark is the exponent; what remains of the rest
without its point must be an integer. The scale must fit a 64-bit integer. -/
def read? (text : List Char) : Option Decimal := do
  let exponent ← readExponent? (text.dropWhile (fun c => !isExponentMark c))
  let (digits, fraction) := splitPoint (text.takeWhile (fun c => !isExponentMark c))
  let unscaled ← Digits.readGroupedInt? digits
  let scale := (fraction : Int) - exponent
  -- An exponent may be of any length, but the scale that comes out is a word.
  if Digits.fitsWord scale then return ⟨unscaled, scale⟩ else none

end TextTemplate.Decimal
