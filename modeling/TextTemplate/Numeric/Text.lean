import TextTemplate.Numeric.Basic

/-! # Numbers as text

The displayed form of a number, and the classification of a literal by its spelling. -/

namespace TextTemplate.Numeric

/-- The displayed form: every digit written out, no exponent, no trailing zeros after the point,
and no sign on zero. -/
def display : Numeric → List Char
  | .double .nan => "NaN".toList
  | .double (.infinity negative) => if negative then "-Infinity".toList else "Infinity".toList
  | .double (.finite negative place) => (Decimal.ofDouble negative place.val).plain
  | .integer i => Digits.ofInt i
  | .decimal d => d.plain

/-- The number that a text spells. With a point or an exponent it is a decimal, or a double if the
scale is out of bounds; otherwise a short run of digits is a double and a long one an integer. The
text may have a sign, and must go on with a digit or a point. -/
def parse? (text : List Char) : Option Numeric :=
  let text := match text with
    | '+' :: rest => rest
    | other => other
  let unsigned := match text with
    | '-' :: rest => rest
    | other => other
  if !unsigned.head?.any (fun c => c.isDigit || c == '.') then none
  else if unsigned.any (fun c => c == '.' || Decimal.isExponentMark c) then do
    let d ← Decimal.read? text
    -- There are too many digits to keep them, so the nearest double has to do.
    if scaleWithinBounds d then return .decimal d else (Double.read? text).map .double
  else if unsigned.all Char.isDigit then
    -- The digits are counted as they are written, with the zeros in front.
    if maxDoubleDigits < unsigned.length then (Digits.readInt? text).map .integer
    else (Double.read? text).map .double
  else none

end TextTemplate.Numeric
