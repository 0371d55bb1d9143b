import TextTemplate.Double.Shortest
import TextTemplate.Text.Digits

/-! # Reading doubles

The double nearest to a decimal spelling, and the words for the numbers that have no digits. -/

namespace TextTemplate.Double

/-- The double nearest to `digits * 10 ^ exponent`, with the given sign. Exponents that certainly
overflow or vanish are settled by the number of digits alone. -/
def ofDecimal (negative : Bool) (digits : Nat) (exponent : Int) : Double :=
  if digits = 0 then zero negative
  else
    let length := (Digits.ofNat digits).length
    -- Outside of these bounds the power of ten need not be calculated.
    if 310 < exponent + length then .infinity negative
    else if exponent + length < -330 then zero negative
    else if 0 ≤ exponent then
      nearest negative (digits * Nat.pow 10 exponent.toNat * unitsPerOne) 1
    else
      nearest negative (digits * unitsPerOne) (Nat.pow 10 (-exponent).toNat)

/-- The exponent of a number's spelling: nothing, or a letter `e` and a signed integer. -/
def readExponent? : List Char → Option Int
  | [] => some 0
  | mark :: rest => if mark = 'e' ∨ mark = 'E' then Digits.readInt? rest else none

/-- A number without sign: digits with an optional point, at least one digit in all, then an
optional exponent. -/
def readUnsigned? (negative : Bool) (text : List Char) : Option Double :=
  let whole := text.takeWhile Char.isDigit
  let afterWhole := text.dropWhile Char.isDigit
  let (fraction, rest) := match afterWhole with
    | '.' :: tail => (tail.takeWhile Char.isDigit, tail.dropWhile Char.isDigit)
    | other => ([], other)
  if whole = [] ∧ fraction = [] then none
  else do
    let exponent ← readExponent? rest
    return ofDecimal negative (Digits.value (whole ++ fraction)) (exponent - fraction.length)

/-- A number without sign, or one of the words for the numbers that have no digits. -/
def readMagnitude? (negative : Bool) (text : List Char) : Option Double :=
  let word := text.map Char.toLower
  if word = "nan".toList then some .nan
  else if word = "inf".toList ∨ word = "infinity".toList then some (.infinity negative)
  else readUnsigned? negative text

/-- The double that a text spells: an optional sign, then a decimal number or a word. -/
def read? : List Char → Option Double
  | '-' :: rest => readMagnitude? true rest
  | '+' :: rest => readMagnitude? false rest
  | text => readMagnitude? false text

end TextTemplate.Double
