/-! # Decimal digits

Natural numbers and integers as runs of decimal digits, written and read. -/

namespace TextTemplate.Digits

/-- The decimal digits of a number, without leading zeros; zero is one digit. -/
def ofNat (value : Nat) : List Char := Nat.toDigits 10 value

/-- The digits of an integer, after a minus sign if it is negative. -/
def ofInt (value : Int) : List Char :=
  if value < 0 then '-' :: ofNat value.natAbs else ofNat value.natAbs

/-- The value of one decimal digit. -/
def digitValue (digit : Char) : Nat := digit.toNat - '0'.toNat

/-- The number that a run of decimal digits spells; the empty run spells zero. -/
def value (digits : List Char) : Nat :=
  digits.foldl (fun total digit => 10 * total + digitValue digit) 0

/-- An integer of digits after an optional sign, with at least one digit. -/
def readInt? (text : List Char) : Option Int :=
  let read (digits : List Char) : Option Nat :=
    if digits ≠ [] ∧ digits.all Char.isDigit then some (value digits) else none
  match text with
  | '-' :: digits => (read digits).map fun magnitude => -(magnitude : Int)
  | '+' :: digits => (read digits).map Int.ofNat
  | digits => (read digits).map Int.ofNat

/-- Whether an integer fits into the machine's signed word of 64 bits. -/
def fitsWord (value : Int) : Bool := -(Nat.pow 2 63 : Int) ≤ value && value < Nat.pow 2 63

/-- The number of a run of digits that may be set apart by underscores after the first digit. -/
def readGrouped? : List Char → Option Nat
  | [] => none
  | first :: rest =>
      if first.isDigit ∧ rest.all (fun c => c.isDigit || c == '_') then
        some (value ((first :: rest).filter (· ≠ '_')))
      else none

/-- An integer of grouped digits after an optional sign. -/
def readGroupedInt? : List Char → Option Int
  | '-' :: digits => (readGrouped? digits).map fun magnitude => -(magnitude : Int)
  | '+' :: digits => (readGrouped? digits).map Int.ofNat
  | digits => (readGrouped? digits).map Int.ofNat

/-- The value of a hexadecimal digit. -/
def hexValue? (c : Char) : Option Nat :=
  if c.isDigit then some (digitValue c)
  else if 'a' ≤ c ∧ c ≤ 'f' then some (c.toNat - 'a'.toNat + 10)
  else if 'A' ≤ c ∧ c ≤ 'F' then some (c.toNat - 'A'.toNat + 10)
  else none

/-- The number that a run of hexadecimal digits spells; the empty run spells zero. -/
def readHex? (digits : List Char) : Option Nat :=
  digits.foldlM (fun total digit => (hexValue? digit).map (16 * total + ·)) 0

end TextTemplate.Digits
