import TextTemplate.Operator
import TextTemplate.Value.Equality

/-! # Operations on values

What operators make of evaluated operands, and what brackets after a value find in it. No operation
fails: one without a meaning gives null, or what is not a number. -/

namespace TextTemplate.Value

/-! ### Whole numbers of 32 bits -/

/-- A signed number of 32 bits as a value. -/
def ofInt32 (value : Int32) : Value := .number (.ofWord value.toInt)

/-- The number of a value, reduced to 32 bits with a sign. -/
def toInt32 (value : Value) : Int32 := value.toNumber.toInt32

/-- The number of a value, reduced to 32 bits without a sign. -/
def toUInt32 (value : Value) : UInt32 := value.toNumber.toUInt32

/-- By how many places a value shifts: its lowest five bits count. -/
def shiftCount (value : Value) : UInt32 := value.toUInt32 % 32

/-! ### Operators -/

/-- The sum: of two numbers, or the texts one after the other if one of the values is a string. -/
def plus (left right : Value) : Value :=
  match left, right with
  -- One string makes a string of both.
  | .text _, _ | _, .text _ => .text (String.ofList (left.display ++ right.display))
  | _, _ => .number (left.toNumber.add right.toNumber)

/-- Whether the order of two values is one of those that a test accepts. -/
def inOrder (accepts : Ordering → Bool) (left right : Value) : Value :=
  .boolean ((left.order? right).any accepts)

/-- A binary operator applied to its operands. -/
def binary : BinaryOperator → Value → Value → Value
  | .or, left, right => if left.isTruthy then left else right
  | .and, left, right => if left.isTruthy then right else left
  | .bitOr, left, right => ofInt32 (left.toInt32 ||| right.toInt32)
  | .bitXor, left, right => ofInt32 (left.toInt32 ^^^ right.toInt32)
  | .bitAnd, left, right => ofInt32 (left.toInt32 &&& right.toInt32)
  | .equal, left, right => .boolean (looseEq left right)
  | .notEqual, left, right => .boolean (!looseEq left right)
  | .strictEqual, left, right => .boolean (strictEq left right)
  | .strictNotEqual, left, right => .boolean (!strictEq left right)
  | .less, left, right => inOrder Ordering.isLT left right
  | .lessEqual, left, right => inOrder Ordering.isLE left right
  | .greater, left, right => inOrder Ordering.isGT left right
  | .greaterEqual, left, right => inOrder Ordering.isGE left right
  | .shiftLeft, left, right => ofInt32 (left.toInt32 <<< right.shiftCount.toInt32)
  | .shiftRight, left, right => ofInt32 (left.toInt32 >>> right.shiftCount.toInt32)
  | .unsignedShiftRight, left, right =>
      .number (.ofWord (left.toUInt32 >>> right.shiftCount).toNat)
  | .add, left, right => plus left right
  | .subtract, left, right => .number (left.toNumber.subtract right.toNumber)
  | .multiply, left, right => .number (left.toNumber.multiply right.toNumber)
  | .divide, left, right => .number (left.toNumber.divide right.toNumber)
  | .modulo, left, right => .number (left.toNumber.modulo right.toNumber)
  | .power, left, right => .number (left.toNumber.power right.toNumber)

/-- A unary operator applied to its operand. -/
def unary : UnaryOperator → Value → Value
  | .not, operand => .boolean (!operand.isTruthy)
  | .bitNot, operand => ofInt32 (~~~operand.toInt32)
  | .negate, operand => .number operand.toNumber.negate

/-! ### Members -/

/-- The place that a number names: it must be a whole number that is not negative. -/
def placeOfNumber? (value : Numeric) : Option Nat :=
  if !value.isIntegral ∨ value.compare? (.double (.zero false)) = some .lt then none
  else (value.toInt?.map Int.toNat).filter (· < wordBound)

/-- The place that a key names: a number, or a string that spells one. -/
def placeOf? : Value → Option Nat
  | .number value => placeOfNumber? value
  | .text value => (Numeric.parse? value.toList).bind placeOfNumber?
  | _ => none

/-- The length of an array or a string, if that is what a key asks for. -/
def lengthOf? (length : Nat) : Value → Option Value
  | .text "length" => some (.number (.ofLength length))
  | _ => none

/-- What lies in a value under a key: the item at a place, the field with the displayed key, or the
character at a place; null if there is none. -/
def member (object key : Value) : Value :=
  match object with
  | .array items =>
      (lengthOf? items.length key).getD <|
        ((placeOf? key).bind fun place => items[place]?).getD .null
  | .object fields => (field? (String.ofList key.display) fields).getD .null
  | .text value =>
      (lengthOf? value.toList.length key).getD <|
        match (placeOf? key).bind fun place => value.toList[place]? with
        | some c => .text (String.singleton c)
        | none => .null
  | _ => .null

end TextTemplate.Value
