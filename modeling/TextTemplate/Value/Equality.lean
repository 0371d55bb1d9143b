import TextTemplate.Numeric.Arithmetic
import TextTemplate.Value.Basic

/-! # Equality and order of values

Two equalities, one that looks at the kinds of the values and one that compares truth values and
strings with numbers as numbers, and the order of numbers and strings. -/

namespace TextTemplate.Value

mutual

/-- Whether two values are of one kind and equal. Numbers are equal by their value, arrays item by
item, and objects key by key in any order. -/
def strictEq : Value → Value → Bool
  | .null, .null => true
  | .boolean left, .boolean right => left == right
  | .number left, .number right => left.numericEq right
  | .text left, .text right => left == right
  | .array left, .array right => strictEqList left right
  -- Keys are distinct, so with equal lengths no field on the right is left out.
  | .object left, .object right => left.length == right.length && strictEqFields left right
  | _, _ => false

/-- Whether two lists are equal item by item. -/
def strictEqList : List Value → List Value → Bool
  | [], [] => true
  | left :: lefts, right :: rights => strictEq left right && strictEqList lefts rights
  | _, _ => false

/-- Whether every field on the left is equal to the one of the same key on the right. -/
def strictEqFields : List (String × Value) → List (String × Value) → Bool
  | [], _ => true
  | (key, left) :: rest, rights =>
      (match field? key rights with
        | some right => strictEq left right
        | none => false) && strictEqFields rest rights

end

/-- A value with a truth value replaced by its number. -/
def withoutBoolean : Value → Value
  | .boolean value => .number (numberOfBoolean value)
  | other => other

/-- Whether two values are equal when truth values count as numbers and a string next to a number
counts as the number that it spells. Null is equal to nothing else. -/
def looseEq (left right : Value) : Bool :=
  match left, right with
  | .null, .null => true
  | .null, _ | _, .null => false
  | _, _ =>
      match left.withoutBoolean, right.withoutBoolean with
      | .number value, .text spelling => value.numericEq (toNumber (.text spelling))
      | .text spelling, .number value => value.numericEq (toNumber (.text spelling))
      | left', right' => strictEq left' right'

/-- The order of two values: of strings by their characters, and otherwise of their numbers. -/
def order? (left right : Value) : Option Ordering :=
  match left, right with
  | .text left, .text right => some (compare left right)
  | _, _ => left.toNumber.compare? right.toNumber

end TextTemplate.Value
