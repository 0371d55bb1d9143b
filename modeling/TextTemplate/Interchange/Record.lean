import TextTemplate.Json.Basic
import TextTemplate.Text.Digits

/-! # Records and variants in JSON

The conventions of the interchange format. A record is an object, or an array of its fields in
order; unknown fields are skipped and a known field may not be repeated. A variant with data is an
object of one field, a variant without data its name alone. Each array and object that is looked
into uses up one of the levels of nesting that reading allows. -/

namespace TextTemplate.Json

/-- The value of the first field with a name. -/
def field? (name : String) : List (String × Json) → Option Json
  | [] => none
  | (other, value) :: rest => if other = name then some value else field? name rest

/-- How many fields have a name. -/
def fieldCount (name : String) (fields : List (String × Json)) : Nat :=
  (fields.filter (·.1 == name)).length

/-- The values of the named fields of a record, in the order of the names; `none` for one that is
missing. An array must hold at least `least` fields, and no more than there are names. -/
def record? (names : List String) (least : Nat) : Json → Option (List (Option Json))
  | .object fields =>
      if names.all fun name => fieldCount name fields ≤ 1 then
        some (names.map fun name => field? name fields)
      else none
  | .array items =>
      if least ≤ items.length ∧ items.length ≤ names.length then
        some (items.map some ++ List.replicate (names.length - items.length) none)
      else none
  | _ => none

/-- A variant with data. -/
def variant (name : String) (data : Json) : Json := .object [(name, data)]

/-- The name and the data of a variant that has data. -/
def variant? : Json → Option (String × Json)
  | .object [(name, value)] => some (name, value)
  | _ => none

/-- The name of a variant without data. With a level to spare it may also be an object whose only
field is null. -/
def unitVariant? (levels : Nat) : Json → Option String
  | .string name => some name
  -- The object is looked into, the name alone is not.
  | .object [(name, .null)] => if levels = 0 then none else some name
  | _ => none

/-- A string. -/
def string? : Json → Option String
  | .string value => some value
  | _ => none

/-- A truth value. -/
def boolean? : Json → Option Bool
  | .boolean value => some value
  | _ => none

/-- The items of an array. -/
def items? : Json → Option (List Json)
  | .array items => some items
  | _ => none

/-- A natural number below a bound, spelled with digits alone. -/
def natBelow? (bound : Nat) : Json → Option Nat
  | .number spelling =>
      if spelling.toList.all Char.isDigit ∧ Digits.value spelling.toList < bound then
        some (Digits.value spelling.toList)
      else none
  | _ => none

/-- An optional field: missing and null both mean that there is no value. -/
def optional? {α : Type} (read : Json → Option α) : Option Json → Option (Option α)
  | none => some none
  | some .null => some none
  | some value => (read value).map some

end TextTemplate.Json
