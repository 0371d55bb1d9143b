import TextTemplate.Json.Basic
import TextTemplate.Json.Writer
import TextTemplate.Numeric.Text
import TextTemplate.Text.Blank

/-! # Values

What expressions evaluate to, and what the data of a template consists of: its truth, its number,
its text, and what lies inside it. -/

namespace TextTemplate

/-- A value. -/
inductive Value where
  /-- Nothing, as for data that is missing. -/
  | null
  | boolean (value : Bool)
  | number (value : Numeric)
  | text (value : String)
  | array (items : List Value)
  /-- Values under keys, in order. -/
  | object (fields : List (String × Value))

namespace Value

instance : Inhabited Value := ⟨.null⟩

/-! ### Kinds and coercions -/

/-- The name of the kind of a value. -/
def kindName : Value → String
  | .null => "null"
  | .boolean _ => "boolean"
  | .number _ => "number"
  | .text _ => "string"
  | .array _ => "array"
  | .object _ => "object"

/-- Whether a value counts as true: everything does but null, false, zero, what is not a number,
and the empty string. -/
def isTruthy : Value → Bool
  | .null => false
  | .boolean value => value
  | .number value => !value.isZero && !value.isNaN
  | .text value => !value.toList.isEmpty
  | .array _ | .object _ => true

/-- A truth value as a number. -/
def numberOfBoolean (value : Bool) : Numeric := .double (.ofInt (if value then 1 else 0))

/-- The number of a value: zero for null, zero or one for truth values, the number that a string
spells with blanks around it, and otherwise not a number. -/
def toNumber : Value → Numeric
  | .null => .double (.zero false)
  | .boolean value => numberOfBoolean value
  | .number value => value
  | .text value => (Numeric.parse? (trim value.toList)).getD (.double .nan)
  | .array _ | .object _ => .double .nan

/-! ### Fields and items -/

/-- The value of the first field with a key. -/
def field? (key : String) : List (String × Value) → Option Value
  | [] => none
  | (other, value) :: rest => if other = key then some value else field? key rest

/-- The fields with a new value under a key: in the place of the old value if there is one, and at
the end otherwise. -/
def insertField (key : String) (value : Value) : List (String × Value) → List (String × Value)
  | [] => [(key, value)]
  | (other, old) :: rest =>
      if other = key then (key, value) :: rest else (other, old) :: insertField key value rest

/-- The largest length and place, bounded by the machine's word size. -/
def wordBound : Nat := Nat.pow 2 64

/-- The place that a text spells: digits, with or without a plus sign before them. -/
def place? (text : List Char) : Option Nat :=
  let digits := match text with
    | '+' :: rest => rest
    | other => other
  if digits ≠ [] ∧ digits.all Char.isDigit ∧ Digits.value digits < wordBound then
    some (Digits.value digits)
  else none

/-- What lies inside a value under one segment of a path: the field with that key, or the item at
that place. -/
def segment? (key : String) : Value → Option Value
  | .object fields => field? key fields
  | .array items => (place? key.toList).bind fun place => items[place]?
  | _ => none

/-- The length of an array or of a string, in characters. -/
def length? : Value → Option Nat
  | .array items => some items.length
  | .text value => some value.toList.length
  | _ => none

/-! ### JSON and text -/

mutual

/-- A value as JSON. A number has every digit of its displayed form, and is null when it is not
finite. -/
def toJson : Value → Json
  | .null => .null
  | .boolean value => .boolean value
  | .number value =>
      if value.isFinite then .number (String.ofList value.display) else .null
  | .text value => .string value
  | .array items => .array (listToJson items)
  | .object fields => .object (fieldsToJson fields)

/-- The items of an array as JSON. -/
def listToJson : List Value → List Json
  | [] => []
  | item :: rest => toJson item :: listToJson rest

/-- The fields of an object as JSON. -/
def fieldsToJson : List (String × Value) → List (String × Json)
  | [] => []
  | (key, value) :: rest => (key, toJson value) :: fieldsToJson rest

end

mutual

/-- The displayed form: nothing for null, the items of an array with commas between them, and JSON
for an object. -/
def display : Value → List Char
  | .null => []
  | .boolean value => if value then "true".toList else "false".toList
  | .number value => value.display
  | .text value => value.toList
  | .array items => displayList items
  | .object fields => (Json.object (fieldsToJson fields)).write

/-- The displayed forms of items, with commas between them. -/
def displayList : List Value → List Char
  | [] => []
  | [item] => display item
  | item :: rest => display item ++ ',' :: displayList rest

end

end Value

end TextTemplate
