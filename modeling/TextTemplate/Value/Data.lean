import TextTemplate.Json.Reader
import TextTemplate.Value.Basic

/-! # Data

Values read from JSON texts. A number is classified by its spelling, like a number in an
expression. Of several fields with one key the last value counts, at the place of the first. An
object that starts with a reserved key is a number too, spelled as a string. -/

namespace TextTemplate

/-- The number of a spelling. One whose scale cannot be represented is the nearest double, and not
a number if that is infinite. -/
def Numeric.ofSpelling (spelling : List Char) : Numeric :=
  match Numeric.parse? spelling with
  | some value => value
  | none =>
      match Double.read? spelling with
      | some value => .double (if value.isFinite then value else .nan)
      | none => .double .nan

namespace Value

/-- The fields with distinct keys. -/
def distinctFields (fields : List (String × Value)) : List (String × Value) :=
  fields.foldl (fun known (key, value) => insertField key value known) []

/-- The reserved key of spelled numbers. It is reserved only as an object's first key. -/
def spelledNumberKey : String := "$serde_json::private::Number"

/-- Whether the fields are meant as a spelled number. -/
def startsSpelledNumber (fields : List (String × Json)) : Bool :=
  fields.head?.any fun (key, _) => key == spelledNumberKey

/-- The number that the only field spells, without blanks around it. -/
def spelledNumber? : List (String × Json) → Option Value
  | [(_, .string spelling)] =>
      if Json.isNumber spelling.toList then some (.number (.ofSpelling spelling.toList)) else none
  | _ => none

mutual

/-- The value of a JSON tree; `none` if a part of it has no reading. -/
def ofJson? : Json → Option Value
  | .null => some .null
  | .boolean value => some (.boolean value)
  | .number spelling => some (.number (.ofSpelling spelling.toList))
  | .string value => some (.text value)
  | .unreadable => none
  | .array items => (listOfJson? items).map .array
  | .object fields =>
      if startsSpelledNumber fields then spelledNumber? fields
      else (fieldsOfJson? fields).map fun known => .object (distinctFields known)

/-- The values of JSON trees. -/
def listOfJson? : List Json → Option (List Value)
  | [] => some []
  | item :: rest => do return (← ofJson? item) :: (← listOfJson? rest)

/-- The values of fields. -/
def fieldsOfJson? : List (String × Json) → Option (List (String × Value))
  | [] => some []
  | (key, item) :: rest => do return (key, ← ofJson? item) :: (← fieldsOfJson? rest)

end

/-- The value of a JSON text that does not nest too deeply. -/
def read? (text : List Char) : Option Value :=
  (Json.read? text).bind fun json =>
    if json.depth ≤ Json.maxDepth then ofJson? json else none

end Value

end TextTemplate
