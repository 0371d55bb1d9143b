import TextTemplate.Json.Basic

/-! # Writing JSON

The compact form: no blanks, fields in order, and in strings only the escapes that JSON needs. -/

namespace TextTemplate.Json

/-- A digit of a hexadecimal number, in lower case. -/
def hexDigit (value : Nat) : Char := Nat.digitChar (value % 16)

/-- How a character is written inside a string. -/
def escape (c : Char) : List Char :=
  if c = '"' then ['\\', '"']
  else if c = '\\' then ['\\', '\\']
  else if c = '\x08' then ['\\', 'b']
  else if c = '\x0c' then ['\\', 'f']
  else if c = '\n' then ['\\', 'n']
  else if c = '\r' then ['\\', 'r']
  else if c = '\t' then ['\\', 't']
  else if c.toNat < 0x20 then
    ['\\', 'u', '0', '0', hexDigit (c.toNat / 16), hexDigit c.toNat]
  else [c]

/-- A string in quotes. -/
def quoted (text : String) : List Char := '"' :: text.toList.flatMap escape ++ ['"']

mutual

/-- The compact text of a value. What has no reading has no text either, and is written as null. -/
def write : Json → List Char
  | .null => "null".toList
  | .boolean value => if value then "true".toList else "false".toList
  | .number spelling => spelling.toList
  | .string value => quoted value
  | .unreadable => "null".toList
  | .array items => '[' :: writeItems items ++ [']']
  | .object fields => '\x7b' :: writeFields fields ++ ['\x7d']

/-- Values with commas between them. -/
def writeItems : List Json → List Char
  | [] => []
  | [item] => write item
  | item :: rest => write item ++ ',' :: writeItems rest

/-- Names and values with commas between them. -/
def writeFields : List (String × Json) → List Char
  | [] => []
  | [(name, value)] => quoted name ++ ':' :: write value
  | (name, value) :: rest => quoted name ++ ':' :: write value ++ ',' :: writeFields rest

end

/-- The compact text of a value, as a string. -/
def text (json : Json) : String := String.ofList json.write

end TextTemplate.Json
