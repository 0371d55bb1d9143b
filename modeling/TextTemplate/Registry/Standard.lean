import TextTemplate.Numeric.Arithmetic
import TextTemplate.Registry.Basic

/-! # The standard methods

A small set of methods. Where a method looks at one argument only, that is the first, and null if
there is none. -/

namespace TextTemplate.Registry.Standard

/-- The first argument. -/
def first (arguments : List Value) : Value := arguments.headD .null

/-- A string of characters. -/
def ofChars (text : List Char) : Value := .text (String.ofList text)

/-- The displayed form with the letters of the Latin alphabet in upper case. -/
def upper (arguments : List Value) : Value := ofChars ((first arguments).display.map Char.toUpper)

/-- How many arguments there are. -/
def count (arguments : List Value) : Value := .number (.ofLength arguments.length)

/-- The displayed forms of all arguments with slashes between them. -/
def join (arguments : List Value) : Value :=
  ofChars (['/'].intercalate (arguments.map Value.display))

/-- The displayed form with a dollar sign before it. -/
def money (arguments : List Value) : Value := ofChars ('$' :: (first arguments).display)

/-- The name of the argument's kind. -/
def kind (arguments : List Value) : Value := .text (first arguments).kindName

/-- The argument's truth. -/
def truthy (arguments : List Value) : Value := .boolean (first arguments).isTruthy

/-- The argument's number. -/
def number (arguments : List Value) : Value := .number (first arguments).toNumber

/-- The double that the displayed form spells. -/
def double (arguments : List Value) : Value :=
  .number (.double ((Double.read? (first arguments).display).getD .nan))

/-- The whole number of 64 bits that the displayed form spells, or zero. -/
def whole (arguments : List Value) : Value :=
  .number (.ofWord (((Digits.readInt? (first arguments).display).filter Digits.fitsWord).getD 0))

/-- The argument as JSON. -/
def json (arguments : List Value) : Value := ofChars (first arguments).toJson.write

/-- The number under a key of a value, or zero. -/
def numberUnder (key : String) (value : Value) : Numeric :=
  ((value.segment? key).map Value.toNumber).getD (.double (.zero false))

/-- The sum over the items of an array of quantity times price; null for anything else. -/
def total (arguments : List Value) : Value :=
  match first arguments with
  | .array items =>
      .number <| items.foldl (fun sum item =>
        sum.add ((numberUnder "qty" item).multiply (numberUnder "price" item)))
        (.double (.zero false))
  | _ => .null

end Standard

/-- The registry of the standard methods. -/
def standard : Registry :=
  ⟨[("upper", Standard.upper), ("count", Standard.count), ("join", Standard.join),
    ("fmt.money", Standard.money), ("first", Standard.first), ("list", Value.array),
    ("type", Standard.kind), ("truthy", Standard.truthy), ("num", Standard.number),
    ("float", Standard.double), ("i64", Standard.whole), ("json", Standard.json),
    ("true", fun _ => .text "called true"), ("total", Standard.total)]⟩

end TextTemplate.Registry
