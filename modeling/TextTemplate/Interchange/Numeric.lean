import TextTemplate.Double.Data
import TextTemplate.Numeric.Text
import TextTemplate.Interchange.Record

/-! # Numbers in the interchange format

A number is a variant named for its representation. Doubles are JSON numbers, null when they are
not finite; integers and decimals are strings, so that no digit is lost. -/

namespace TextTemplate.Numeric

/-- The data of a double. -/
def doubleToJson : Double → Json
  | .finite negative place => .number (String.ofList (Double.dataText negative place.val))
  | _ => .null

/-- A number as an interchange value. -/
def toJson : Numeric → Json
  | .double x => .object [("float", doubleToJson x)]
  | .integer i => .object [("integer", .string (String.ofList (Digits.ofInt i)))]
  | .decimal d => .object [("decimal", .string (String.ofList d.dataText))]

/-- Why a value is not a number of the interchange format. -/
inductive ReadFault where
  /-- It does not have the form of a number. -/
  | form
  /-- The text of an integer spells none. -/
  | integerText
  /-- The text of a decimal spells none. -/
  | decimalText
  /-- The scale of a decimal is out of bounds. -/
  | decimalScale
  deriving DecidableEq

/-- The double of a JSON number; `none` when it is too large. -/
def doubleOfJson? : Json → Option Double
  | .number spelling => Double.readData? spelling.toList
  | _ => none

/-- The number of an interchange value, read with `levels` levels of nesting left. -/
def ofJson (levels : Nat) (json : Json) : Except ReadFault Numeric :=
  if levels = 0 then .error .form
  else
    match json.variant? with
    | some ("float", data) =>
        match doubleOfJson? data with
        | some x => .ok (.double x)
        | none => .error .form
    | some ("integer", .string text) =>
        match Digits.readGroupedInt? text.toList with
        | some i => .ok (.integer i)
        | none => .error .integerText
    | some ("decimal", .string text) =>
        match Decimal.read? text.toList with
        -- A large scale takes a few characters here, and as many digits as it says when displayed.
        | some d => if scaleWithinBounds d then .ok (.decimal d) else .error .decimalScale
        | none => .error .decimalText
    | _ => .error .form

end TextTemplate.Numeric
