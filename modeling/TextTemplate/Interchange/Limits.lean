import TextTemplate.Interchange.Record
import TextTemplate.Json.Reader
import TextTemplate.Limits

/-! # Limits in the interchange format

A record of two numbers, each of which may be left out. -/

namespace TextTemplate.Limits

/-- The names of the fields. -/
def fieldNames : List String := ["max_block_depth", "max_expression_depth"]

/-- The first number that is too large for a limit. -/
def bound : Nat := Nat.pow 2 64

/-- Limits as an interchange value. -/
def toJson (limits : Limits) : Json :=
  .object (fieldNames.zip
    [Json.ofNat limits.maxBlockDepth, Json.ofNat limits.maxExpressionDepth])

/-- A limit, or its default if it is left out. -/
def limitOrDefault? (default : Nat) : Option Json → Option Nat
  | none => some default
  | some json => json.natBelow? bound

/-- The limits of an interchange value. -/
def ofJson? (json : Json) : Option Limits :=
  let default : Limits := {}
  match json.record? fieldNames 0 with
  | some [blocks, levels] => do
      return ⟨← limitOrDefault? default.maxBlockDepth blocks,
        ← limitOrDefault? default.maxExpressionDepth levels⟩
  | _ => none

/-- The limits of a JSON text. -/
def read? (text : List Char) : Option Limits := (Json.read? text).bind ofJson?

end TextTemplate.Limits
