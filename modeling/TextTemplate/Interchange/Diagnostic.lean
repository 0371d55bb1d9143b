import TextTemplate.Diagnostic
import TextTemplate.Interchange.Span
import TextTemplate.Json.Reader

/-! # Diagnostics in the interchange format

A record in which the numbers of the span are fields of their own. The category is stored next to
the code and is not checked against it. -/

namespace TextTemplate.Diagnostic

/-- The names of the fields. The last one is left out when there is no suggestion. -/
def fieldNames : List String :=
  ["file", "code", "category", "message"] ++ Span.fieldNames ++ ["source_line", "suggestion"]

/-- The first number that is too large for a code. -/
def codeBound : Nat := Nat.pow 2 16

/-- A diagnostic as an interchange value. -/
def toJson (d : Diagnostic) : Json :=
  .object <|
    [("file", .string d.file), ("code", Json.ofNat d.code),
      ("category", .string d.category.name), ("message", .string d.message)] ++
    d.span.jsonFields ++ [("source_line", .string d.sourceLine)] ++
    match d.suggestion with
    | some suggestion => [("suggestion", .string suggestion)]
    | none => []

/-- The diagnostic of an interchange value. -/
def ofJson? (json : Json) : Option Diagnostic :=
  match json.record? fieldNames (fieldNames.length - 1) with
  | some [some file, some code, some category, some message, some line, some column,
      some endLine, some endColumn, some sourceLine, suggestion] => do
      return {
        file := ← file.string?
        code := ← code.natBelow? codeBound
        category := ← (category.unitVariant? (Json.maxDepth - 1)).bind Category.ofName?
        message := ← message.string?
        span := ← Span.ofFields? line column endLine endColumn
        sourceLine := ← sourceLine.string?
        suggestion := ← Json.optional? Json.string? suggestion }
  | _ => none

/-- The diagnostic of a JSON text. -/
def read? (text : List Char) : Option Diagnostic := (Json.read? text).bind ofJson?

end TextTemplate.Diagnostic
