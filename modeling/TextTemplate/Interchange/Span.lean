import TextTemplate.Interchange.Record
import TextTemplate.Source.Span

/-! # Spans in the interchange format

A span is a record of four numbers: line and column of its start, and line and column of its end.
Whatever has a span is a record of its kind and its span. -/

namespace TextTemplate

namespace Span

/-- The names of the fields of a span. -/
def fieldNames : List String := ["line", "column", "end_line", "end_column"]

/-- The numbers of a span, in the order of their names. -/
def numbers (span : Span) : List Nat :=
  [span.start.line, span.start.column, span.stop.line, span.stop.column]

/-- The fields of a span. -/
def jsonFields (span : Span) : List (String × Json) :=
  fieldNames.zip (span.numbers.map Json.ofNat)

/-- A span as an interchange value. -/
def toJson (span : Span) : Json := .object span.jsonFields

/-- The first number that is too large for a line or a column. -/
def placeBound : Nat := Nat.pow 2 32

/-- The span of four interchange values. -/
def ofFields? (line column endLine endColumn : Json) : Option Span := do
  return ⟨⟨.ofNat (← line.natBelow? placeBound), .ofNat (← column.natBelow? placeBound)⟩,
    ⟨.ofNat (← endLine.natBelow? placeBound), .ofNat (← endColumn.natBelow? placeBound)⟩⟩

/-- The span of an interchange value, read with `levels` levels of nesting left. -/
def ofJson? (levels : Nat) (json : Json) : Option Span :=
  if levels = 0 then none
  else
    match json.record? fieldNames fieldNames.length with
    | some [some line, some column, some endLine, some endColumn] =>
        ofFields? line column endLine endColumn
    | _ => none

end Span

/-- A record of a kind and a span. -/
def Json.spanned (kind : Json) (span : Span) : Json :=
  .object [("kind", kind), ("span", span.toJson)]

/-- A record of a variant with data and a span. -/
def Json.spannedVariant (name : String) (data : Json) (span : Span) : Json :=
  (Json.variant name data).spanned span

/-- The kind and the span of a record, whose fields are read with `levels` levels of nesting
left. -/
def Json.spanned? (levels : Nat) (json : Json) : Option (Json × Span) :=
  match json.record? ["kind", "span"] 2 with
  | some [some kind, some span] => do return (kind, ← Span.ofJson? levels span)
  | _ => none

end TextTemplate
