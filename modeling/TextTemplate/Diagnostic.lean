import TextTemplate.Fault

/-! # Diagnostics

A fault as it is reported: with its code and category, the name of the source, the line that it is
found in, and advice. -/

namespace TextTemplate

/-- The two groups of codes. -/
inductive Category where
  /-- Faults of expressions. -/
  | expression
  /-- Faults of tags and blocks. -/
  | template
  deriving DecidableEq

namespace Category

/-- The category of a code: codes from 200 to 299 concern the template. -/
def ofCode (code : Nat) : Category :=
  if 200 ≤ code ∧ code ≤ 299 then .template else .expression

/-- The displayed name. -/
def name : Category → String
  | .expression => "syntax"
  | .template => "structure"

/-- The category of a name. -/
def ofName? (name : String) : Option Category :=
  if name = "syntax" then some .expression
  else if name = "structure" then some .template
  else none

end Category

/-- A reported fault. -/
structure Diagnostic where
  /-- The name of the source. -/
  file : String
  code : Nat
  category : Category
  message : String
  span : Span
  /-- The line that the span starts in. -/
  sourceLine : String
  suggestion : Option String
  deriving DecidableEq

namespace Diagnostic

/-- The displayed form of a code. -/
def codeText (code : Nat) : String := "E" ++ toString code

/-- A diagnostic whose category is that of its code. -/
def new (file : String) (code : Nat) (message : String) (span : Span) (sourceLine : String)
    (suggestion : Option String) : Diagnostic :=
  ⟨file, code, .ofCode code, message, span, sourceLine, suggestion⟩

/-- A diagnostic located in a source; the line is empty if the source has no such line. -/
def located (source : Source) (code : Nat) (message : String) (span : Span)
    (suggestion : Option String) : Diagnostic :=
  new source.name code message span
    (String.ofList ((source.line? span.start.line).getD [])) suggestion

/-- The diagnostic of a fault in a source. -/
def ofFault (source : Source) (fault : Fault) : Diagnostic :=
  located source fault.cause.code fault.cause.message fault.span fault.cause.advice?

/-- The displayed form. -/
def display (d : Diagnostic) : String :=
  String.ofList d.span.display ++ ": " ++ codeText d.code ++ " [" ++ d.category.name ++ "] " ++
    d.message

end Diagnostic

end TextTemplate
