import TextTemplate.Source.Span
import TextTemplate.Numeric.Arithmetic
import TextTemplate.Operator

/-! # Expressions

The tree of an expression. Every part knows the span that it was written in. -/

namespace TextTemplate

/-- An expression. -/
inductive Expr where
  /-- A number. -/
  | number (value : Numeric) (span : Span)
  /-- A string. -/
  | text (value : String) (span : Span)
  /-- A truth value. -/
  | boolean (value : Bool) (span : Span)
  /-- An array of the items' values. -/
  | array (items : List Expr) (span : Span)
  /-- The value at a dotted path. -/
  | variable (path : String) (span : Span)
  /-- An operator between two operands. -/
  | binary (operator : BinaryOperator) (left right : Expr) (span : Span)
  /-- An operator before its operand. -/
  | unary (operator : UnaryOperator) (operand : Expr) (span : Span)
  /-- The result of a method. -/
  | call (name : String) (arguments : List Expr) (span : Span)
  /-- The value under a key. -/
  | member (object key : Expr) (span : Span)

namespace Expr

instance : Inhabited Expr := ⟨.boolean false default⟩

/-- The span that an expression was written in. -/
def span : Expr → Span
  | .number _ span | .text _ span | .boolean _ span | .array _ span | .variable _ span
  | .binary _ _ _ span | .unary _ _ span | .call _ _ span | .member _ _ span => span

mutual

/-- Whether two expressions are built alike, of the same numbers, and written at the same places. -/
def same : Expr → Expr → Bool
  | .number value span, .number value' span' => value.sameNumber value' && span == span'
  | .text value span, .text value' span' => value == value' && span == span'
  | .boolean value span, .boolean value' span' => value == value' && span == span'
  | .array items span, .array items' span' => sameList items items' && span == span'
  | .variable path span, .variable path' span' => path == path' && span == span'
  | .binary operator left right span, .binary operator' left' right' span' =>
      operator == operator' && same left left' && same right right' && span == span'
  | .unary operator operand span, .unary operator' operand' span' =>
      operator == operator' && same operand operand' && span == span'
  | .call name arguments span, .call name' arguments' span' =>
      name == name' && sameList arguments arguments' && span == span'
  | .member object key span, .member object' key' span' =>
      same object object' && same key key' && span == span'
  | _, _ => false

/-- Whether two lists hold the same expressions in the same order. -/
def sameList : List Expr → List Expr → Bool
  | [], [] => true
  | expr :: rest, expr' :: rest' => same expr expr' && sameList rest rest'
  | _, _ => false

end

end Expr

end TextTemplate
