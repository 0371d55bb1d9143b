import TextTemplate.Fault
import TextTemplate.Numeric.Text
import TextTemplate.Operator
import TextTemplate.Text.Printable

/-! # Tokens

The words of expressions. -/

namespace TextTemplate

/-- A word of an expression. -/
inductive TokenKind where
  /-- A number, classified by its spelling. -/
  | number (value : Numeric)
  /-- A string, with its escapes decoded. -/
  | text (value : String)
  | boolean (value : Bool)
  /-- The dotted path of a variable. -/
  | identifier (path : String)
  /-- A name that a parenthesis follows. -/
  | method (name : String)
  /-- A dotted suffix of a closing bracket. -/
  | property (name : String)
  | operator (operator : BinaryOperator)
  | unary (operator : UnaryOperator)
  | opening (bracket : Bracket)
  | closing (bracket : Bracket)
  | comma
  deriving DecidableEq

namespace TokenKind

/-- Whether an operand ends with this token, so that a bracket after it is an index and a minus
sign after it subtracts. -/
def endsValue : TokenKind → Bool
  | .number _ | .text _ | .boolean _ | .identifier _ | .property _ | .closing _ => true
  | .method _ | .operator _ | .unary _ | .opening _ | .comma => false

/-- The displayed form. -/
def display : TokenKind → List Char
  | .number value => value.display
  | .text value => Printable.quoted value.toList
  | .boolean value => if value then "true".toList else "false".toList
  | .identifier path => path.toList
  | .method name => name.toList ++ ['(']
  | .property name => '.' :: name.toList
  | .operator symbol => symbol.symbol.toList
  | .unary symbol => symbol.symbol.toList
  | .opening bracket => [bracket.opening]
  | .closing bracket => [bracket.closing]
  | .comma => [',']

end TokenKind

/-- A token and the span that it takes. -/
structure Token where
  kind : TokenKind
  span : Span
  deriving DecidableEq

/-- Words that cannot name a loop variable. -/
def reservedWords : List String :=
  ["true", "false", "in", "if", "elif", "else", "endif", "for", "endfor"]

end TextTemplate
