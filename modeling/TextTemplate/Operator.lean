/-! # Operators

The binary operators with their symbols, binding strength and associativity, and the unary ones. -/

namespace TextTemplate

/-- A binary operator, weakest binding first. -/
inductive BinaryOperator where
  | or
  | and
  | bitOr
  | bitXor
  | bitAnd
  | equal
  | notEqual
  | strictEqual
  | strictNotEqual
  | less
  | lessEqual
  | greater
  | greaterEqual
  | shiftLeft
  | shiftRight
  | unsignedShiftRight
  | add
  | subtract
  | multiply
  | divide
  | modulo
  | power
  deriving DecidableEq

/-- Which of two operators of equal strength takes the operand between them. -/
inductive Associativity where
  /-- The left one. -/
  | left
  /-- The right one. -/
  | right
  deriving DecidableEq

namespace BinaryOperator

/-- Every binary operator. -/
def all : List BinaryOperator :=
  [.or, .and, .bitOr, .bitXor, .bitAnd, .equal, .notEqual, .strictEqual, .strictNotEqual, .less,
    .lessEqual, .greater, .greaterEqual, .shiftLeft, .shiftRight, .unsignedShiftRight, .add,
    .subtract, .multiply, .divide, .modulo, .power]

/-- The symbol of an operator. -/
def symbol : BinaryOperator → String
  | .or => "||"
  | .and => "&&"
  | .bitOr => "|"
  | .bitXor => "^"
  | .bitAnd => "&"
  | .equal => "=="
  | .notEqual => "!="
  | .strictEqual => "==="
  | .strictNotEqual => "!=="
  | .less => "<"
  | .lessEqual => "<="
  | .greater => ">"
  | .greaterEqual => ">="
  | .shiftLeft => "<<"
  | .shiftRight => ">>"
  | .unsignedShiftRight => ">>>"
  | .add => "+"
  | .subtract => "-"
  | .multiply => "*"
  | .divide => "/"
  | .modulo => "%"
  | .power => "**"

/-- The operator with a symbol. -/
def ofSymbol? (symbol : List Char) : Option BinaryOperator :=
  all.find? fun operator => operator.symbol.toList == symbol

/-- The length of the longest symbol. -/
def maxSymbolLength : Nat := 3

/-- How strongly an operator binds its operands. -/
def precedence : BinaryOperator → Nat
  | .or => 1
  | .and => 2
  | .bitOr => 3
  | .bitXor => 4
  | .bitAnd => 5
  | .equal | .notEqual | .strictEqual | .strictNotEqual => 6
  | .less | .lessEqual | .greater | .greaterEqual => 7
  | .shiftLeft | .shiftRight | .unsignedShiftRight => 8
  | .add | .subtract => 9
  | .multiply | .divide | .modulo => 10
  | .power => 11

/-- Powers associate to the right, all other operators to the left. -/
def associativity : BinaryOperator → Associativity
  | .power => .right
  | _ => .left

/-- Whether an operator takes its operands before a later one, `incoming`, may have them: it binds
more strongly, or equally if the later one associates to the left. -/
def yieldsTo (operator incoming : BinaryOperator) : Bool :=
  match incoming.associativity with
  | .left => incoming.precedence ≤ operator.precedence
  | .right => incoming.precedence < operator.precedence

end BinaryOperator

/-- An operator in front of its operand. -/
inductive UnaryOperator where
  /-- The truth value's opposite. -/
  | not
  /-- All 32 bits inverted. -/
  | bitNot
  /-- The number with its sign changed. -/
  | negate
  deriving DecidableEq

namespace UnaryOperator

/-- Every unary operator. -/
def all : List UnaryOperator := [.not, .bitNot, .negate]

/-- The symbol of an operator. -/
def symbol : UnaryOperator → String
  | .not => "!"
  | .bitNot => "~"
  | .negate => "-"

end UnaryOperator

end TextTemplate
