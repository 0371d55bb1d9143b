import TextTemplate.Expr.Basic
import TextTemplate.Numeric.Text

/-! # Writing expressions

The text of an expression, with one blank around binary operators and only the parentheses that
the binding of operators asks for. -/

namespace TextTemplate

/-! ### Numbers and strings -/

/-- The spelling of a number in an expression. A decimal without a fraction keeps a zero after its
point, so that it is read as a decimal again, and a negative zero keeps its sign. -/
def Numeric.spelling (value : Numeric) : List Char :=
  match value with
  | .double (.finite true place) =>
      if place.val = 0 then "-0".toList else value.display
  | .decimal _ =>
      if value.display.contains '.' then value.display else value.display ++ ".0".toList
  | _ => value.display

namespace Expr

/-- A digit of a hexadecimal number, in lower case. -/
def hexDigit (value : Nat) : Char := Nat.digitChar (value % 16)

/-- Whether a character is a control character. -/
def isControl (c : Char) : Bool := c.toNat < 0x20 || (0x7F ≤ c.toNat && c.toNat < 0xA0)

/-- How a character is written in a string. -/
def escape (c : Char) : List Char :=
  if c = '"' then ['\\', '"']
  else if c = '\\' then ['\\', '\\']
  else if c = '\n' then ['\\', 'n']
  else if c = '\t' then ['\\', 't']
  else if c = '\r' then ['\\', 'r']
  else if isControl c then
    ['\\', 'u', '0', '0', hexDigit (c.toNat / 16), hexDigit c.toNat]
  else [c]

/-- A string in double quotes. -/
def quoted (value : String) : List Char := '"' :: value.toList.flatMap escape ++ ['"']

/-! ### Parentheses -/

/-- Whether an operand of a binary operator is put into parentheses: it binds more weakly, or
equally and would be taken apart. `regrouping` is the associativity with which it would. -/
def needsParentheses (operator : BinaryOperator) (operand : Expr) (regrouping : Associativity) :
    Bool :=
  match operand with
  | .binary inner _ _ _ =>
      inner.precedence < operator.precedence ||
        (inner.precedence == operator.precedence && operator.associativity == regrouping)
  | _ => false

/-- Whether a number is less than zero. -/
def isNegative (value : Numeric) : Bool := value.compare? (.double (.zero false)) == some .lt

/-- Whether a bracket directly after the expression is its index. -/
def isIndexable : Expr → Bool
  | .number value _ => !isNegative value
  | .binary _ _ _ _ | .unary _ _ _ => false
  | _ => true

/-- Whether the text of the expression starts with a number. -/
def startsWithNumber : Expr → Bool
  | .number _ _ => true
  | .member object _ _ => isIndexable object && startsWithNumber object
  | _ => false

/-- Whether the expression is a binary operator with its operands. -/
def isBinary : Expr → Bool
  | .binary _ _ _ _ => true
  | _ => false

/-- A text, in parentheses if `grouped`. -/
def parenthesized (grouped : Bool) (text : List Char) : List Char :=
  if grouped then '(' :: text ++ [')'] else text

/-! ### Expressions -/

mutual

/-- The text of an expression. -/
def print : Expr → List Char
  | .number value _ => value.spelling
  | .text value _ => quoted value
  | .boolean value _ => if value then "true".toList else "false".toList
  | .array items _ => '[' :: printList items ++ [']']
  | .variable path _ => path.toList
  | .binary operator left right _ =>
      parenthesized (needsParentheses operator left .right) (print left) ++
        ' ' :: operator.symbol.toList ++
        ' ' :: parenthesized (needsParentheses operator right .left) (print right)
  | .unary operator operand _ =>
      -- A minus sign directly in front of a number would be read as the sign of the number.
      let blank := if operator = .negate ∧ operand.startsWithNumber then [' '] else []
      operator.symbol.toList ++ blank ++ parenthesized operand.isBinary (print operand)
  | .call name arguments _ => name.toList ++ '(' :: printList arguments ++ [')']
  | .member object key _ =>
      parenthesized (!object.isIndexable) (print object) ++ '[' :: print key ++ [']']

/-- The texts of expressions, with a comma and a blank between them. -/
def printList : List Expr → List Char
  | [] => []
  | [expr] => print expr
  | expr :: rest => print expr ++ ',' :: ' ' :: printList rest

end

end Expr

end TextTemplate
