import TextTemplate.Environment
import TextTemplate.Expr.Basic
import TextTemplate.Registry.Basic
import TextTemplate.Value.Operation

/-! # Evaluation

The value of an expression over an environment. Evaluation always gives a value: what is missing,
and a method that is not registered, is null. -/

namespace TextTemplate.Expr

mutual

/-- The value of an expression. The right operand of a logical operator only matters where the left
one does not decide. -/
def eval (env : Environment) (methods : Registry) : Expr → Value
  | .number value _ => .number value
  | .text value _ => .text value
  | .boolean value _ => .boolean value
  | .array items _ => .array (evalList env methods items)
  | .variable path _ => env.resolve path
  | .binary operator left right _ =>
      -- Evaluation does nothing but give a value, so the right operand may as well be evaluated.
      Value.binary operator (eval env methods left) (eval env methods right)
  | .unary operator operand _ => Value.unary operator (eval env methods operand)
  | .call name arguments _ =>
      (methods.call? name (evalList env methods arguments)).getD .null
  | .member object key _ => Value.member (eval env methods object) (eval env methods key)

/-- The values of expressions. -/
def evalList (env : Environment) (methods : Registry) : List Expr → List Value
  | [] => []
  | expr :: rest => eval env methods expr :: evalList env methods rest

end

end TextTemplate.Expr
