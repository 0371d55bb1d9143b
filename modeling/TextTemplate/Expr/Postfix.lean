import TextTemplate.Expr.Basic
import TextTemplate.Fault

/-! # Expressions in postfix order

An expression can be written as a list of items in which every operator comes after its operands.
Such a list needs no brackets: one pass over it, with the finished operands on a stack, builds the
tree. The depth of every part is counted on the way, so that a part that is too deep is found as
soon as it is finished. -/

namespace TextTemplate

/-- An item of an expression in postfix order. -/
inductive PostfixItem where
  /-- An operand without parts. -/
  | operand (expr : Expr)
  /-- An operator that takes the last two operands, written at `span`. -/
  | binary (operator : BinaryOperator) (span : Span)
  /-- An operator that takes the last operand, written at `span`. -/
  | unary (operator : UnaryOperator) (span : Span)
  /-- A method that takes the last `count` operands. -/
  | call (name : String) (count : Nat) (span : Span)
  /-- An array of the last `count` operands. -/
  | array (count : Nat) (span : Span)
  /-- The key for the operand before it; `stop` is the span where the key ends. -/
  | index (stop : Span)

namespace PostfixItem

/-- An expression with its depth: the number of its levels. -/
structure Operand where
  expr : Expr
  depth : Nat

/-- Puts a composite expression on the stack, if it is not too deep. -/
def push (limit : Nat) (expr : Expr) (depth : Nat) (stack : List Operand) :
    Except Fault (List Operand) :=
  if limit < depth then .error ⟨.expressionTooDeep limit, expr.span⟩
  else .ok (⟨expr, depth⟩ :: stack)

/-- The depth of the deepest operand. -/
def maxOperandDepth (operands : List Operand) : Nat := operands.foldl (max · ·.depth) 0

/-- Takes the last `count` operands of the stack, in the order that they were put there. -/
def takeList? (count : Nat) (stack : List Operand) : Option (List Operand × List Operand) :=
  if count ≤ stack.length then some ((stack.take count).reverse, stack.drop count) else none

/-- What an item makes of the stack of finished operands, the last one first. -/
def apply (limit : Nat) : PostfixItem → List Operand → Except Fault (List Operand)
  | .operand expr, stack => .ok (⟨expr, 1⟩ :: stack)
  | .binary operator _, right :: left :: stack =>
      let span := left.expr.span.merge right.expr.span
      push limit (.binary operator left.expr right.expr span) (max left.depth right.depth + 1) stack
  | .binary _ span, _ => .error ⟨.missingOperand, span⟩
  | .unary operator span, right :: stack =>
      push limit (.unary operator right.expr (span.merge right.expr.span)) (right.depth + 1) stack
  | .unary _ span, [] => .error ⟨.missingOperand, span⟩
  | .call name count span, stack =>
      match takeList? count stack with
      | some (arguments, stack) =>
          push limit (.call name (arguments.map (·.expr)) span) (maxOperandDepth arguments + 1) stack
      | none => .error ⟨.missingArgument, span⟩
  | .array count span, stack =>
      match takeList? count stack with
      | some (items, stack) =>
          push limit (.array (items.map (·.expr)) span) (maxOperandDepth items + 1) stack
      | none => .error ⟨.missingArgument, span⟩
  | .index stop, key :: object :: stack =>
      push limit (.member object.expr key.expr (object.expr.span.merge stop))
        (max object.depth key.depth + 1) stack
  | .index stop, _ => .error ⟨.missingOperand, stop⟩

/-- What a list of items makes of the stack. -/
def applyAll (limit : Nat) : List PostfixItem → List Operand → Except Fault (List Operand)
  | [], stack => .ok stack
  | item :: rest, stack => do applyAll limit rest (← item.apply limit stack)

end PostfixItem

/-- The expression that a list of items denotes. The span of what surrounds the expression is named
when there is none. -/
def Expr.ofPostfix (limit : Nat) (extent : Span) (items : List PostfixItem) : Except Fault Expr := do
  match (← PostfixItem.applyAll limit items []).reverse with
  | [] => .error ⟨.expectedExpression, extent⟩
  | [only] => .ok only.expr
  | _ :: second :: _ => .error ⟨.invalidExpression, second.expr.span⟩

end TextTemplate
