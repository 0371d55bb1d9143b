import TextTemplate.Expr.Parser

/-! # The grammar of expressions

What a list of tokens spells, said without a parser: a precedence grammar in which every production
gives the tree that it stands for. The depth of trees, which reading bounds, is defined here too. -/

namespace TextTemplate

/-! ### Levels -/

namespace BinaryOperator

/-- How strongly the left operand must bind: an operator that associates to the left may stand in
its own left operand. -/
def leftLevel (operator : BinaryOperator) : Nat :=
  match operator.associativity with
  | .left => operator.precedence
  | .right => operator.precedence + 1

/-- How strongly the right operand must bind. -/
def rightLevel (operator : BinaryOperator) : Nat :=
  match operator.associativity with
  | .left => operator.precedence + 1
  | .right => operator.precedence

/-- Operators of one strength associate alike. -/
theorem associativity_eq_of_precedence_eq {first second : BinaryOperator}
    (h : first.precedence = second.precedence) : first.associativity = second.associativity := by
  cases first <;> cases second <;> first | rfl | simp [precedence] at h

/-- An operand on the left binds at least as strongly as its operator. -/
theorem precedence_le_leftLevel (operator : BinaryOperator) :
    operator.precedence ≤ operator.leftLevel := by
  unfold leftLevel
  split <;> omega

/-- An operand on the right binds at least as strongly as its operator. -/
theorem precedence_le_rightLevel (operator : BinaryOperator) :
    operator.precedence ≤ operator.rightLevel := by
  unfold rightLevel
  split <;> omega

/-- An operator yields to a later one when what it makes may be the later one's left operand. -/
theorem yieldsTo_iff {operator incoming : BinaryOperator} :
    operator.yieldsTo incoming = true ↔ incoming.leftLevel ≤ operator.precedence := by
  unfold yieldsTo leftLevel
  cases incoming.associativity with
  | left => rw [decide_eq_true_eq]
  | right => rw [decide_eq_true_eq, Nat.lt_iff_add_one_le]

/-- An operator does not yield to a later one when what the later one makes may be its right
operand. -/
theorem yieldsTo_eq_false_iff {operator incoming : BinaryOperator} :
    operator.yieldsTo incoming = false ↔ operator.rightLevel ≤ incoming.precedence := by
  rw [← Bool.not_eq_true, yieldsTo_iff, Nat.not_le]
  by_cases same : operator.precedence = incoming.precedence
  · have alike := associativity_eq_of_precedence_eq same
    cases h : incoming.associativity <;> simp [leftLevel, rightLevel, alike, same, h]
  · cases h : incoming.associativity <;> cases h' : operator.associativity <;>
      simp only [leftLevel, rightLevel, h, h'] <;> omega

end BinaryOperator

/-! ### Productions -/

namespace Grammar

mutual

/-- An expression whose binary operators outside of brackets bind at least as strongly as `level`:
operands with binary operators between them, grouped by strength and associativity. -/
inductive Chain : Nat → List Token → Expr → Prop where
  /-- One operand. -/
  | operand {level : Nat} {tokens : List Token} {expr : Expr} :
      Prefixed tokens expr → Chain level tokens expr
  /-- A binary operator, which bounds what its operands may be. -/
  | binary {level : Nat} {operator : BinaryOperator} {span : Span} {lefts rights : List Token}
      {left right : Expr} :
      level ≤ operator.precedence → Chain operator.leftLevel lefts left →
      Chain operator.rightLevel rights right →
      Chain level (lefts ++ ⟨.operator operator, span⟩ :: rights)
        (.binary operator left right (left.span.merge right.span))

/-- An operand behind any number of prefix operators. -/
inductive Prefixed : List Token → Expr → Prop where
  | postfixed {tokens : List Token} {expr : Expr} : Postfixed tokens expr → Prefixed tokens expr
  | unary {operator : UnaryOperator} {span : Span} {tokens : List Token} {expr : Expr} :
      Prefixed tokens expr →
      Prefixed (⟨.unary operator, span⟩ :: tokens) (.unary operator expr (span.merge expr.span))

/-- A primary expression in front of any number of keys. -/
inductive Postfixed : List Token → Expr → Prop where
  | primary {tokens : List Token} {expr : Expr} : Primary tokens expr → Postfixed tokens expr
  /-- A key in brackets. -/
  | index {tokens keys : List Token} {object key : Expr} {opening closing : Span} :
      Postfixed tokens object → Chain 0 keys key →
      Postfixed (tokens ++ ⟨.opening .square, opening⟩ :: keys ++ [⟨.closing .square, closing⟩])
        (.member object key (object.span.merge closing))
  /-- A name after a dot. -/
  | property {tokens : List Token} {object : Expr} {name : String} {span : Span} :
      Postfixed tokens object →
      Postfixed (tokens ++ [⟨.property name, span⟩])
        (.member object (.text name span) (object.span.merge span))

/-- An expression that nothing outside of it can take apart. -/
inductive Primary : List Token → Expr → Prop where
  | number (value : Numeric) (span : Span) : Primary [⟨.number value, span⟩] (.number value span)
  | text (value : String) (span : Span) : Primary [⟨.text value, span⟩] (.text value span)
  | boolean (value : Bool) (span : Span) : Primary [⟨.boolean value, span⟩] (.boolean value span)
  | variable (path : String) (span : Span) :
      Primary [⟨.identifier path, span⟩] (.variable path span)
  /-- A method with its arguments. -/
  | call {name : String} {span opening closing : Span} {tokens : List Token}
      {arguments : List Expr} :
      Items tokens arguments →
      Primary (⟨.method name, span⟩ :: ⟨.opening .round, opening⟩ :: tokens ++
          [⟨.closing .round, closing⟩])
        (.call name arguments (span.merge closing))
  /-- An expression in parentheses, which leave no trace in the tree. -/
  | group {opening closing : Span} {tokens : List Token} {expr : Expr} :
      Chain 0 tokens expr →
      Primary (⟨.opening .round, opening⟩ :: tokens ++ [⟨.closing .round, closing⟩]) expr
  | array {opening closing : Span} {tokens : List Token} {items : List Expr} :
      Items tokens items →
      Primary (⟨.opening .square, opening⟩ :: tokens ++ [⟨.closing .square, closing⟩])
        (.array items (opening.merge closing))

/-- A list, which may be empty. -/
inductive Items : List Token → List Expr → Prop where
  | none : Items [] []
  | some {tokens : List Token} {items : List Expr} : Separated tokens items → Items tokens items

/-- Expressions with a comma between each and the next. -/
inductive Separated : List Token → List Expr → Prop where
  | last {tokens : List Token} {item : Expr} : Chain 0 tokens item → Separated tokens [item]
  | cons {tokens others : List Token} {item : Expr} {items : List Expr} {span : Span} :
      Chain 0 tokens item → Separated others items →
      Separated (tokens ++ ⟨.comma, span⟩ :: others) (item :: items)

end

/-- A tighter expression may stand where a looser one is allowed. -/
theorem Chain.weaken {level lower : Nat} {tokens : List Token} {expr : Expr}
    (chain : Chain level tokens expr) (le : lower ≤ level) : Chain lower tokens expr := by
  cases chain with
  | operand inner => exact .operand inner
  | binary binds left right => exact .binary (Nat.le_trans le binds) left right

end Grammar

/-! ### Depth -/

namespace Expr

/-- Whether an expression is built from others, or would be if its list were not empty. -/
def isComposite : Expr → Bool
  | .number _ _ | .text _ _ | .boolean _ _ | .variable _ _ => false
  | .array _ _ | .binary _ _ _ _ | .unary _ _ _ | .call _ _ _ | .member _ _ _ => true

mutual

/-- The number of levels of an expression: one more than the deepest of its parts. -/
def depth : Expr → Nat
  | .number _ _ | .text _ _ | .boolean _ _ | .variable _ _ => 1
  | .array items _ => depthOfList items + 1
  | .binary _ left right _ => max left.depth right.depth + 1
  | .unary _ operand _ => operand.depth + 1
  | .call _ arguments _ => depthOfList arguments + 1
  | .member object key _ => max object.depth key.depth + 1

/-- The depth of the deepest expression in a list. -/
def depthOfList : List Expr → Nat
  | [] => 0
  | expr :: rest => max expr.depth (depthOfList rest)

end

mutual

/-- An expression and everything that it is built from. -/
def parts : Expr → List Expr
  | .number value span => [.number value span]
  | .text value span => [.text value span]
  | .boolean value span => [.boolean value span]
  | .variable path span => [.variable path span]
  | .array items span => .array items span :: partsOfList items
  | .binary operator left right span =>
      .binary operator left right span :: (left.parts ++ right.parts)
  | .unary operator operand span => .unary operator operand span :: operand.parts
  | .call name arguments span => .call name arguments span :: partsOfList arguments
  | .member object key span => .member object key span :: (object.parts ++ key.parts)

/-- The expressions of a list and everything that they are built from. -/
def partsOfList : List Expr → List Expr
  | [] => []
  | expr :: rest => expr.parts ++ partsOfList rest

end

/-- Whether no composite expression of a list is deeper than a limit. -/
def NoneDeeper (limit : Nat) (exprs : List Expr) : Prop :=
  ∀ expr ∈ exprs, expr.isComposite → expr.depth ≤ limit

/-- Whether no composite part of an expression is deeper than a limit. -/
def Within (limit : Nat) (expr : Expr) : Prop := NoneDeeper limit expr.parts

/-- Whether no composite part of the expressions of a list is deeper than a limit. -/
def AllWithin (limit : Nat) (exprs : List Expr) : Prop := NoneDeeper limit (partsOfList exprs)

section Within

variable {limit : Nat} {span : Span}

attribute [local simp] parts isComposite depth

@[simp] theorem noneDeeper_nil : NoneDeeper limit [] := by
  simp [NoneDeeper]

@[simp] theorem noneDeeper_cons {expr : Expr} {rest : List Expr} :
    NoneDeeper limit (expr :: rest) ↔
      (expr.isComposite → expr.depth ≤ limit) ∧ NoneDeeper limit rest := by
  simp [NoneDeeper]

@[simp] theorem noneDeeper_append {left right : List Expr} :
    NoneDeeper limit (left ++ right) ↔ NoneDeeper limit left ∧ NoneDeeper limit right := by
  simp only [NoneDeeper, List.mem_append, or_imp, forall_and]

/-- What is not composite is within any limit. -/
theorem within_of_not_isComposite {expr : Expr} (h : expr.isComposite = false) :
    expr.Within limit := by
  cases expr <;> simp_all [Within]

@[simp] theorem within_binary {operator : BinaryOperator} {left right : Expr} :
    (binary operator left right span).Within limit ↔
      (left.Within limit ∧ right.Within limit) ∧ max left.depth right.depth + 1 ≤ limit := by
  rw [Within, parts, noneDeeper_cons, noneDeeper_append, and_comm]
  simp [Within]

@[simp] theorem within_unary {operator : UnaryOperator} {operand : Expr} :
    (unary operator operand span).Within limit ↔
      operand.Within limit ∧ operand.depth + 1 ≤ limit := by
  rw [Within, parts, noneDeeper_cons, and_comm]
  simp [Within]

@[simp] theorem within_member {object key : Expr} :
    (member object key span).Within limit ↔
      (object.Within limit ∧ key.Within limit) ∧ max object.depth key.depth + 1 ≤ limit := by
  rw [Within, parts, noneDeeper_cons, noneDeeper_append, and_comm]
  simp [Within]

@[simp] theorem within_call {name : String} {arguments : List Expr} :
    (call name arguments span).Within limit ↔
      AllWithin limit arguments ∧ depthOfList arguments + 1 ≤ limit := by
  rw [Within, parts, noneDeeper_cons, and_comm]
  simp [AllWithin]

@[simp] theorem within_array {items : List Expr} :
    (array items span).Within limit ↔
      AllWithin limit items ∧ depthOfList items + 1 ≤ limit := by
  rw [Within, parts, noneDeeper_cons, and_comm]
  simp [AllWithin]

@[simp] theorem allWithin_nil : AllWithin limit [] := by
  simp [AllWithin, partsOfList]

@[simp] theorem allWithin_cons {expr : Expr} {rest : List Expr} :
    AllWithin limit (expr :: rest) ↔ expr.Within limit ∧ AllWithin limit rest := by
  rw [AllWithin, partsOfList, noneDeeper_append, Within, AllWithin]

end Within

end Expr

end TextTemplate
