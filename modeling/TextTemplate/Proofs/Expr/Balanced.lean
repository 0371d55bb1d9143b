import Mathlib.Data.Nat.PSub
import TextTemplate.Proofs.Expr.Printed

/-! # Brackets and operators of derivations

In the tokens of an expression every bracket is closed, and there are as many operators between
operands as the tree has. Where the tree is an operation but its tokens may not be one, they are in
parentheses, which are closed only at their end. -/

namespace TextTemplate

namespace Grammar

open TextTemplate.Expr

/-! ### Open brackets -/

/-- How many brackets are open behind a token, given how many are in front of it; `none` if it
closes one that is not open. -/
def openBehind? (opened : Nat) : TokenKind → Option Nat
  | .opening _ => some (opened + 1)
  | .closing _ => opened.ppred
  | _ => some opened

/-- How many brackets are open behind some tokens. -/
def opened? (opened : Nat) (tokens : List TokenKind) : Option Nat :=
  tokens.foldlM openBehind? opened

/-- Whether tokens close the brackets that they open, and no others. -/
def IsBalanced (tokens : List TokenKind) : Prop := opened? 0 tokens = some 0

variable {front behind tokens : List TokenKind} {kind : TokenKind} {opened after : Nat}

@[simp] theorem opened?_nil : opened? opened [] = some opened := rfl

@[simp] theorem opened?_cons :
    opened? opened (kind :: tokens) = (openBehind? opened kind).bind (opened? · tokens) := by
  simp [opened?]

@[simp] theorem opened?_append :
    opened? opened (front ++ behind) = (opened? opened front).bind (opened? · behind) := by
  simp [opened?]

/-- More brackets in front stay open. -/
theorem opened?_add (more : Nat) (counts : opened? opened tokens = some after) :
    opened? (opened + more) tokens = some (after + more) := by
  induction tokens generalizing opened with
  | nil =>
      cases counts
      rfl
  | cons kind rest ih =>
      rw [opened?_cons, Option.bind_eq_some_iff] at counts ⊢
      obtain ⟨between, first, counts⟩ := counts
      refine ⟨between + more, ?_, ih counts⟩
      cases kind with
      | opening bracket =>
          cases first
          exact congrArg some (Nat.add_right_comm _ _ _)
      | closing bracket =>
          obtain rfl := Nat.ppred_eq_some.mp first
          exact Nat.ppred_eq_some.mpr (Nat.succ_add _ _).symm
      | _ =>
          cases first
          rfl

/-- Balanced tokens leave open what is open in front of them. -/
theorem IsBalanced.opened? (balanced : IsBalanced tokens) : opened? opened tokens = some opened := by
  simpa using opened?_add opened balanced

/-- An empty list of tokens is balanced. -/
theorem isBalanced_nil : IsBalanced [] := rfl

/-- Any token but a bracket may stand in front. -/
theorem IsBalanced.cons (balanced : IsBalanced tokens)
    (noBracket : openBehind? 0 kind = some 0) : IsBalanced (kind :: tokens) := by
  rw [IsBalanced, opened?_cons, noBracket]
  exact balanced

/-- Balanced tokens may follow each other. -/
theorem IsBalanced.append (first : IsBalanced front) (second : IsBalanced behind) :
    IsBalanced (front ++ behind) := by
  rw [IsBalanced, opened?_append, first]
  exact second

/-- A bracket that is opened in front of balanced tokens is closed behind them. -/
theorem IsBalanced.enclosed (balanced : IsBalanced tokens) (opening closing : Bracket) :
    IsBalanced (.opening opening :: tokens ++ [.closing closing]) := by
  rw [IsBalanced, List.cons_append, opened?_cons, openBehind?, Option.bind_some, opened?_append,
    balanced.opened?]
  rfl

/-- Where some tokens are balanced, the first of them close no bracket in front of them. -/
theorem IsBalanced.exists_opened? (balanced : IsBalanced (front ++ behind)) (opened : Nat) :
    ∃ inner, Grammar.opened? opened front = some (opened + inner) ∧
      Grammar.opened? inner behind = some 0 := by
  rw [IsBalanced, opened?_append, Option.bind_eq_some_iff] at balanced
  obtain ⟨inner, counts, rest⟩ := balanced
  have shifted := opened?_add opened counts
  rw [Nat.zero_add, Nat.add_comm] at shifted
  exact ⟨inner, shifted, rest⟩

/-! ### Parentheses -/

/-- Whether tokens are balanced ones in parentheses. -/
def IsGroup (tokens : List TokenKind) : Prop :=
  ∃ inside, tokens = .opening .round :: inside ++ [.closing .round] ∧ IsBalanced inside

/-- The parentheses are not closed before their end. -/
theorem IsGroup.eq_nil_of_front (isGroup : IsGroup (front ++ behind)) (balanced : IsBalanced front)
    (nonempty : front ≠ []) : behind = [] := by
  obtain ⟨inside, same, isInside⟩ := isGroup
  rcases List.eq_nil_or_concat behind with rfl | ⟨others, last, rfl⟩
  · rfl
  obtain ⟨first, front, rfl⟩ := List.exists_cons_of_ne_nil nonempty
  rw [List.concat_eq_append, ← List.append_assoc] at same
  obtain ⟨whole, -⟩ := List.append_inj' same rfl
  obtain ⟨rfl, rfl⟩ := List.cons.inj whole
  -- Up to the last parenthesis the first one stays open, so the tokens in front do not close it.
  obtain ⟨inner, counts, -⟩ := isInside.exists_opened? 1
  rw [IsBalanced, opened?_cons, openBehind?, Option.bind_some, counts] at balanced
  simp at balanced

/-- Nor are they opened behind their start. -/
theorem IsGroup.eq_nil_of_behind (isGroup : IsGroup (front ++ behind))
    (balanced : IsBalanced behind) (nonempty : behind ≠ []) : front = [] := by
  obtain ⟨inside, same, isInside⟩ := isGroup
  cases front with
  | nil => rfl
  | cons first front =>
  obtain ⟨others, last, rfl⟩ := (List.eq_nil_or_concat behind).resolve_left nonempty
  rw [List.concat_eq_append, ← List.append_assoc] at same
  obtain ⟨whole, isLast⟩ := List.append_inj' same rfl
  obtain ⟨-, rfl⟩ := List.cons.inj whole
  obtain rfl := List.singleton_inj.mp isLast
  obtain ⟨inner, -, counts⟩ := isInside.exists_opened? 0
  -- The last parenthesis closes one that the others behind have opened.
  rw [IsBalanced, List.concat_eq_append, opened?_append, Option.bind_eq_some_iff] at balanced
  obtain ⟨between, counts', closes⟩ := balanced
  rw [opened?_cons, Option.bind_eq_some_iff] at closes
  obtain ⟨_, isLast, same⟩ := closes
  cases same
  obtain rfl := Nat.ppred_eq_some.mp isLast
  have shifted := opened?_add inner counts'
  rw [Nat.zero_add, counts, Option.some.injEq] at shifted
  omega

/-- Behind balanced tokens a bracket that is opened is not closed inside of balanced tokens. -/
theorem IsBalanced.not_opening {opening : Bracket} (balanced : IsBalanced front)
    (inside : IsBalanced (tokens ++ behind)) :
    ¬IsBalanced (front ++ .opening opening :: tokens) := by
  intro whole
  obtain ⟨inner, counts, -⟩ := inside.exists_opened? 1
  rw [IsBalanced, opened?_append, balanced, Option.bind_some, opened?_cons, openBehind?,
    Option.bind_some, counts] at whole
  simp at whole

/-- So a bracket behind balanced tokens and in front of balanced ones has one place only. -/
theorem eq_of_brackets {front' behind' : List TokenKind} {opening opening' : Bracket}
    (first : IsBalanced front) (first' : IsBalanced front')
    (second : IsBalanced behind) (second' : IsBalanced behind')
    (same : front ++ .opening opening :: behind = front' ++ .opening opening' :: behind') :
    front = front' := by
  obtain ⟨middle, rfl, rest⟩ | ⟨middle, rfl, rest⟩ := List.append_eq_append_iff.mp same
  · cases middle with
    | nil => rw [List.append_nil]
    | cons token middle =>
        obtain ⟨rfl, rfl⟩ := List.cons.inj rest
        exact absurd first' (first.not_opening second)
  · cases middle with
    | nil => rw [List.append_nil]
    | cons token middle =>
        obtain ⟨rfl, rfl⟩ := List.cons.inj rest
        exact absurd first (first'.not_opening second')

/-! ### Operators -/

/-- Whether a token is an operator between two operands. -/
def isOperator : TokenKind → Bool
  | .operator _ => true
  | _ => false

/-- How many operators between operands there are among tokens. -/
def operators (tokens : List TokenKind) : Nat := tokens.countP isOperator

@[simp] theorem operators_nil : operators [] = 0 := rfl

@[simp] theorem operators_append :
    operators (front ++ behind) = operators front + operators behind := List.countP_append

@[simp] theorem operators_cons :
    operators (kind :: tokens) = operators tokens + if isOperator kind then 1 else 0 :=
  List.countP_cons

end Grammar

namespace Expr

mutual

/-- How many operations between two operands an expression is built with. -/
def operations : Expr → Nat
  | .number _ _ | .text _ _ | .boolean _ _ | .variable _ _ => 0
  | .array items _ => operationsOfList items
  | .binary _ left right _ => left.operations + right.operations + 1
  | .unary _ operand _ => operand.operations
  | .call _ arguments _ => operationsOfList arguments
  | .member object key _ => object.operations + key.operations

/-- How many operations the expressions of a list are built with. -/
def operationsOfList : List Expr → Nat
  | [] => 0
  | expr :: rest => expr.operations + operationsOfList rest

end

attribute [local simp] operations operationsOfList

variable {same : Numeric → Numeric → Prop}

mutual

/-- Expressions that are alike have as many operations. -/
theorem Alike.operations_eq : {expr expr' : Expr} → Alike same expr expr' →
    expr'.operations = expr.operations
  | _, _, .number _ | _, _, .text | _, _, .boolean | _, _, .variable => rfl
  | _, _, .array items => by simp [items.operations_eq]
  | _, _, .binary left right => by simp [left.operations_eq, right.operations_eq]
  | _, _, .unary operand => by simp [operand.operations_eq]
  | _, _, .call arguments => by simp [arguments.operations_eq]
  | _, _, .member object key => by simp [object.operations_eq, key.operations_eq]

/-- Lists that are alike have the same operators. -/
theorem AllAlike.operations_eq : {exprs exprs' : List Expr} → AllAlike same exprs exprs' →
    operationsOfList exprs' = operationsOfList exprs
  | _, _, .nil => rfl
  | _, _, .cons first rest => by simp [first.operations_eq, rest.operations_eq]

end

end Expr

/-! ### Derivations -/

namespace Grammar

mutual

/-- The tokens of an expression are balanced. -/
theorem Chain.isBalanced : {level : Nat} → {tokens : List Token} → {expr : Expr} →
    Chain level tokens expr → IsBalanced (kinds tokens)
  | _, _, _, .operand inner => inner.isBalanced
  | _, _, _, .binary _ left right => by
      rw [kinds_append, kinds_cons]
      exact left.isBalanced.append (right.isBalanced.cons rfl)

/-- Prefix operators open no bracket. -/
theorem Prefixed.isBalanced : {tokens : List Token} → {expr : Expr} →
    Prefixed tokens expr → IsBalanced (kinds tokens)
  | _, _, .postfixed inner => inner.isBalanced
  | _, _, .unary inner => inner.isBalanced.cons rfl

/-- An index closes the bracket that it opens, and a property has none. -/
theorem Postfixed.isBalanced : {tokens : List Token} → {expr : Expr} →
    Postfixed tokens expr → IsBalanced (kinds tokens)
  | _, _, .primary inner => inner.isBalanced
  | _, _, .index object key => by
      rw [List.append_assoc, kinds_append]
      exact object.isBalanced.append (by simpa using key.isBalanced.enclosed .square .square)
  | _, _, .property object => by
      rw [kinds_append]
      exact object.isBalanced.append (isBalanced_nil.cons rfl)

/-- Calls, parentheses and arrays close the brackets that they open, and other operands have none.
-/
theorem Primary.isBalanced : {tokens : List Token} → {expr : Expr} →
    Primary tokens expr → IsBalanced (kinds tokens)
  | _, _, .number _ _ | _, _, .text _ _ | _, _, .boolean _ _ | _, _, .variable _ _ =>
      isBalanced_nil.cons rfl
  | _, _, .call arguments => by
      rw [List.cons_append, kinds_cons]
      exact IsBalanced.cons (by simpa using arguments.isBalanced.enclosed .round .round) rfl
  | _, _, .group inner => by simpa using inner.isBalanced.enclosed .round .round
  | _, _, .array items => by simpa using items.isBalanced.enclosed .square .square

/-- The items of a list are balanced. -/
theorem Items.isBalanced : {tokens : List Token} → {items : List Expr} →
    Items tokens items → IsBalanced (kinds tokens)
  | _, _, .none => isBalanced_nil
  | _, _, .some items => items.isBalanced

/-- Commas between them change nothing. -/
theorem Separated.isBalanced : {tokens : List Token} → {items : List Expr} →
    Separated tokens items → IsBalanced (kinds tokens)
  | _, _, .last item => item.isBalanced
  | _, _, .cons item rest => by
      rw [kinds_append, kinds_cons]
      exact item.isBalanced.append (rest.isBalanced.cons rfl)

end

attribute [local simp] isOperator Expr.operations Expr.operationsOfList

mutual

/-- There are as many operators among the tokens of an expression as it has operations. -/
theorem Chain.operators_eq : {level : Nat} → {tokens : List Token} → {expr : Expr} →
    Chain level tokens expr → operators (kinds tokens) = expr.operations
  | _, _, _, .operand inner => inner.operators_eq
  | _, _, _, .binary _ left right => by
      simp [left.operators_eq, right.operators_eq, Nat.add_assoc]

/-- A prefix operator is no binary one. -/
theorem Prefixed.operators_eq : {tokens : List Token} → {expr : Expr} →
    Prefixed tokens expr → operators (kinds tokens) = expr.operations
  | _, _, .postfixed inner => inner.operators_eq
  | _, _, .unary inner => by simp [inner.operators_eq]

/-- The operators of an index are those of the object and of the key. -/
theorem Postfixed.operators_eq : {tokens : List Token} → {expr : Expr} →
    Postfixed tokens expr → operators (kinds tokens) = expr.operations
  | _, _, .primary inner => inner.operators_eq
  | _, _, .index object key => by
      simp [object.operators_eq, key.operators_eq]
  | _, _, .property object => by simp [object.operators_eq]

/-- Operators in a call, in parentheses or in an array are those of what is inside. -/
theorem Primary.operators_eq : {tokens : List Token} → {expr : Expr} →
    Primary tokens expr → operators (kinds tokens) = expr.operations
  | _, _, .number _ _ | _, _, .text _ _ | _, _, .boolean _ _ | _, _, .variable _ _ => by
      simp
  | _, _, .call arguments => by simp [arguments.operators_eq]
  | _, _, .group inner => by simp [inner.operators_eq]
  | _, _, .array items => by simp [items.operators_eq]

/-- The operators of a list are those of its items, one after the other. -/
theorem Items.operators_eq : {tokens : List Token} → {items : List Expr} →
    Items tokens items → operators (kinds tokens) = Expr.operationsOfList items
  | _, _, .none => rfl
  | _, _, .some items => items.operators_eq

/-- Commas are no operators. -/
theorem Separated.operators_eq : {tokens : List Token} → {items : List Expr} →
    Separated tokens items → operators (kinds tokens) = Expr.operationsOfList items
  | _, _, .last item => by simp [item.operators_eq]
  | _, _, .cons item rest => by simp [item.operators_eq, rest.operators_eq]

end

end Grammar

/-! ### Operations in parentheses -/

/-- Whether an expression is an operator with its operands. -/
def Expr.isOperation : Expr → Bool
  | .binary _ _ _ _ | .unary _ _ _ => true
  | _ => false

/-- Expressions that are alike are both operations or neither is. -/
theorem Expr.Alike.isOperation_eq {same : Numeric → Numeric → Prop} {expr expr' : Expr}
    (alike : Expr.Alike same expr expr') : expr'.isOperation = expr.isOperation := by
  cases alike <;> rfl

namespace Grammar

variable {level : Nat} {tokens : List Token} {expr : Expr}

/-- Where nothing outside may take the tokens of an operation apart, they are in parentheses. -/
theorem Postfixed.isGroup (derived : Postfixed tokens expr) (isOperation : expr.isOperation = true) :
    IsGroup (kinds tokens) := by
  cases derived with
  | primary inner =>
      cases inner with
      | group inner => exact ⟨_, by simp, inner.isBalanced⟩
      | _ => cases isOperation
  | _ => cases isOperation

/-- Behind an operator in front of its operand, so are those of an operation between two. -/
theorem Prefixed.isGroup (derived : Prefixed tokens expr) (isBinary : expr.isBinary = true) :
    IsGroup (kinds tokens) := by
  cases derived with
  | postfixed inner => exact inner.isGroup (by cases expr <;> first | rfl | cases isBinary)
  | unary inner => cases isBinary

variable {operator : BinaryOperator} {left right : Expr} {span : Span}

/-- And so are those of an operation between two that binds more weakly than what may stand there. -/
theorem Chain.isGroup_of_lt (derived : Chain level tokens (.binary operator left right span))
    (weaker : operator.precedence < level) : IsGroup (kinds tokens) := by
  cases derived with
  | operand inner => exact inner.isGroup rfl
  | binary binds => exact absurd binds (Nat.not_le.mpr weaker)

/-- The tokens of an operation between two operands are in parentheses, or those of the operands
stand on both sides of the operator. -/
theorem Chain.isGroup_or_binary (derived : Chain level tokens (.binary operator left right span)) :
    IsGroup (kinds tokens) ∨ ∃ lefts rights,
      kinds tokens = kinds lefts ++ .operator operator :: kinds rights ∧
        Chain operator.leftLevel lefts left ∧ Chain operator.rightLevel rights right := by
  cases derived with
  | operand inner => exact .inl (inner.isGroup rfl)
  | binary _ lefts rights => exact .inr ⟨_, _, by simp, lefts, rights⟩

end Grammar

end TextTemplate
