import Mathlib.Data.Nat.Init
import TextTemplate.Proofs.Expr.Reading
import TextTemplate.Proofs.Source.Positions

/-! # Spans of expressions

The span of an expression is merged from those of its first and its last token, brackets that leave
no trace aside. So the operands of an expression stand inside of it, one after the other, whatever
brackets, commas and dots come between them. -/

namespace TextTemplate

open Grammar

namespace Span

variable {p q : Position} {first last : Span} {middle spans others : List Span}

/-- Some of several stretches in order are in order. -/
theorem InOrder.sublist (ordered : InOrder p q spans) (some : others.Sublist spans) :
    InOrder p q others := by
  induction some generalizing p with
  | slnil => exact ordered
  | cons span _ ih => exact (ih ordered.2.2).mono_left (ordered.1.trans ordered.2.1)
  | cons_cons span _ ih => exact ⟨ordered.1, ordered.2.1, ih ordered.2.2⟩

/-- The first and the last of several stretches in order merge to one around all of them. -/
theorem InOrder.merge (ordered : InOrder p q (first :: (middle ++ [last]))) :
    InOrder p q [first.merge last] ∧
      InOrder (first.merge last).start (first.merge last).stop (first :: (middle ++ [last])) := by
  obtain ⟨before, extent, others⟩ := ordered
  obtain ⟨between, extent', behind⟩ := inOrder_split.mp others
  have starts : first.stop ≤ last.start := between.le
  rw [merge_of_le (extent.trans starts) (starts.trans extent')]
  exact ⟨⟨before, (extent.trans starts).trans extent', behind⟩, le_refl _, extent,
    inOrder_split.mpr ⟨between, extent', le_refl _⟩⟩

end Span

namespace Expr

variable {p q : Position} {expr part : Expr} {exprs others : List Expr}

/-! ### Operands -/

/-- The expressions that an expression is built from directly, in order. -/
def operands : Expr → List Expr
  | .number _ _ | .text _ _ | .boolean _ _ | .variable _ _ => []
  | .array items _ => items
  | .binary _ left right _ => [left, right]
  | .unary _ operand _ => [operand]
  | .call _ arguments _ => arguments
  | .member object key _ => [object, key]

/-- The parts of an expression are itself and those of its operands. -/
theorem parts_eq (expr : Expr) : expr.parts = expr :: partsOfList expr.operands := by
  cases expr <;> simp [parts, operands, partsOfList]

/-- The parts of a list are those of its expressions. -/
theorem mem_partsOfList : part ∈ partsOfList exprs ↔ ∃ expr ∈ exprs, part ∈ expr.parts := by
  induction exprs with
  | nil => simp [partsOfList]
  | cons expr rest ih => simp [partsOfList, ih]

/-- Operands are smaller than what is built from them. -/
theorem sizeOf_lt_of_mem_operands (isOperand : part ∈ expr.operands) :
    sizeOf part < sizeOf expr := by
  cases expr with
  | array items span =>
      have smaller := List.sizeOf_lt_of_mem (show part ∈ items from isOperand)
      rw [array.sizeOf_spec]
      omega
  | call name arguments span =>
      have smaller := List.sizeOf_lt_of_mem (show part ∈ arguments from isOperand)
      rw [call.sizeOf_spec]
      omega
  | binary operator left right span =>
      rw [binary.sizeOf_spec]
      rcases List.mem_cons.mp isOperand with rfl | isRight
      · omega
      · obtain rfl := List.mem_singleton.mp isRight
        omega
  | member object key span =>
      rw [member.sizeOf_spec]
      rcases List.mem_cons.mp isOperand with rfl | isKey
      · omega
      · obtain rfl := List.mem_singleton.mp isKey
        omega
  | unary operator operand span =>
      obtain rfl := List.mem_singleton.mp isOperand
      rw [unary.sizeOf_spec]
      omega
  | _ => cases isOperand

/-! ### Nested spans -/

/-- Whether the operands of an expression, and of every part of it, stand in it one after the
other. -/
def IsNested (expr : Expr) : Prop :=
  ∀ part ∈ expr.parts, Span.InOrder part.span.start part.span.stop (part.operands.map span)

/-- An expression is nested if its operands stand inside its span one after the other, and are
nested. -/
theorem isNested_iff : expr.IsNested ↔
    Span.InOrder expr.span.start expr.span.stop (expr.operands.map span) ∧
      ∀ operand ∈ expr.operands, operand.IsNested := by
  rw [IsNested, parts_eq, List.forall_mem_cons]
  refine and_congr_right fun _ => ?_
  simp only [mem_partsOfList, IsNested]
  exact ⟨fun all operand isOperand part isPart => all part ⟨operand, isOperand, isPart⟩,
    fun all part ⟨operand, isOperand, isPart⟩ => all operand isOperand part isPart⟩

/-- Every part of a nested expression lies inside of it and is nested. -/
theorem IsNested.of_part (nested : expr.IsNested) (isPart : part ∈ expr.parts) :
    expr.span.Contains part.span ∧ part.IsNested := by
  induction isSize : sizeOf expr using Nat.strong_induction_on generalizing expr with
  | _ size ih =>
  subst isSize
  rw [parts_eq, List.mem_cons, mem_partsOfList] at isPart
  obtain ⟨ordered, operands⟩ := isNested_iff.mp nested
  rcases isPart with rfl | ⟨operand, isOperand, isPart⟩
  · exact ⟨Span.contains_self _, nested⟩
  · obtain ⟨inside, nested⟩ := ih _ (sizeOf_lt_of_mem_operands isOperand)
      (operands operand isOperand) isPart rfl
    exact ⟨.trans (ordered.bounds _ (List.mem_map_of_mem isOperand)) inside, nested⟩

/-- Whether nested expressions stand between two positions one after the other. -/
def Stand (p q : Position) (exprs : List Expr) : Prop :=
  Span.InOrder p q (exprs.map span) ∧ ∀ expr ∈ exprs, expr.IsNested

/-- An expression without operands stands where its span does. -/
theorem stand_leaf (noOperands : expr.operands = []) (ordered : Span.InOrder p q [expr.span]) :
    Stand p q [expr] := by
  refine ⟨ordered, List.forall_mem_singleton.mpr (isNested_iff.mpr ?_)⟩
  rw [noOperands]
  exact ⟨ordered.2.1, nofun⟩

/-- An expression stands around its operands, with its first and its last token. -/
theorem stand_merge {first last : Span} (middle : List Span)
    (ordered : Span.InOrder p q (first :: (middle ++ [last])))
    (isSpan : expr.span = first.merge last)
    (operands : (expr.operands.map span).Sublist (first :: (middle ++ [last])))
    (nested : ∀ operand ∈ expr.operands, operand.IsNested) : Stand p q [expr] := by
  obtain ⟨outside, inside⟩ := ordered.merge
  rw [← isSpan] at outside inside
  exact ⟨outside, List.forall_mem_singleton.mpr
    (isNested_iff.mpr ⟨inside.sublist operands, nested⟩)⟩

end Expr

/-! ### Derived expressions -/

namespace Grammar

open TextTemplate.Expr TextTemplate.Span

mutual

/-- An expression stands where its tokens do. -/
theorem Chain.stand : {level : Nat} → {tokens : List Token} → {expr : Expr} →
    Chain level tokens expr → ∀ {p q : Position}, InOrder p q (tokens.map Token.span) →
    Stand p q [expr]
  | _, _, _, .operand inner, _, _, ordered => inner.stand ordered
  | _, _, _, .binary _ left right, _, _, ordered => by
      rw [List.map_append, List.map_cons, inOrder_split] at ordered
      obtain ⟨before, extent, behind⟩ := ordered
      obtain ⟨first, nested⟩ := left.stand before
      obtain ⟨last, nested'⟩ := right.stand behind
      have whole := inOrder_split.mpr ⟨first, extent, last⟩
      exact stand_merge [_] whole rfl (by simp [operands])
        (List.forall_mem_append.mpr ⟨nested, nested'⟩)

/-- A prefix operator stands in front of its operand. -/
theorem Prefixed.stand : {tokens : List Token} → {expr : Expr} → Prefixed tokens expr →
    ∀ {p q : Position}, InOrder p q (tokens.map Token.span) → Stand p q [expr]
  | _, _, .postfixed inner, _, _, ordered => inner.stand ordered
  | _, _, .unary inner, _, _, ordered => by
      obtain ⟨before, extent, behind⟩ := ordered
      obtain ⟨last, nested⟩ := inner.stand behind
      exact stand_merge [] ⟨before, extent, last⟩ rfl (by simp [operands]) nested

/-- The object of an index or of a property stands in front of the key. -/
theorem Postfixed.stand : {tokens : List Token} → {expr : Expr} → Postfixed tokens expr →
    ∀ {p q : Position}, InOrder p q (tokens.map Token.span) → Stand p q [expr]
  | _, _, .primary inner, _, _, ordered => inner.stand ordered
  | _, _, .index object key, _, _, ordered => by
      simp only [List.map_append, List.map_cons, List.map_nil, inOrder_split] at ordered
      obtain ⟨⟨before, extent, inside⟩, extent', behind⟩ := ordered
      obtain ⟨first, nested⟩ := object.stand before
      obtain ⟨last, nested'⟩ := key.stand inside
      have whole := inOrder_split.mpr ⟨inOrder_split.mpr ⟨first, extent, last⟩, extent', behind⟩
      exact stand_merge [_, _] whole rfl (by simp [operands])
        (List.forall_mem_append.mpr ⟨nested, nested'⟩)
  | _, _, .property object, _, _, ordered => by
      rw [List.map_append, List.map_singleton, inOrder_split] at ordered
      obtain ⟨before, extent, behind⟩ := ordered
      obtain ⟨first, nested⟩ := object.stand before
      -- The name behind the dot is a key that stands where its token does.
      obtain ⟨-, nested'⟩ := @stand_leaf _ _ (.text _ _) rfl ⟨le_refl _, extent, behind⟩
      have whole := inOrder_split.mpr ⟨first, extent, behind⟩
      exact stand_merge [] whole rfl (by simp [operands, Expr.span])
        (List.forall_mem_append.mpr ⟨nested, nested'⟩)

/-- An operand stands where its tokens do. -/
theorem Primary.stand : {tokens : List Token} → {expr : Expr} → Primary tokens expr →
    ∀ {p q : Position}, InOrder p q (tokens.map Token.span) → Stand p q [expr]
  | _, _, .number _ _, _, _, ordered => stand_leaf rfl ordered
  | _, _, .text _ _, _, _, ordered => stand_leaf rfl ordered
  | _, _, .boolean _ _, _, _, ordered => stand_leaf rfl ordered
  | _, _, .variable _ _, _, _, ordered => stand_leaf rfl ordered
  | _, _, .call arguments, _, _, ordered => by
      simp only [List.cons_append, List.map_append, List.map_cons, List.map_nil] at ordered
      obtain ⟨before, extent, opening⟩ := ordered
      obtain ⟨inside, closing⟩ := inOrder_split.mp opening.2.2
      obtain ⟨given, nested⟩ := arguments.stand inside
      have whole := inOrder_split.mpr ⟨given, closing⟩
      exact stand_merge (_ :: _) ⟨before, extent, opening.1, opening.2.1, whole⟩ rfl
        (((List.sublist_append_left _ _).cons _).cons _) nested
  -- The span of parentheses is not kept: what is inside stands between them.
  | _, _, .group inner, _, _, ordered => by
      simp only [List.cons_append, List.map_append, List.map_cons, List.map_nil] at ordered
      obtain ⟨before, extent, others⟩ := ordered
      obtain ⟨inside, extent', behind⟩ := inOrder_split.mp others
      obtain ⟨stands, nested⟩ := inner.stand inside
      exact ⟨(stands.mono_left (before.trans extent)).mono_right (extent'.trans behind), nested⟩
  | _, _, .array items, _, _, ordered => by
      simp only [List.cons_append, List.map_append, List.map_cons, List.map_nil] at ordered
      obtain ⟨before, extent, others⟩ := ordered
      obtain ⟨inside, closing⟩ := inOrder_split.mp others
      obtain ⟨listed, nested⟩ := items.stand inside
      have whole := inOrder_split.mpr ⟨listed, closing⟩
      exact stand_merge _ ⟨before, extent, whole⟩ rfl (by simp [operands]) nested

/-- The items of a list stand where their tokens do. -/
theorem Items.stand : {tokens : List Token} → {items : List Expr} → Items tokens items →
    ∀ {p q : Position}, InOrder p q (tokens.map Token.span) → Stand p q items
  | _, _, .none, _, _, ordered => ⟨ordered, nofun⟩
  | _, _, .some items, _, _, ordered => items.stand ordered

/-- Items with commas between them stand one after the other. -/
theorem Separated.stand : {tokens : List Token} → {items : List Expr} → Separated tokens items →
    ∀ {p q : Position}, InOrder p q (tokens.map Token.span) → Stand p q items
  | _, _, .last item, _, _, ordered => item.stand ordered
  | _, _, .cons item rest, _, _, ordered => by
      rw [List.map_append, List.map_cons, inOrder_split] at ordered
      obtain ⟨before, extent, behind⟩ := ordered
      obtain ⟨first, nested⟩ := item.stand before
      obtain ⟨others, nested'⟩ := rest.stand behind
      have whole := inOrder_split.mpr ⟨first, extent, others⟩
      exact ⟨whole.sublist (by simp), List.forall_mem_append.mpr ⟨nested, nested'⟩⟩

end

end Grammar

end TextTemplate
