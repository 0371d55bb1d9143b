import TextTemplate.Proofs.Expr.Postfix

/-! # What a state has read

The tokens read so far are explained by the state they lead to: every open bracket and every waiting
operator stands for tokens before it, and the output holds the items of the operands that are
complete. Reading one more token keeps this explanation, and an explanation of all the tokens is a
derivation of the expression that the output denotes. -/

namespace TextTemplate.Expr.Parser

open Grammar PostfixItem

/-! ### Fronts -/

/-- The items of a list that are complete, each with the comma after it. -/
inductive Listed (limit : Nat) : List Token → List PostfixItem → List Expr → Prop where
  | none : Listed limit [] [] []
  | comma {tokens chain : List Token} {items chainItems : List PostfixItem} {exprs : List Expr}
      {expr : Expr} {span : Span} :
      Listed limit tokens items exprs → Chain 0 chain expr → Denotes limit chainItems expr →
      Listed limit (tokens ++ chain ++ [⟨.comma, span⟩]) (items ++ chainItems) (exprs ++ [expr])

/-- Whether something has started in the innermost bracket. -/
def Started (brackets : List OpenBracket) : Prop :=
  ∀ bracket ∈ brackets.head?, bracket.hasArgument = true

/-- Tokens after which an operand is expected, with the output, the open brackets and the waiting
operators that they lead to. -/
inductive Front (limit : Nat) :
    List Token → List PostfixItem → List OpenBracket → List Waiting → Prop where
  | start : Front limit [] [] [] []
  | unary {tokens : List Token} {items : List PostfixItem} {brackets : List OpenBracket}
      {waiting : List Waiting} {operator : UnaryOperator} {span : Span} :
      Front limit tokens items brackets waiting →
      Front limit (tokens ++ [⟨.unary operator, span⟩]) items brackets
        (.unary operator span :: waiting)
  /-- The left operand is complete, and no operator before it may have it. -/
  | binary {tokens lefts : List Token} {items leftItems : List PostfixItem}
      {brackets : List OpenBracket} {waiting : List Waiting} {operator : BinaryOperator}
      {span : Span} {left : Expr} :
      Front limit tokens items brackets waiting → Chain operator.leftLevel lefts left →
      Denotes limit leftItems left →
      (∀ last ∈ waiting.head?, last.yieldsTo operator = false) →
      Front limit (tokens ++ lefts ++ [⟨.operator operator, span⟩]) (items ++ leftItems) brackets
        (.binary operator span :: waiting)
  | group {tokens : List Token} {items : List PostfixItem} {brackets : List OpenBracket}
      {waiting : List Waiting} {span : Span} {hasArgument : Bool} :
      Front limit tokens items brackets waiting → Started brackets →
      Front limit (tokens ++ [⟨.opening .round, span⟩]) items
        (⟨.group, span, waiting, 0, hasArgument⟩ :: brackets) []
  | call {tokens listed : List Token} {items listedItems : List PostfixItem}
      {brackets : List OpenBracket} {waiting : List Waiting} {name : String}
      {span opening : Span} {exprs : List Expr} {hasArgument : Bool} :
      Front limit tokens items brackets waiting → Started brackets →
      Listed limit listed listedItems exprs →
      Front limit (tokens ++ [⟨.method name, span⟩, ⟨.opening .round, opening⟩] ++ listed)
        (items ++ listedItems)
        (⟨.call name, span, waiting, exprs.length, hasArgument⟩ :: brackets) []
  | array {tokens listed : List Token} {items listedItems : List PostfixItem}
      {brackets : List OpenBracket} {waiting : List Waiting} {span : Span} {exprs : List Expr}
      {hasArgument : Bool} :
      Front limit tokens items brackets waiting → Started brackets →
      Listed limit listed listedItems exprs →
      Front limit (tokens ++ [⟨.opening .square, span⟩] ++ listed) (items ++ listedItems)
        (⟨.array, span, waiting, exprs.length, hasArgument⟩ :: brackets) []
  | index {tokens operand : List Token} {items operandItems : List PostfixItem}
      {brackets : List OpenBracket} {waiting : List Waiting} {span : Span} {object : Expr}
      {hasArgument : Bool} :
      Front limit tokens items brackets waiting → Started brackets →
      Postfixed operand object → Denotes limit operandItems object →
      Front limit (tokens ++ operand ++ [⟨.opening .square, span⟩]) (items ++ operandItems)
        (⟨.index, span, waiting, 0, hasArgument⟩ :: brackets) []

/-- What a state has read. With nothing started in the innermost bracket, no operator can wait
there. -/
inductive Reads (limit : Nat) : List Token → State → Prop where
  | expecting {tokens : List Token} {items : List PostfixItem} {brackets : List OpenBracket}
      {waiting : List Waiting} :
      Front limit tokens items brackets waiting → (Started brackets ∨ waiting = []) →
      Reads limit tokens ⟨items.reverse, waiting, brackets, true⟩
  | complete {tokens operand : List Token} {items operandItems : List PostfixItem}
      {brackets : List OpenBracket} {waiting : List Waiting} {expr : Expr} :
      Front limit tokens items brackets waiting → Started brackets →
      Postfixed operand expr → Denotes limit operandItems expr →
      Reads limit (tokens ++ operand) ⟨(items ++ operandItems).reverse, waiting, brackets, false⟩

variable {limit : Nat}

/-! ### Lists -/

/-- The complete items of a list denote its expressions. -/
theorem Listed.denotesAll {tokens : List Token} {items : List PostfixItem} {exprs : List Expr}
    (listed : Listed limit tokens items exprs) : DenotesAll limit items exprs := by
  induction listed with
  | none => exact denotesAll_nil
  | comma _ _ denotes ih => exact ih.concat denotes

/-- Items that stand behind the complete ones of a list continue it. -/
theorem Listed.separated {tokens others : List Token} {items : List PostfixItem}
    {exprs rest : List Expr} (listed : Listed limit tokens items exprs)
    (tail : Separated others rest) : Separated (tokens ++ others) (exprs ++ rest) := by
  induction listed generalizing others rest with
  | none => exact tail
  | comma _ chain _ ih => simpa using ih (.cons chain tail)

/-! ### Waiting operators -/

/-- Tokens that end in a complete expression of a level. -/
inductive Reduced (limit level : Nat) :
    List Token → List PostfixItem → List OpenBracket → List Waiting → Prop where
  | intro {tokens chain : List Token} {items chainItems : List PostfixItem}
      {brackets : List OpenBracket} {waiting : List Waiting} {expr : Expr} :
      Front limit tokens items brackets waiting → Chain level chain expr →
      Denotes limit chainItems expr →
      Reduced limit level (tokens ++ chain) (items ++ chainItems) brackets waiting

/-- The two halves of such tokens, as equations. -/
theorem Reduced.halves {level : Nat} {tokens : List Token} {items : List PostfixItem}
    {brackets : List OpenBracket} {waiting : List Waiting}
    (reduced : Reduced limit level tokens items brackets waiting) :
    ∃ before chain beforeItems chainItems expr, tokens = before ++ chain ∧
      items = beforeItems ++ chainItems ∧ Front limit before beforeItems brackets waiting ∧
      Chain level chain expr ∧ Denotes limit chainItems expr := by
  cases reduced with
  | intro front chain denotes => exact ⟨_, _, _, _, _, rfl, rfl, front, chain, denotes⟩

section Reduce

variable (stops : Waiting → Bool) (level : Nat) {tokens operand : List Token} {items operandItems : List PostfixItem}
  {brackets : List OpenBracket} {waiting : List Waiting} {expr : Expr}

/-- When all operators that bind at least as strongly as a level stop waiting, one after the other,
each takes what has become of the operand on its right. The operator before it has an operand that
binds strongly enough, because it did not yield. -/
theorem Front.reduce_chain {inner : Nat}
    (binaries : ∀ operator span, stops (.binary operator span) → level ≤ operator.precedence)
    (front : Front limit tokens items brackets waiting) (chain : Chain inner operand expr)
    (denotes : Denotes limit operandItems expr) (tight : level ≤ inner)
    (fits : ∀ last ∈ waiting.head?,
      ∃ operator span, last = .binary operator span ∧ operator.rightLevel ≤ inner) :
    Reduced limit level (tokens ++ operand)
      (items ++ operandItems ++ (waiting.takeWhile stops).map Waiting.item) brackets
      (waiting.dropWhile stops) := by
  induction waiting generalizing tokens items operand operandItems expr inner with
  | nil => simpa using Reduced.intro front (chain.weaken tight) denotes
  | cons last before ih =>
      obtain ⟨operator, span, rfl, binds⟩ := fits last rfl
      -- An operator that stops takes both operands, and is an operand of the one before it.
      by_cases stop : stops (.binary operator span) = true
      · cases front with
        | binary front lefts leftsDenote holds =>
            have whole : Chain operator.precedence (_ ++ ⟨.operator operator, span⟩ :: operand) _ :=
              .binary (Nat.le_refl _) lefts (chain.weaken binds)
            have reduced := ih front whole (leftsDenote.binary operator span denotes)
              (binaries _ _ stop)
              fun earlier isEarlier => by
                have kept := holds earlier isEarlier
                cases earlier with
                | unary => cases kept
                | binary first at_ =>
                    exact ⟨first, at_, rfl, BinaryOperator.yieldsTo_eq_false_iff.mp kept⟩
            simpa [stop, Waiting.item] using reduced
      · simpa [stop] using Reduced.intro front (chain.weaken tight) denotes

/-- The same with an operand that prefix operators may take: they always stop. -/
theorem Front.reduce (unaries : ∀ operator span, stops (.unary operator span) = true)
    (binaries : ∀ operator span, stops (.binary operator span) → level ≤ operator.precedence)
    (front : Front limit tokens items brackets waiting) (prefixed : Prefixed operand expr)
    (denotes : Denotes limit operandItems expr) :
    Reduced limit level (tokens ++ operand)
      (items ++ operandItems ++ (waiting.takeWhile stops).map Waiting.item) brackets
      (waiting.dropWhile stops) := by
  induction waiting generalizing tokens items operand operandItems expr with
  | nil => simpa using Reduced.intro front (.operand prefixed) denotes
  | cons last before ih =>
      cases last with
      | unary operator span =>
          cases front with
          | unary front =>
              have whole : Prefixed (⟨.unary operator, span⟩ :: operand) _ := .unary prefixed
              have reduced := ih front whole (denotes.unary operator span)
              simpa [unaries, Waiting.item] using reduced
      | binary operator span =>
          -- A single operand binds as strongly as anyone asks, so both bounds are met.
          have chain : Chain (max level operator.rightLevel) operand expr := .operand prefixed
          exact front.reduce_chain stops level binaries chain denotes (Nat.le_max_left ..) fun _ isLast =>
              ⟨operator, span, (Option.some.inj isLast).symm, Nat.le_max_right ..⟩

end Reduce

end TextTemplate.Expr.Parser
