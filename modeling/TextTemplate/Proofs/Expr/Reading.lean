import TextTemplate.Proofs.Expr.Completeness

/-! # Reading expressions is exactly the grammar

A list of tokens is read as an expression when the grammar derives it and no part of it is too deep,
and it is read as the derived tree. So the grammar is not ambiguous: the levels of the operators
leave one way to group any sequence of operands. -/

namespace TextTemplate

open Grammar Expr.Parser PostfixItem

variable {limits : Limits} {limit : Nat} {extent : Span} {tokens : List Token} {expr : Expr}

/-- Items come from tokens that derive the expression that the items denote. -/
theorem PostfixItem.chain_of_ofTokens {items : List PostfixItem} (limit : Nat)
    (reads : PostfixItem.ofTokens tokens = .ok (some items)) :
    ∃ expr, Chain 0 tokens expr ∧ Denotes limit items expr := by
  rw [PostfixItem.ofTokens] at reads
  cases isLast : tokens.getLast? with
  | none => simp [isLast] at reads
  | some last =>
      cases runs : State.initial.run tokens with
      | error => simp [isLast, runs, bind, Except.bind] at reads
      | ok state =>
          cases finishes : state.finish last.span with
          | error => simp [isLast, runs, finishes, bind, Except.bind] at reads
          | ok finished =>
              obtain rfl : finished = items := by
                simpa [isLast, runs, finishes, bind, Except.bind, pure, Except.pure] using reads
              have start : Reads limit [] State.initial := .expecting .start (.inr rfl)
              exact (start.run runs).finish finishes

/-- Tokens that derive an expression have items, which denote it. -/
theorem PostfixItem.ofTokens_of_chain (limit : Nat) (chain : Chain 0 tokens expr) :
    ∃ items, PostfixItem.ofTokens tokens = .ok (some items) ∧ Denotes limit items expr := by
  have accepts : AcceptsChain limit 0 tokens expr := accepts_chain chain
  obtain ⟨items, pending, denotes, runs⟩ := accepts.inside
  have runs : State.initial.run tokens = .ok ⟨items.reverse, pending, [], false⟩ := by
    simpa [State.run, mark, State.initial] using runs [] [] []
  refine ⟨_, ?_, denotes⟩
  cases isLast : tokens.getLast? with
  | none =>
      simp [List.getLast?_eq_none_iff.mp isLast, State.run, State.initial] at runs
  | some last =>
      simp [PostfixItem.ofTokens, isLast, runs, State.finish, State.emit, bind, Except.bind, pure,
        Except.pure]

/-- An expression is only read from tokens that derive it, and when it is not too deep. -/
theorem Expr.chain_of_ofTokens (reads : Expr.ofTokens limits extent tokens = .ok expr) :
    Chain 0 tokens expr ∧ expr.Within limits.maxExpressionDepth := by
  rw [Expr.ofTokens] at reads
  match read : PostfixItem.ofTokens tokens with
  | .error fault => simp [read, bind, Except.bind] at reads
  | .ok none => simp [read, bind, Except.bind] at reads
  | .ok (some items) =>
      obtain ⟨derived, chain, denotes⟩ :=
        PostfixItem.chain_of_ofTokens limits.maxExpressionDepth read
      simp only [read, bind, Except.bind] at reads
      obtain ⟨rfl, within⟩ := (Expr.ofPostfix_eq_ok_iff denotes).mp reads
      exact ⟨chain, within⟩

/-- Tokens that derive an expression which is not too deep are read as that expression. -/
theorem Expr.ofTokens_of_chain (chain : Chain 0 tokens expr)
    (within : expr.Within limits.maxExpressionDepth) :
    Expr.ofTokens limits extent tokens = .ok expr := by
  obtain ⟨items, read, denotes⟩ :=
    PostfixItem.ofTokens_of_chain limits.maxExpressionDepth chain
  simp only [Expr.ofTokens, read, bind, Except.bind]
  exact (Expr.ofPostfix_eq_ok_iff denotes).mpr ⟨rfl, within⟩

/-- Reading accepts exactly what the grammar derives within the limit, and returns what it
derives. -/
theorem Expr.ofTokens_eq_ok_iff :
    Expr.ofTokens limits extent tokens = .ok expr ↔
      Chain 0 tokens expr ∧ expr.Within limits.maxExpressionDepth :=
  ⟨Expr.chain_of_ofTokens, fun ⟨chain, within⟩ => Expr.ofTokens_of_chain chain within⟩

/-! ### Grouping -/

namespace Grammar

/-- One more operand may follow any chain: the operators on its right edge that do not yield keep
it for themselves. -/
theorem Chain.extend {others : List Token} {operand : Expr} (operator : BinaryOperator)
    (span : Span) (next : Prefixed others operand) {level : Nat} {tokens : List Token}
    {expr : Expr} (chain : Chain level tokens expr) :
    ∃ whole, Chain (min level operator.precedence)
      (tokens ++ ⟨.operator operator, span⟩ :: others) whole := by
  -- A chain is one of several mutual notions, so the induction is on the number of its tokens.
  induction size : tokens.length using Nat.strongRecOn generalizing level tokens expr with
  | ind count ih =>
      cases chain with
      | operand first =>
          exact ⟨_, .binary (Nat.min_le_right ..) (.operand first) (.operand next)⟩
      | @binary _ before _ lefts rights left right binds leftChain rightChain =>
          by_cases yields : operator.leftLevel ≤ before.precedence
          · exact ⟨_, .binary (Nat.min_le_right ..) (.binary yields leftChain rightChain)
              (.operand next)⟩
          · -- The operator belongs to the right operand of the last one in the chain.
            have keeps : before.rightLevel ≤ operator.precedence :=
              BinaryOperator.yieldsTo_eq_false_iff.mp
                (Bool.eq_false_iff.mpr fun h => yields (BinaryOperator.yieldsTo_iff.mp h))
            have fewer : rights.length < count := by
              rw [← size, List.length_append, List.length_cons]
              omega
            obtain ⟨longer, chain⟩ := ih rights.length fewer rightChain rfl
            rw [Nat.min_eq_left keeps] at chain
            have le : min level operator.precedence ≤ before.precedence :=
              Nat.le_trans (Nat.min_le_left ..) binds
            refine ⟨.binary before left longer (left.span.merge longer.span), ?_⟩
            rw [List.append_assoc, List.cons_append]
            exact .binary le leftChain chain

/-- Every large enough limit allows an expression. -/
theorem exists_within (expr : Expr) :
    ∃ limit, ∀ larger, limit ≤ larger → expr.Within larger := by
  unfold Expr.Within
  induction expr.parts with
  | nil => exact ⟨0, fun _ _ => Expr.noneDeeper_nil⟩
  | cons part rest ih =>
      obtain ⟨limit, all⟩ := ih
      refine ⟨max part.depth limit, fun larger le => Expr.noneDeeper_cons.mpr ⟨fun _ => ?_, ?_⟩⟩
      · exact Nat.le_trans (Nat.le_max_left ..) le
      · exact all larger (Nat.le_trans (Nat.le_max_right ..) le)

/-- The grammar derives one expression from a list of tokens. -/
theorem Chain.unique {other : Expr} (chain : Chain 0 tokens expr) (chain' : Chain 0 tokens other) :
    expr = other := by
  obtain ⟨limit, within⟩ := exists_within expr
  obtain ⟨limit', within'⟩ := exists_within other
  let limits : Limits := ⟨0, max limit limit'⟩
  have read : Expr.ofTokens limits ⟨.first, .first⟩ tokens = .ok expr :=
    Expr.ofTokens_of_chain chain (within _ (Nat.le_max_left ..))
  have read' : Expr.ofTokens limits ⟨.first, .first⟩ tokens = .ok other :=
    Expr.ofTokens_of_chain chain' (within' _ (Nat.le_max_right ..))
  exact Except.ok.inj (read.symm.trans read')

end Grammar

end TextTemplate
