import TextTemplate.Proofs.Expr.Soundness

/-! # Reading accepts the grammar

Tokens that a production derives are read from any state in which an operand is expected, whatever
comes after them, and leave items that denote the derived expression. Operators may be left waiting
behind a chain; what comes next decides when they stop. -/

namespace TextTemplate.Expr.Parser

open Grammar PostfixItem

variable {limit level : Nat} {tokens others : List Token} {expr : Expr} {span : Span}

/-! ### What is accepted -/

/-- Whether tokens are read as one operand. -/
def AcceptsOperand (limit : Nat) (tokens : List Token) (expr : Expr) : Prop :=
  ∃ items, Denotes limit items expr ∧ ∀ output waiting brackets rest,
    State.run ⟨output, waiting, brackets, true⟩ (tokens ++ rest) =
      State.run ⟨items.reverse ++ output, waiting, mark brackets, false⟩ rest

/-- Whether tokens are read as prefix operators, which keep waiting, and their operand. -/
def AcceptsPrefixed (limit : Nat) (tokens : List Token) (expr : Expr) : Prop :=
  ∃ items pending, Denotes limit (items ++ pending.map Waiting.item) expr ∧
    (∀ last ∈ pending, ∀ operator, last.yieldsTo operator = true) ∧
    ∀ output waiting brackets rest,
      State.run ⟨output, waiting, brackets, true⟩ (tokens ++ rest) =
        State.run ⟨items.reverse ++ output, pending ++ waiting, mark brackets, false⟩ rest

/-- Whether tokens are read as a chain behind operators that do not yield to its operators. The
operators that keep waiting yield to whatever may follow the chain. -/
def AcceptsChain (limit level : Nat) (tokens : List Token) (expr : Expr) : Prop :=
  ∃ items pending, Denotes limit (items ++ pending.map Waiting.item) expr ∧
    (∀ last ∈ pending, ∀ operator : BinaryOperator, operator.leftLevel ≤ level →
      last.yieldsTo operator = true) ∧
    ∀ output waiting brackets rest,
      (∀ last ∈ waiting.head?, ∀ operator : BinaryOperator, level ≤ operator.precedence →
        last.yieldsTo operator = false) →
      State.run ⟨output, waiting, brackets, true⟩ (tokens ++ rest) =
        State.run ⟨items.reverse ++ output, pending ++ waiting, mark brackets, false⟩ rest

/-- Whether tokens are read as the items of an open list. -/
def AcceptsSeparated (limit : Nat) (tokens : List Token) (exprs : List Expr) : Prop :=
  ∃ items pending commas, DenotesAll limit (items ++ pending.map Waiting.item) exprs ∧
    exprs.length = commas + 1 ∧ ∀ output bracket outer rest, bracket.opener.isList = true →
      State.run ⟨output, [], bracket :: outer, true⟩ (tokens ++ rest) =
        State.run ⟨items.reverse ++ output, pending,
          ⟨bracket.opener, bracket.span, bracket.outside, bracket.commas + commas, true⟩ :: outer,
          false⟩ rest

/-- The item that a closed list becomes. -/
def Opener.listItems (count : Nat) (span : Span) :
    Opener → List PostfixItem
  | .call name => [.call name count span]
  | .array => [.array count span]
  | .group | .index => []

/-- Whether tokens are read as the items of a list that is closed behind them. -/
def AcceptsItems (limit : Nat) (tokens : List Token) (exprs : List Expr) : Prop :=
  ∃ items, DenotesAll limit items exprs ∧
    ∀ output opener span outside outer closing rest, opener.isList = true →
      State.run ⟨output, [], ⟨opener, span, outside, 0, false⟩ :: outer, true⟩
          (tokens ++ ⟨.closing opener.bracket, closing⟩ :: rest) =
        State.run ⟨opener.listItems exprs.length (span.merge closing) ++ items.reverse ++ output,
          outside, outer, false⟩ rest

/-! ### Single tokens -/

/-- A token that is an operand of its own. -/
theorem accepts_operand {token : Token} (leaf : expr.isComposite = false)
    (steps : ∀ state, State.step state token = state.operand token expr) :
    AcceptsOperand limit [token] expr := by
  refine ⟨[.operand expr], denotes_operand leaf, fun output waiting brackets rest => ?_⟩
  refine run_step ?_
  rw [steps, State.operand, State.beginOperand, if_pos rfl, markArgument_eq]
  rfl

/-- A dotted suffix. -/
theorem AcceptsOperand.property {name : String} (object : AcceptsOperand limit tokens expr) :
    AcceptsOperand limit (tokens ++ [⟨.property name, span⟩])
      (.member expr (.text name span) (expr.span.merge span)) := by
  obtain ⟨items, denotes, runs⟩ := object
  have key : Denotes limit [.operand (.text name span)] (.text name span) := denotes_operand rfl
  refine ⟨_, denotes.member span key, fun output waiting brackets rest => ?_⟩
  rw [List.append_assoc, runs]
  refine (run_step (by rfl)).trans ?_
  simp

/-! ### Operators -/

/-- An operand is accepted behind any prefix operators. -/
theorem AcceptsOperand.prefixed (operand : AcceptsOperand limit tokens expr) :
    AcceptsPrefixed limit tokens expr := by
  obtain ⟨items, denotes, runs⟩ := operand
  exact ⟨items, [], by simpa using denotes, by simp, runs⟩

/-- A prefix operator waits in front of those behind it. -/
theorem AcceptsPrefixed.unary {operator : UnaryOperator}
    (operand : AcceptsPrefixed limit tokens expr) :
    AcceptsPrefixed limit (⟨.unary operator, span⟩ :: tokens)
      (.unary operator expr (span.merge expr.span)) := by
  obtain ⟨items, pending, denotes, yields, runs⟩ := operand
  refine ⟨items, pending ++ [.unary operator span], ?_, ?_, ?_⟩
  · simpa [Waiting.item] using denotes.unary operator span
  · intro last isLast incoming
    rcases List.mem_append.mp isLast with before | here
    · exact yields last before incoming
    · rw [List.mem_singleton.mp here]
      rfl
  · intro output waiting brackets rest
    have steps : State.step ⟨output, waiting, brackets, true⟩ ⟨.unary operator, span⟩ =
        .ok ⟨output, .unary operator span :: waiting, mark brackets, true⟩ := by
      simp only [State.step, State.unary, State.beginOperand, if_true, markArgument_eq, bind,
        Except.bind, pure, Except.pure]
    rw [List.cons_append, run_step steps, runs]
    simp

/-- What prefix operators and an operand are read as is a chain. -/
theorem AcceptsPrefixed.chain (operand : AcceptsPrefixed limit tokens expr) :
    AcceptsChain limit level tokens expr := by
  obtain ⟨items, pending, denotes, yields, runs⟩ := operand
  exact ⟨items, pending, denotes, fun last isLast operator _ => yields last isLast operator,
    fun output waiting brackets rest _ => runs output waiting brackets rest⟩

/-- Exactly the operators of the left operand stop before an operator that binds it. -/
theorem takeWhile_yieldsTo {operator : BinaryOperator} {pending waiting : List Waiting}
    (yields : ∀ last ∈ pending, last.yieldsTo operator = true)
    (holds : ∀ last ∈ waiting.head?, last.yieldsTo operator = false) :
    (pending ++ waiting).takeWhile (·.yieldsTo operator) = pending := by
  induction pending with
  | nil =>
      cases waiting with
      | nil => rfl
      | cons last before => simp [holds last rfl]
  | cons first others ih =>
      have rest := ih fun last isLast => yields last (.tail _ isLast)
      simp [yields first (.head _), rest]

/-- A binary operator between chains that bind strongly enough. -/
theorem AcceptsChain.binary {operator : BinaryOperator} {left right : Expr}
    (binds : level ≤ operator.precedence)
    (lefts : AcceptsChain limit operator.leftLevel tokens left)
    (rights : AcceptsChain limit operator.rightLevel others right) :
    AcceptsChain limit level (tokens ++ ⟨.operator operator, span⟩ :: others)
      (.binary operator left right (left.span.merge right.span)) := by
  obtain ⟨leftItems, leftPending, leftDenotes, leftYields, leftRuns⟩ := lefts
  obtain ⟨rightItems, rightPending, rightDenotes, rightYields, rightRuns⟩ := rights
  have leftLe := operator.precedence_le_leftLevel
  have rightLe := operator.precedence_le_rightLevel
  refine ⟨leftItems ++ leftPending.map Waiting.item ++ rightItems,
    rightPending ++ [.binary operator span], ?_, ?_, ?_⟩
  · simpa [Waiting.item] using leftDenotes.binary operator span rightDenotes
  · intro last isLast incoming looser
    rcases List.mem_append.mp isLast with before | here
    · exact rightYields last before incoming (by omega)
    · rw [List.mem_singleton.mp here]
      exact BinaryOperator.yieldsTo_iff.mpr (by omega)
  · intro output waiting brackets rest holds
    -- The operators of the left operand stop, and those before them go on waiting.
    have stopped : (leftPending ++ waiting).takeWhile (·.yieldsTo operator) = leftPending :=
      takeWhile_yieldsTo (fun last isLast => leftYields last isLast operator (Nat.le_refl _))
        fun last isLast => holds last isLast operator binds
    have steps : State.step
        ⟨leftItems.reverse ++ output, leftPending ++ waiting, mark brackets, false⟩
        ⟨.operator operator, span⟩ =
        .ok ⟨(leftItems ++ leftPending.map Waiting.item).reverse ++ output,
          .binary operator span :: waiting, mark brackets, true⟩ := by
      simp [State.step, State.binary, stopped, State.emit]
    rw [List.append_assoc, leftRuns, List.cons_append, run_step steps, rightRuns]
    · simp
    · intro last isLast incoming tighter
      cases isLast
      exact BinaryOperator.yieldsTo_eq_false_iff.mpr tighter
    · intro last isLast incoming tighter
      exact holds last isLast incoming (by omega)

/-! ### Brackets -/

/-- Inside a bracket nothing waits at first, so any chain is accepted there. -/
theorem AcceptsChain.inside (inner : AcceptsChain limit 0 tokens expr) :
    ∃ items pending, Denotes limit (items ++ pending.map Waiting.item) expr ∧
      ∀ output brackets rest, State.run ⟨output, [], brackets, true⟩ (tokens ++ rest) =
        State.run ⟨items.reverse ++ output, pending, mark brackets, false⟩ rest := by
  obtain ⟨items, pending, denotes, _, runs⟩ := inner
  refine ⟨items, pending, denotes, fun output brackets rest => ?_⟩
  rw [runs _ _ _ _ (by simp), List.append_nil]

/-- Parentheses around an expression leave its items. -/
theorem AcceptsChain.group {opening closing : Span} (inner : AcceptsChain limit 0 tokens expr) :
    AcceptsOperand limit (⟨.opening .round, opening⟩ :: tokens ++ [⟨.closing .round, closing⟩])
      expr := by
  obtain ⟨items, pending, denotes, runs⟩ := inner.inside
  refine ⟨items ++ pending.map Waiting.item, denotes, fun output waiting brackets rest => ?_⟩
  have opens : State.step ⟨output, waiting, brackets, true⟩ ⟨.opening .round, opening⟩ =
      .ok ⟨output, [], ⟨.group, opening, waiting, 0, false⟩ :: mark brackets, true⟩ := by
    simp only [State.step, State.beginOperand, if_true, markArgument_eq, bind, Except.bind, pure,
      Except.pure, State.openBracket]
  have closes : State.step
      ⟨items.reverse ++ output, pending, ⟨.group, opening, waiting, 0, true⟩ :: mark brackets,
        false⟩ ⟨.closing .round, closing⟩ =
      .ok ⟨(items ++ pending.map Waiting.item).reverse ++ output, waiting, mark brackets,
        false⟩ := by
    simp [State.step, State.closeBracket, State.closedItems, Opener.bracket, State.emit, bind,
      Except.bind, pure, Except.pure]
  rw [List.cons_append, List.cons_append, List.append_assoc, run_step opens, runs]
  exact run_step closes

/-- A key in brackets. -/
theorem AcceptsOperand.index {opening closing : Span} {key : Expr}
    (object : AcceptsOperand limit tokens expr) (inner : AcceptsChain limit 0 others key) :
    AcceptsOperand limit
      (tokens ++ ⟨.opening .square, opening⟩ :: others ++ [⟨.closing .square, closing⟩])
      (.member expr key (expr.span.merge closing)) := by
  obtain ⟨items, denotes, objectRuns⟩ := object
  obtain ⟨keyItems, pending, keyDenotes, runs⟩ := inner.inside
  refine ⟨_, denotes.member closing keyDenotes, fun output waiting brackets rest => ?_⟩
  have opens : State.step ⟨items.reverse ++ output, waiting, mark brackets, false⟩
      ⟨.opening .square, opening⟩ =
      .ok ⟨items.reverse ++ output, [], ⟨.index, opening, waiting, 0, false⟩ :: mark brackets,
        true⟩ := rfl
  have closes : State.step
      ⟨keyItems.reverse ++ (items.reverse ++ output), pending,
        ⟨.index, opening, waiting, 0, true⟩ :: mark brackets, false⟩ ⟨.closing .square, closing⟩ =
      .ok ⟨(items ++ (keyItems ++ pending.map Waiting.item) ++
          [PostfixItem.index closing]).reverse ++ output, waiting, mark brackets, false⟩ := by
    simp [State.step, State.closeBracket, State.closedItems, Opener.bracket, State.emit, bind,
      Except.bind, pure, Except.pure]
  rw [List.append_assoc, List.append_assoc, objectRuns, List.cons_append, run_step opens, runs]
  exact run_step closes

/-! ### Lists -/

/-- The last item of a list. -/
theorem AcceptsChain.last (item : AcceptsChain limit 0 tokens expr) :
    AcceptsSeparated limit tokens [expr] := by
  obtain ⟨items, pending, denotes, runs⟩ := item.inside
  exact ⟨items, pending, 0, denotes, rfl, fun output bracket outer rest _ => runs _ _ _⟩

/-- An item with a comma behind it, and the items after the comma. -/
theorem AcceptsChain.cons {exprs : List Expr} (item : AcceptsChain limit 0 tokens expr)
    (tail : AcceptsSeparated limit others exprs) :
    AcceptsSeparated limit (tokens ++ ⟨.comma, span⟩ :: others) (expr :: exprs) := by
  obtain ⟨items, pending, denotes, runs⟩ := item.inside
  obtain ⟨tailItems, tailPending, commas, tailDenotes, count, tailRuns⟩ := tail
  refine ⟨items ++ pending.map Waiting.item ++ tailItems, tailPending, commas + 1, ?_, ?_, ?_⟩
  · simpa using denotes.append tailDenotes
  · simp [count]
  · intro output bracket outer rest isList
    have steps : State.step
        ⟨items.reverse ++ output, pending, mark (bracket :: outer), false⟩ ⟨.comma, span⟩ =
        .ok ⟨(items ++ pending.map Waiting.item).reverse ++ output, [],
          ⟨bracket.opener, bracket.span, bracket.outside, bracket.commas + 1, false⟩ :: outer,
          true⟩ := by
      simp [State.step, State.comma, mark, isList, State.emit]
    rw [List.append_assoc, runs, List.cons_append, run_step steps]
    refine (tailRuns _ _ outer rest (by exact isList)).trans ?_
    simp [Nat.add_comm, Nat.add_left_comm]

/-- Closing a list makes one item of as many operands as stand in it. -/
theorem step_close_list {output : List PostfixItem} {waiting outside : List Waiting}
    {opener : Opener} {commas : Nat} (count : Nat) {hasArgument expects : Bool} {closing : Span}
    {outer : List OpenBracket} (isList : opener.isList = true)
    (counts : State.itemCount ⟨output, waiting,
        ⟨opener, span, outside, commas, hasArgument⟩ :: outer, expects⟩
        ⟨opener, span, outside, commas, hasArgument⟩ closing = .ok count) :
    State.step ⟨output, waiting, ⟨opener, span, outside, commas, hasArgument⟩ :: outer, expects⟩
        ⟨.closing opener.bracket, closing⟩ =
      .ok ⟨opener.listItems count (span.merge closing) ++ State.emit waiting output, outside, outer,
        false⟩ := by
  cases opener with
  | group | index => cases isList
  | call name =>
      simp [State.step, State.closeBracket, State.closedItems, counts, Opener.listItems, bind,
        Except.bind, pure, Except.pure]
  | array =>
      simp [State.step, State.closeBracket, State.closedItems, counts, Opener.listItems, bind,
        Except.bind, pure, Except.pure]

/-- A list that is closed at once is empty. -/
theorem acceptsItems_nil : AcceptsItems limit [] [] := by
  refine ⟨[], denotesAll_nil, fun output opener span outside outer closing rest isList => ?_⟩
  refine (run_step (step_close_list 0 isList rfl)).trans ?_
  simp [State.emit]

/-- Any other list has one item more than commas. -/
theorem AcceptsSeparated.items {exprs : List Expr} (listed : AcceptsSeparated limit tokens exprs) :
    AcceptsItems limit tokens exprs := by
  obtain ⟨items, pending, commas, denotes, count, runs⟩ := listed
  refine ⟨_, denotes, fun output opener span outside outer closing rest isList => ?_⟩
  rw [runs _ _ _ _ isList, run_step (step_close_list exprs.length isList ?_)]
  · simp [State.emit]
  · simp [State.itemCount, count]

/-- A method with its arguments. -/
theorem AcceptsItems.call {name : String} {opening closing : Span} {exprs : List Expr}
    (arguments : AcceptsItems limit tokens exprs) :
    AcceptsOperand limit
      (⟨.method name, span⟩ :: ⟨.opening .round, opening⟩ :: tokens ++
        [⟨.closing .round, closing⟩])
      (.call name exprs (span.merge closing)) := by
  obtain ⟨items, denotes, runs⟩ := arguments
  refine ⟨_, denotes.call name (span.merge closing), fun output waiting brackets rest => ?_⟩
  have opens : State.callStep ⟨output, waiting, brackets, true⟩ ⟨.method name, span⟩ name =
      .ok ⟨output, [], ⟨.call name, span, waiting, 0, false⟩ :: mark brackets, true⟩ := by
    simp only [State.callStep, State.beginOperand, if_true, markArgument_eq, bind, Except.bind,
      pure, Except.pure, State.openBracket]
  have inside := runs output (.call name) span waiting (mark brackets) closing rest rfl
  simpa [State.run, opens, Opener.listItems, Opener.bracket] using inside

/-- An array. -/
theorem AcceptsItems.array {opening closing : Span} {exprs : List Expr}
    (members : AcceptsItems limit tokens exprs) :
    AcceptsOperand limit (⟨.opening .square, opening⟩ :: tokens ++ [⟨.closing .square, closing⟩])
      (.array exprs (opening.merge closing)) := by
  obtain ⟨items, denotes, runs⟩ := members
  refine ⟨_, denotes.array (opening.merge closing), fun output waiting brackets rest => ?_⟩
  have opens : State.step ⟨output, waiting, brackets, true⟩ ⟨.opening .square, opening⟩ =
      .ok ⟨output, [], ⟨.array, opening, waiting, 0, false⟩ :: mark brackets, true⟩ := by
    simp only [State.step, State.openSquare, State.beginOperand, if_true, markArgument_eq, bind,
      Except.bind, pure, Except.pure, State.openBracket]
  have inside := runs output .array opening waiting (mark brackets) closing rest rfl
  rw [List.cons_append, List.cons_append, run_step opens]
  simpa [Opener.listItems, Opener.bracket] using inside

/-! ### Derivations -/

mutual

/-- Every chain is accepted. -/
theorem accepts_chain {level : Nat} {tokens : List Token} {expr : Expr} :
    Chain level tokens expr → AcceptsChain limit level tokens expr
  | .operand inner => (accepts_prefixed inner).chain
  | .binary binds lefts rights => (accepts_chain lefts).binary binds (accepts_chain rights)

/-- Prefix operators wait for the operand that follows them. -/
theorem accepts_prefixed {tokens : List Token} {expr : Expr} :
    Prefixed tokens expr → AcceptsPrefixed limit tokens expr
  | .postfixed inner => (accepts_postfixed inner).prefixed
  | .unary inner => (accepts_prefixed inner).unary

/-- An index or a property is made of the operand in front of it. -/
theorem accepts_postfixed {tokens : List Token} {expr : Expr} :
    Postfixed tokens expr → AcceptsOperand limit tokens expr
  | .primary inner => accepts_primary inner
  | .index object key => (accepts_postfixed object).index (accepts_chain key)
  | .property object => (accepts_postfixed object).property

/-- What stands alone is one operand. -/
theorem accepts_primary {tokens : List Token} {expr : Expr} :
    Primary tokens expr → AcceptsOperand limit tokens expr
  | .number _ _ => accepts_operand rfl fun _ => rfl
  | .text _ _ => accepts_operand rfl fun _ => rfl
  | .boolean _ _ => accepts_operand rfl fun _ => rfl
  | .variable _ _ => accepts_operand rfl fun _ => rfl
  | .call arguments => (accepts_items arguments).call
  | .group inner => (accepts_chain inner).group
  | .array members => (accepts_items members).array

/-- The items of a list are read up to its closing bracket. -/
theorem accepts_items {tokens : List Token} {exprs : List Expr} :
    Items tokens exprs → AcceptsItems limit tokens exprs
  | .none => acceptsItems_nil
  | .some listed => (accepts_separated listed).items

/-- Items with commas between them are read one after the other. -/
theorem accepts_separated {tokens : List Token} {exprs : List Expr} :
    Separated tokens exprs → AcceptsSeparated limit tokens exprs
  | .last item => (accepts_chain item).last
  | .cons item tail => (accepts_chain item).cons (accepts_separated tail)

end

end TextTemplate.Expr.Parser
