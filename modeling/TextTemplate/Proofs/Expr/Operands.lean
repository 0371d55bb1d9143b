import TextTemplate.Proofs.Expr.Reading
import TextTemplate.Proofs.Outcome

/-! # Operands are never missing

An item in postfix order puts one operand in the place of those that it takes. While tokens are
read, the output makes exactly one operand for every binary operator that waits, every comma, every
object whose key is open, and the operand that has just ended. Every step keeps this balance, so
behind the last token every item has found what it takes and one operand is left, and all that can
be wrong with the expression is its depth. -/

namespace TextTemplate

namespace PostfixItem

variable {limit depth height count : Nat} {expr : Expr} {item : PostfixItem}
  {items others : List PostfixItem} {stack : List Operand}

/-! ### Heights -/

/-- How many operands an item takes. -/
def arity : PostfixItem → Nat
  | .operand _ => 0
  | .unary _ _ => 1
  | .binary _ _ | .index _ => 2
  | .call _ count _ | .array count _ => count

/-- How many operands are on the stack behind an item, given how many are in front of it; `none` if
the item takes more than there are. -/
def heightBehind? (height : Nat) (item : PostfixItem) : Option Nat :=
  if item.arity ≤ height then some (height - item.arity + 1) else none

/-- How many operands are on the stack behind some items. -/
def height? (height : Nat) (items : List PostfixItem) : Option Nat :=
  items.foldlM heightBehind? height

/-- An item takes as many operands as it has, and leaves one. -/
theorem heightBehind?_eq_some_iff :
    heightBehind? height item = some count ↔
      item.arity ≤ height ∧ height - item.arity + 1 = count := by
  simp [heightBehind?]

@[simp] theorem height?_nil : height? height [] = some height := rfl

@[simp] theorem height?_cons :
    height? height (item :: items) = (heightBehind? height item).bind (height? · items) := by
  simp [height?]

@[simp] theorem height?_append :
    height? height (items ++ others) = (height? height items).bind (height? · others) := by
  simp [height?]

/-! ### Stacks -/

/-- Whether a step can only fail because an expression is too deep, and what it gives otherwise is
good. -/
def OnlyTooDeep {α : Type} (limit : Nat) (good : α → Prop) : Except Fault α → Prop
  | .ok value => good value
  | .error fault => fault.cause = .expressionTooDeep limit

/-- Two steps can only fail so when the first can, and the second with what the first gives. -/
theorem OnlyTooDeep.bind {α β : Type} {good : α → Prop} {good' : β → Prop} {step : Except Fault α}
    {following : α → Except Fault β} (first : OnlyTooDeep limit good step)
    (second : ∀ value, good value → OnlyTooDeep limit good' (following value)) :
    OnlyTooDeep limit good' (step >>= following) := by
  cases step with
  | ok value => exact second value first
  | error fault => exact first

/-- An expression that is not too deep is one operand more. -/
theorem onlyTooDeep_push :
    OnlyTooDeep limit (·.length = stack.length + 1) (push limit expr depth stack) := by
  rw [push]
  split
  next => rfl
  next => rfl

/-- Enough operands are all that an item needs, but for the limit. -/
theorem onlyTooDeep_apply (enough : item.arity ≤ stack.length) :
    OnlyTooDeep limit (·.length = stack.length - item.arity + 1) (item.apply limit stack) := by
  cases item with
  | operand expr => rfl
  | unary operator span =>
      match stack with
      | [] => cases enough
      | _ :: _ => exact onlyTooDeep_push
  | binary operator span | index stop =>
      match stack with
      | [] => cases enough
      | [_] => exact absurd enough (by simp [arity])
      | _ :: _ :: _ => exact onlyTooDeep_push
  | call name count span | array count span =>
      have taken : takeList? count stack = some ((stack.take count).reverse, stack.drop count) :=
        if_pos enough
      rw [apply, taken, arity, ← List.length_drop]
      exact onlyTooDeep_push

/-- Items that find their operands by number find them on every stack of that height. -/
theorem onlyTooDeep_applyAll (isHigh : stack.length = height)
    (counts : height? height items = some count) :
    OnlyTooDeep limit (·.length = count) (applyAll limit items stack) := by
  induction items generalizing stack height with
  | nil => exact isHigh.trans (Option.some.inj counts)
  | cons item rest ih =>
      rw [height?_cons, Option.bind_eq_some_iff] at counts
      obtain ⟨behind, here, counts⟩ := counts
      obtain ⟨enough, rfl⟩ := heightBehind?_eq_some_iff.mp here
      rw [← isHigh] at enough counts
      exact (onlyTooDeep_apply enough).bind fun next isHigh => ih isHigh counts

/-- Each of the items finds what it takes on the stack that those in front of it have made. -/
theorem arity_le_length (counts : height? 0 (items ++ item :: others) = some count)
    (applied : applyAll limit items [] = .ok stack) : item.arity ≤ stack.length := by
  rw [height?_append, Option.bind_eq_some_iff] at counts
  obtain ⟨front, before, counts⟩ := counts
  rw [height?_cons, Option.bind_eq_some_iff] at counts
  obtain ⟨behind, here, -⟩ := counts
  have isHigh : OnlyTooDeep limit (·.length = front) (applyAll limit items []) :=
    onlyTooDeep_applyAll rfl before
  rw [applied] at isHigh
  rw [isHigh]
  exact (heightBehind?_eq_some_iff.mp here).1

/-- Items that make one operand can only fail to be an expression because it is too deep. -/
theorem onlyTooDeep_ofPostfix {extent : Span} (counts : height? 0 items = some 1) :
    OnlyTooDeep limit (fun _ => True) (Expr.ofPostfix limit extent items) := by
  refine (onlyTooDeep_applyAll List.length_nil counts).bind fun stack single => ?_
  obtain ⟨only, rfl⟩ := List.length_eq_one_iff.mp single
  exact trivial

/-- They do fail when they denote an expression that is too deep. -/
theorem ofPostfix_eq_error {extent : Span} (counts : height? 0 items = some 1)
    (denotes : Denotes limit items expr) (outside : ¬expr.Within limit) :
    ∃ span, Expr.ofPostfix limit extent items = .error ⟨.expressionTooDeep limit, span⟩ := by
  have outcome : OnlyTooDeep limit (fun _ => True) (Expr.ofPostfix limit extent items) :=
    onlyTooDeep_ofPostfix counts
  cases built : Expr.ofPostfix limit extent items with
  | ok found => exact absurd ((Expr.ofPostfix_eq_ok_iff denotes).mp built).2 outside
  | error fault =>
      rw [built] at outcome
      obtain ⟨cause, span⟩ := fault
      obtain rfl : cause = .expressionTooDeep limit := outcome
      exact ⟨span, rfl⟩

end PostfixItem

namespace Expr.Parser

open PostfixItem

variable {state next : State} {token : Token} {tokens : List Token} {span : Span}
  {bracket : OpenBracket} {items : List PostfixItem}

/-! ### Operands of a state -/

/-- How many operands a waiting operator has on its left. -/
def Waiting.operands : Waiting → Nat
  | .binary _ _ => 1
  | .unary _ _ => 0

/-- How many operands waiting operators have on their left. -/
def waitingOperands : List Waiting → Nat
  | [] => 0
  | last :: before => last.operands + waitingOperands before

/-- How many operands a bracket has on its left: the object, where it is that of a key. -/
def Opener.operands : Opener → Nat
  | .index => 1
  | .group | .call _ | .array => 0

/-- How many operands are in front of what an open bracket has last: those of the operators outside,
the one that it belongs to, and an item for each comma. -/
def OpenBracket.operands (bracket : OpenBracket) : Nat :=
  waitingOperands bracket.outside + bracket.opener.operands + bracket.commas

/-- How many operands are in front of what the innermost of some brackets has last. -/
def bracketOperands : List OpenBracket → Nat
  | [] => 0
  | bracket :: outer => bracket.operands + bracketOperands outer

@[simp] theorem waitingOperands_append (first others : List Waiting) :
    waitingOperands (first ++ others) = waitingOperands first + waitingOperands others := by
  induction first with
  | nil => exact (Nat.zero_add _).symm
  | cons last before ih => rw [List.cons_append, waitingOperands, waitingOperands, ih, Nat.add_assoc]

namespace State

/-- How many operands a state keeps. Where none is expected, one has just ended. -/
def operands (state : State) : Nat :=
  bracketOperands state.brackets + waitingOperands state.waiting +
    if state.expectsOperand then 0 else 1

/-- Whether the output makes exactly the operands that a state keeps, with what is known of the
brackets that will take them. -/
structure Balanced (state : State) : Prop where
  height : height? 0 state.output.reverse = some state.operands
  /-- Only lists have commas. -/
  commas : ∀ bracket ∈ state.brackets, bracket.opener.isList = false → bracket.commas = 0
  /-- Every bracket but the innermost one has something in it, at least the bracket inside. -/
  outer : ∀ bracket ∈ state.brackets.tail, bracket.hasArgument = true
  /-- Where nothing has started in the innermost bracket, nothing waits there. -/
  started : Started state.brackets ∨ state.expectsOperand = true ∧ state.waiting = []

/-- At first there are no operands and no brackets. -/
theorem balanced_initial : State.initial.Balanced := ⟨rfl, nofun, nofun, .inr ⟨rfl, rfl⟩⟩

/-- Behind an operand something has started. -/
theorem Balanced.started_of_complete (balanced : state.Balanced)
    (complete : ¬state.expectsOperand = true) : Started state.brackets :=
  balanced.started.resolve_right fun ⟨expects, _⟩ => complete expects

/-- Once something has started in the innermost bracket, it has in all. -/
theorem Balanced.all_started (balanced : state.Balanced) (started : Started state.brackets) :
    ∀ bracket ∈ state.brackets, bracket.hasArgument = true := by
  have outer := balanced.outer
  cases isOpen : state.brackets with
  | nil => nofun
  | cons innermost others =>
      rw [isOpen] at outer started
      exact List.forall_mem_cons.mpr ⟨started_cons.mp started, outer⟩

/-! ### Operators that stop waiting -/

/-- Operators that stop waiting take the operands on their left and the one on the right of the last
of them, and make one. -/
theorem height?_waiting (height : Nat) (stopped : List Waiting) :
    height? (height + waitingOperands stopped + 1) (stopped.map Waiting.item) =
      some (height + 1) := by
  induction stopped with
  | nil => rfl
  | cons last before ih =>
      have here : heightBehind? (height + waitingOperands (last :: before) + 1) last.item =
          some (height + waitingOperands before + 1) := by
        rw [heightBehind?_eq_some_iff, waitingOperands]
        cases last with
        | binary operator span =>
            simp only [Waiting.item, arity, Waiting.operands]
            omega
        | unary operator span =>
            simp only [Waiting.item, arity, Waiting.operands]
            omega
      rw [List.map_cons, height?_cons, here, Option.bind_some, ih]

/-- Behind an operand, operators that stop waiting leave one operand in place of theirs. -/
theorem Balanced.height?_emit (balanced : state.Balanced) (complete : ¬state.expectsOperand = true)
    {stopped others : List Waiting} (parted : state.waiting = stopped ++ others) :
    height? 0 (emit stopped state.output).reverse =
      some (bracketOperands state.brackets + waitingOperands others + 1) := by
  have before : height? 0 state.output.reverse = some
      (bracketOperands state.brackets + waitingOperands others + waitingOperands stopped + 1) := by
    rw [balanced.height, operands, if_neg complete, parted, waitingOperands_append]
    exact congrArg some (by omega)
  rw [emit, List.reverse_append, List.reverse_reverse, height?_append, before, Option.bind_some,
    height?_waiting]

/-! ### Operands -/

/-- What has been marked has started. -/
theorem started_markArgument (state : State) : Started state.markArgument.brackets := by
  rw [State.markArgument]
  split
  next => exact started_cons.mpr rfl
  next isNone =>
    rw [isNone]
    exact started_nil

/-- Marking that something has started changes no number. -/
theorem Balanced.markArgument (balanced : state.Balanced) : state.markArgument.Balanced := by
  have started := started_markArgument state
  rw [State.markArgument] at started ⊢
  split
  next innermost others isOpen =>
    obtain ⟨height, commas, outer, -⟩ := balanced
    rw [isOpen] at commas outer started
    obtain ⟨here, behind⟩ := List.forall_mem_cons.mp commas
    refine ⟨?_, List.forall_mem_cons.mpr ⟨here, behind⟩, outer, .inl started⟩
    rw [height, operands, isOpen]
    rfl
  next => exact balanced

/-- Where an operand may begin, the state is balanced and something has started. -/
theorem Balanced.begin (balanced : state.Balanced) (begins : state.beginOperand token = .ok next) :
    next.Balanced ∧ next.expectsOperand = true ∧ Started next.brackets := by
  rw [beginOperand] at begins
  split at begins
  next expects =>
    cases begins
    refine ⟨balanced.markArgument, ?_, started_markArgument state⟩
    rw [State.markArgument]
    split
    next => exact expects
    next => exact expects
  next => cases begins

/-- A complete operand is one more. -/
theorem Balanced.operand {expr : Expr} (balanced : state.Balanced)
    (steps : state.operand token expr = .ok next) : next.Balanced := by
  obtain ⟨begun, begins, same⟩ := bind_eq_ok_iff.mp steps
  cases same
  obtain ⟨⟨height, commas, outer, -⟩, expects, started⟩ := balanced.begin begins
  refine ⟨?_, commas, outer, .inl started⟩
  rw [operands, expects] at height
  simp [height, heightBehind?, arity, operands]

/-- A prefix operator has no operand on its left. -/
theorem Balanced.unary {operator : UnaryOperator} (balanced : state.Balanced)
    (steps : state.unary token operator = .ok next) : next.Balanced := by
  obtain ⟨begun, begins, same⟩ := bind_eq_ok_iff.mp steps
  cases same
  obtain ⟨⟨height, commas, outer, -⟩, -, started⟩ := balanced.begin begins
  refine ⟨?_, commas, outer, .inl started⟩
  rw [height, operands, operands, waitingOperands, Waiting.operands, Nat.zero_add]

/-- A dotted suffix makes a key and takes it, together with its object. -/
theorem Balanced.property {name : String} (balanced : state.Balanced)
    (steps : state.property token name = .ok next) : next.Balanced := by
  rw [State.property] at steps
  split at steps
  next => cases steps
  next complete =>
    cases steps
    have started := balanced.started_of_complete complete
    obtain ⟨height, commas, outer, -⟩ := balanced
    refine ⟨?_, commas, outer, .inl started⟩
    rw [operands, if_neg complete] at height
    simp [height, heightBehind?, arity, operands, complete]

/-! ### Operators -/

/-- A binary operator waits with the operand on its left, which the operators that stop have made. -/
theorem Balanced.binary {operator : BinaryOperator} (balanced : state.Balanced)
    (steps : state.binary span operator = .ok next) : next.Balanced := by
  rw [State.binary] at steps
  split at steps
  next => cases steps
  next complete =>
    cases steps
    have started := balanced.started_of_complete complete
    refine ⟨?_, balanced.commas, balanced.outer, .inl started⟩
    have parted : state.waiting = state.waiting.takeWhile (·.yieldsTo operator) ++
        state.waiting.dropWhile (·.yieldsTo operator) := List.takeWhile_append_dropWhile.symm
    rw [balanced.height?_emit complete parted]
    simp only [operands, drop_length_takeWhile, waitingOperands, Waiting.operands, if_true]
    exact congrArg some (by omega)

/-! ### Brackets -/

/-- A bracket is opened with the operand that it belongs to, if it belongs to one. -/
theorem Balanced.openBracket {opener : Opener} (balanced : state.Balanced)
    (started : Started state.brackets)
    (belongs : opener.operands = if state.expectsOperand then 0 else 1) :
    (state.openBracket opener span).Balanced where
  height := by
    rw [State.openBracket, balanced.height, operands, ← belongs]
    simp only [operands, bracketOperands, OpenBracket.operands, waitingOperands, if_true]
    exact congrArg some (by omega)
  commas := List.forall_mem_cons.mpr ⟨fun _ => rfl, balanced.commas⟩
  outer := balanced.all_started started
  started := .inr ⟨rfl, rfl⟩

/-- A bracket that is opened where an operand is expected. -/
theorem Balanced.openOperand {opener : Opener} (balanced : state.Balanced)
    (noObject : opener.operands = 0)
    (steps : (do return (← state.beginOperand token).openBracket opener span) = Except.ok next) :
    next.Balanced := by
  obtain ⟨begun, begins, same⟩ := bind_eq_ok_iff.mp steps
  cases same
  obtain ⟨balanced, expects, started⟩ := balanced.begin begins
  exact balanced.openBracket started (by rw [noObject, if_pos expects])

/-- A square bracket takes an operand for an index and none for an array. -/
theorem Balanced.openSquare (balanced : state.Balanced)
    (steps : state.openSquare token = .ok next) : next.Balanced := by
  rw [State.openSquare] at steps
  split at steps
  next => exact balanced.openOperand rfl steps
  next complete =>
    cases steps
    refine balanced.openBracket (balanced.started_of_complete complete) ?_
    rw [if_neg complete]
    rfl

/-- A comma keeps the item in front of it as an operand. -/
theorem Balanced.comma (balanced : state.Balanced) (steps : state.comma span = .ok next) :
    next.Balanced := by
  rw [State.comma] at steps
  split at steps
  next innermost others isOpen =>
    split at steps
    next => cases steps
    next isList =>
      split at steps
      next => cases steps
      next complete =>
        cases steps
        have commas := balanced.commas
        have outer := balanced.outer
        rw [isOpen] at commas outer
        refine ⟨?_, ?_, outer, .inr ⟨rfl, rfl⟩⟩
        · rw [balanced.height?_emit complete (List.append_nil _).symm, operands, isOpen]
          simp only [bracketOperands, OpenBracket.operands, waitingOperands, if_true]
          exact congrArg some (by omega)
        · obtain ⟨-, behind⟩ := List.forall_mem_cons.mp commas
          refine List.forall_mem_cons.mpr ⟨fun noList => ?_, behind⟩
          simp [noList] at isList
  next => cases steps

/-- What a bracket adds when it is closed takes all operands in it and makes one. -/
theorem height?_closedItems {waiting : List Waiting} {output : List PostfixItem}
    {brackets : List OpenBracket} {expects : Bool} (height : Nat)
    (noCommas : bracket.opener.isList = false → bracket.commas = 0)
    (closed : State.closedItems ⟨output, waiting, brackets, expects⟩ bracket span = .ok items) :
    height? (height + bracket.opener.operands + bracket.commas + if expects then 0 else 1)
      items.reverse = some (height + 1) := by
  -- Where an operand is expected, only a list with nothing in it can be closed.
  cases expects with
  | true =>
      obtain ⟨-, none, ⟨isArray, rfl⟩ | ⟨name, isCall, rfl⟩⟩ := closedItems_expecting closed
      · simp [isArray, none, Opener.operands, heightBehind?, arity]
      · simp [isCall, none, Opener.operands, heightBehind?, arity]
  | false =>
      obtain ⟨opener, start, outside, commas, hasArgument⟩ := bracket
      cases opener with
      | group =>
          obtain rfl : commas = 0 := noCommas rfl
          cases closed
          rfl
      | index =>
          obtain rfl : commas = 0 := noCommas rfl
          cases closed
          simp [Opener.operands, heightBehind?, arity]
      | call name | array =>
          cases closed
          simp [Opener.operands, heightBehind?, arity]

/-- A closed bracket has become an operand. -/
theorem Balanced.close {closing : Bracket} (balanced : state.Balanced)
    (steps : state.closeBracket closing span = .ok next) : next.Balanced := by
  obtain ⟨output, waiting, _ | ⟨bracket, others⟩, expects⟩ := state
  · cases steps
  obtain ⟨-, added, closed, rfl⟩ := closeBracket_ok steps
  obtain ⟨noCommas, commas⟩ := List.forall_mem_cons.mp balanced.commas
  have outer := balanced.outer
  refine ⟨?_, commas, fun bracket isOuter => outer bracket (List.mem_of_mem_tail isOuter), .inl ?_⟩
  · -- What waits in the bracket stops behind an operand; where none has ended, nothing waits.
    have stopped : height? 0 (emit waiting output).reverse = some
        (bracketOperands (bracket :: others) + if expects then 0 else 1) := by
      cases expects with
      | false => exact balanced.height?_emit Bool.false_ne_true (List.append_nil _).symm
      | true =>
          obtain ⟨unmarked, -⟩ := closedItems_expecting closed
          obtain ⟨-, rfl⟩ := balanced.started.resolve_left (by simp [unmarked])
          exact balanced.height
    have added := height?_closedItems
      (bracketOperands others + waitingOperands bracket.outside) noCommas closed
    rw [bracketOperands, OpenBracket.operands, Nat.add_comm _ (bracketOperands others),
      ← Nat.add_assoc, ← Nat.add_assoc] at stopped
    rw [List.reverse_append, height?_append, stopped, Option.bind_some, added]
    rfl
  · exact fun innermost isInnermost => outer innermost (List.mem_of_mem_head? isInnermost)

/-! ### Runs -/

/-- Every token that stands for itself keeps the balance. -/
theorem Balanced.step (balanced : state.Balanced) (steps : state.step token = .ok next) :
    next.Balanced := by
  obtain ⟨kind, span⟩ := token
  cases kind with
  | number | text | boolean | identifier => exact balanced.operand steps
  | method name =>
      obtain ⟨begun, -, fails⟩ := bind_eq_ok_iff.mp steps
      cases fails
  | property name => exact balanced.property steps
  | operator operator => exact balanced.binary steps
  | unary operator => exact balanced.unary steps
  | opening bracket =>
      cases bracket with
      | round => exact balanced.openOperand rfl steps
      | square => exact balanced.openSquare steps
  | closing bracket => exact balanced.close steps
  | comma => exact balanced.comma steps

/-- So does every list of tokens. -/
theorem Balanced.run (balanced : state.Balanced) (ran : state.run tokens = .ok next) :
    next.Balanced :=
  run_keeps (motive := fun _ reached => reached.Balanced) [] Balanced.step
    (fun _ before called => before.openOperand rfl called) balanced ran

/-- Behind the last token the items of a balanced state make one operand. -/
theorem Balanced.finish {last : Span} (balanced : state.Balanced)
    (finishes : state.finish last = .ok items) : height? 0 items = some 1 := by
  rw [State.finish] at finishes
  split at finishes
  next => cases finishes
  next complete =>
    split at finishes
    next => cases finishes
    next isNone =>
      cases finishes
      rw [balanced.height?_emit complete (List.append_nil _).symm, isNone]
      rfl

end State

end Expr.Parser

namespace PostfixItem

open Grammar Expr.Parser

variable {tokens : List Token} {items : List PostfixItem}

/-! ### Items of tokens -/

/-- The items of tokens make one operand. -/
theorem height?_of_ofTokens (read : ofTokens tokens = .ok (some items)) :
    height? 0 items = some 1 := by
  rw [ofTokens] at read
  split at read
  next => cases read
  next last _ =>
    obtain ⟨state, ran, read⟩ := bind_eq_ok_iff.mp read
    obtain ⟨finished, finishes, same⟩ := bind_eq_ok_iff.mp read
    cases same
    exact (State.balanced_initial.run ran).finish finishes

/-- The items of tokens never lack an operand. By their numbers every item takes no more than there
are in front of it, and one is left. On the stack it is the same under every limit: as long as
nothing has been too deep, every item finds what it takes, and behind the last item there is one
operand. It is the expression that the tokens spell, and the only fault there can be is that a part
of it is too deep. -/
theorem finds_operands (read : ofTokens tokens = .ok (some items)) :
    height? 0 items = some 1 ∧
    (∀ limit, OnlyTooDeep limit (·.length = 1) (applyAll limit items []) ∧
      ∀ before item after stack, items = before ++ item :: after →
        applyAll limit before [] = .ok stack →
        item.arity ≤ stack.length ∧
          OnlyTooDeep limit (·.length = stack.length - item.arity + 1) (item.apply limit stack)) ∧
    ∃ expr, Chain 0 tokens expr ∧ ∀ limit extent,
      (expr.Within limit → Expr.ofPostfix limit extent items = .ok expr) ∧
      (¬expr.Within limit →
        ∃ span, Expr.ofPostfix limit extent items = .error ⟨.expressionTooDeep limit, span⟩) := by
  have counts := height?_of_ofTokens read
  refine ⟨counts, fun limit => ⟨onlyTooDeep_applyAll rfl counts, ?_⟩, ?_⟩
  · rintro before item after stack rfl applied
    have enough := arity_le_length counts applied
    exact ⟨enough, onlyTooDeep_apply enough⟩
  · -- Which expression it is does not depend on the limit.
    obtain ⟨expr, chain, -⟩ := chain_of_ofTokens 0 read
    refine ⟨expr, chain, fun limit extent => ?_⟩
    obtain ⟨same, chain', denotes⟩ := chain_of_ofTokens limit read
    obtain rfl := chain.unique chain'
    exact ⟨fun within => (Expr.ofPostfix_eq_ok_iff denotes).mpr ⟨rfl, within⟩,
      ofPostfix_eq_error counts denotes⟩

/-- The items of `-f(a, []).k + true`, which has five levels. -/
theorem finds_operands_of_call :
    let place : Span := ⟨.first, .first⟩
    let tokens : List Token := [⟨.unary .negate, place⟩, ⟨.method "f", place⟩,
      ⟨.opening .round, place⟩, ⟨.identifier "a", place⟩, ⟨.comma, place⟩,
      ⟨.opening .square, place⟩, ⟨.closing .square, place⟩, ⟨.closing .round, place⟩,
      ⟨.property "k", place⟩, ⟨.operator .add, place⟩, ⟨.boolean true, place⟩]
    let items : List PostfixItem := [.operand (.variable "a" place), .array 0 place,
      .call "f" 2 place, .operand (.text "k" place), .index place, .unary .negate place,
      .operand (.boolean true place), .binary .add place]
    ofTokens tokens = .ok (some items) ∧ height? 0 items = some 1 ∧
      ∃ expr, Chain 0 tokens expr ∧ expr.Within 5 ∧ ¬expr.Within 4 := by
  intro place tokens items
  have read : ofTokens tokens = .ok (some items) := by rfl
  obtain ⟨counts, -, expr, chain, outcome⟩ := finds_operands read
  refine ⟨read, counts, expr, chain, ?_, fun within => ?_⟩
  · refine Classical.byContradiction fun outside => ?_
    obtain ⟨span, fails⟩ := (outcome 5 place).2 outside
    have builds : (Expr.ofPostfix 5 place items).toOption.isSome = true := by rfl
    simp [fails, Except.toOption] at builds
  · have fails : (Expr.ofPostfix 4 place items).toOption.isSome = false := by rfl
    simp [(outcome 4 place).1 within, Except.toOption] at fails

end PostfixItem

end TextTemplate
