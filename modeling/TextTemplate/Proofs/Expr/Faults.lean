import TextTemplate.Expr.Parser
import TextTemplate.Proofs.Source.Marked

/-! # Where faults of expressions are found

Every span that reading an expression keeps is that of a token, or covers those of two. So the state
has marked spans at every point, and a fault is found at one of them, or at what surrounds an
expression that has no tokens at all. -/

namespace TextTemplate

variable {source : Source} {place last extent : Span} {token : Token} {tokens : List Token}

namespace PostfixItem

variable {items others : List PostfixItem}

/-! ### Items -/

/-- The span that a fault of an item is found at. -/
def span : PostfixItem → Span
  | .operand expr => expr.span
  | .binary _ span | .unary _ span | .call _ _ span | .array _ span | .index span => span

/-- Whether the spans of items are marked. -/
def AreMarked (source : Source) (items : List PostfixItem) : Prop :=
  ∀ item ∈ items, source.Marks item.span

/-- In an empty list every item is marked. -/
theorem areMarked_nil (source : Source) : AreMarked source [] := nofun

/-- One more item with a marked span leaves the spans marked. -/
theorem AreMarked.cons (marked : AreMarked source items) (item : PostfixItem)
    (marks : source.Marks item.span) : AreMarked source (item :: items) :=
  List.forall_mem_cons.mpr ⟨marks, marked⟩

/-- The spans of two lists of items are marked when those of both are. -/
theorem AreMarked.append (marked : AreMarked source items) (marked' : AreMarked source others) :
    AreMarked source (items ++ others) := List.forall_mem_append.mpr ⟨marked, marked'⟩

end PostfixItem

namespace Expr.Parser

open PostfixItem (AreMarked areMarked_nil)

variable {state : State} {output : List PostfixItem} {waiting stopped : List Waiting}
  {bracket : OpenBracket} {outer : List OpenBracket}

/-- Whether the spans of waiting operators are marked. -/
def AreWaiting (source : Source) (waiting : List Waiting) : Prop :=
  AreMarked source (waiting.map Waiting.item)

/-- Some of several operators have marked spans when all of them do. -/
theorem AreWaiting.subset (marked : AreWaiting source waiting) (some : stopped ⊆ waiting) :
    AreWaiting source stopped := fun item isItem => marked item (List.map_subset _ some isItem)

/-- Operators that stop waiting keep their spans. -/
theorem AreWaiting.emit (marked : AreWaiting source stopped) (marked' : AreMarked source output) :
    AreMarked source (State.emit stopped output) := by
  refine .append (fun item isItem => ?_) marked'
  exact marked item (List.mem_reverse.mp isItem)

/-- Whether the spans of an open bracket and of the operators outside of it are marked. -/
structure OpenBracket.Marked (source : Source) (bracket : OpenBracket) : Prop where
  span : source.Marks bracket.span
  outside : AreWaiting source bracket.outside

namespace State

/-! ### States -/

/-- Whether all spans that a state keeps are marked. -/
structure Marked (source : Source) (state : State) : Prop where
  output : AreMarked source state.output
  waiting : AreWaiting source state.waiting
  brackets : ∀ bracket ∈ state.brackets, bracket.Marked source

/-- At first a state keeps no spans. -/
theorem marked_initial (source : Source) : State.initial.Marked source := ⟨nofun, nofun, nofun⟩

/-- The innermost open bracket has marked spans, and so have those outside of it. -/
theorem Marked.innermost (marked : state.Marked source) (isOpen : state.brackets = bracket :: outer) :
    bracket.Marked source ∧ ∀ other ∈ outer, other.Marked source :=
  List.forall_mem_cons.mp (isOpen ▸ marked.brackets)

/-- To mark that something has started changes no span. -/
theorem Marked.markArgument (marked : state.Marked source) : state.markArgument.Marked source := by
  rw [State.markArgument]
  split
  next bracket outer isOpen =>
    obtain ⟨innermost, others⟩ := marked.innermost isOpen
    exact ⟨marked.output, marked.waiting,
      List.forall_mem_cons.mpr ⟨⟨innermost.span, innermost.outside⟩, others⟩⟩
  next => exact marked

/-- A bracket is opened with its own span and those of the operators that wait outside. -/
theorem Marked.openBracket (marked : state.Marked source) (opener : Opener)
    (marks : source.Marks place) : (state.openBracket opener place).Marked source :=
  ⟨marked.output, areMarked_nil source,
    List.forall_mem_cons.mpr ⟨⟨marks, marked.waiting⟩, marked.brackets⟩⟩

section Steps

variable (marked : state.Marked source) (marks : source.Marks token.span)
  (marksPlace : source.Marks place)

/-! ### Operands -/

include marked marks in
/-- An operand that is out of place is reported at its token. -/
theorem locates_beginOperand : source.Locates (Marked source) (state.beginOperand token) := by
  rw [beginOperand]
  split
  next => exact marked.markArgument
  next => exact marks

include marked marks in
/-- A finished operand keeps the span of its token. -/
theorem locates_operand {expr : Expr} (isSpan : expr.span = token.span) :
    source.Locates (Marked source) (state.operand token expr) := by
  refine (locates_beginOperand marked marks).bind fun begun marked => ?_
  rw [← isSpan] at marks
  exact ⟨marked.output.cons (.operand expr) marks, marked.waiting, marked.brackets⟩

include marked marks in
/-- A prefix operator waits with the span of its token. -/
theorem locates_unary (operator : UnaryOperator) :
    source.Locates (Marked source) (state.unary token operator) := by
  refine (locates_beginOperand marked marks).bind fun begun marked => ?_
  exact ⟨marked.output, marked.waiting.cons (.unary operator token.span) marks, marked.brackets⟩

include marked marks in
/-- A dotted suffix gives a key and what looks it up, both where the suffix stands. -/
theorem locates_property (name : String) :
    source.Locates (Marked source) (state.property token name) := by
  rw [property]
  split
  next => exact marks
  next =>
    have key := marked.output.cons (.operand (.text name token.span)) marks
    exact ⟨key.cons (.index token.span) marks, marked.waiting, marked.brackets⟩

/-! ### Operators -/

include marked marksPlace in
/-- A binary operator without a left operand is reported at its own place, where it waits otherwise.
-/
theorem locates_binary (operator : BinaryOperator) :
    source.Locates (Marked source) (state.binary place operator) := by
  rw [binary]
  split
  next => exact marksPlace
  next =>
    have stops := marked.waiting.subset (List.takeWhile_subset (·.yieldsTo operator))
    have waits (count : Nat) := marked.waiting.subset (List.drop_subset count state.waiting)
    exact ⟨stops.emit marked.output, (waits _).cons (.binary operator place) marksPlace, marked.brackets⟩

/-! ### Brackets -/

include marked marks in
/-- A square bracket opens an index or an array at its token. -/
theorem locates_openSquare : source.Locates (Marked source) (state.openSquare token) := by
  rw [openSquare]
  split
  next =>
    refine (locates_beginOperand marked marks).bind fun begun marked => ?_
    exact marked.openBracket .array marks
  next => exact marked.openBracket .index marks

include marked marksPlace in
/-- A comma out of place is reported where it stands. -/
theorem locates_comma : source.Locates (Marked source) (state.comma place) := by
  rw [comma]
  split
  next bracket outer isOpen =>
    obtain ⟨innermost, others⟩ := marked.innermost isOpen
    split
    next => exact marksPlace
    next =>
      split
      next => exact marksPlace
      next =>
        exact ⟨marked.waiting.emit marked.output, areMarked_nil source,
          List.forall_mem_cons.mpr ⟨⟨innermost.span, innermost.outside⟩, others⟩⟩
  next => exact marksPlace

include marksPlace in
/-- A list that ends with a comma is reported at the bracket that closes it. -/
theorem locates_itemCount (state : State) (bracket : OpenBracket) :
    source.Locates (fun _ => True) (state.itemCount bracket place) := by
  rw [itemCount]
  split
  next => exact trivial
  next =>
    split
    next => exact marksPlace
    next =>
      split
      next => exact trivial
      next => exact marksPlace

include marksPlace in
/-- What a bracket adds, and what is wrong with what stands in it, is found at the bracket as a
whole or at its end. -/
theorem locates_closedItems (short : source.size < 2 ^ 32 - 1) (state : State)
    (innermost : bracket.Marked source) :
    source.Locates (AreMarked source) (state.closedItems bracket place) := by
  have whole := innermost.span.merge short marksPlace
  rw [closedItems]
  cases bracket.opener with
  -- Parentheses leave no item, so only their faults have a place.
  | group =>
      dsimp only
      split
      next => exact areMarked_nil source
      next =>
        split
        next => exact whole
        next => exact whole
  | call name =>
      exact (locates_itemCount marksPlace state bracket).bind fun count _ =>
        (areMarked_nil source).cons (.call name count _) whole
  | array =>
      exact (locates_itemCount marksPlace state bracket).bind fun count _ =>
        (areMarked_nil source).cons (.array count _) whole
  | index =>
      dsimp only
      split
      next => exact whole
      next => exact (areMarked_nil source).cons (.index place) marksPlace

include marked marksPlace in
/-- A closing bracket without a partner, or with one of another form, is reported at either of the
two. -/
theorem locates_closeBracket (short : source.size < 2 ^ 32 - 1) (closing : Bracket) :
    source.Locates (Marked source) (state.closeBracket closing place) := by
  rw [closeBracket]
  split
  next => exact marksPlace
  next bracket outer isOpen =>
    obtain ⟨innermost, others⟩ := marked.innermost isOpen
    split
    next => exact marksPlace
    next =>
      refine (locates_closedItems marksPlace short state innermost).bind fun items added => ?_
      exact ⟨added.append (marked.waiting.emit marked.output), innermost.outside, others⟩

/-! ### Tokens -/

include marked marks in
/-- The name of a call is reported where no operand may start. -/
theorem locates_callStep (name : String) :
    source.Locates (Marked source) (state.callStep token name) := by
  refine (locates_beginOperand marked marks).bind fun begun marked => ?_
  exact marked.openBracket (.call name) marks

include marked marks in
/-- One token keeps all spans marked, or its fault is at one of them. -/
theorem locates_step (short : source.size < 2 ^ 32 - 1) :
    source.Locates (Marked source) (state.step token) := by
  rw [step]
  split
  next => exact locates_operand marked marks rfl
  next => exact locates_operand marked marks rfl
  next => exact locates_operand marked marks rfl
  next => exact locates_operand marked marks rfl
  next => exact (locates_beginOperand marked marks).bind fun _ _ => marks
  next name _ => exact locates_property marked marks name
  next operator _ => exact locates_binary marked marks operator
  next operator _ => exact locates_unary marked marks operator
  next =>
    refine (locates_beginOperand marked marks).bind fun begun marked => ?_
    exact marked.openBracket .group marks
  next => exact locates_openSquare marked marks
  next closing _ => exact locates_closeBracket marked marks short closing
  next => exact locates_comma marked marks

end Steps

/-- All tokens keep all spans marked, or the first fault is at one of them. -/
theorem locates_run (short : source.size < 2 ^ 32 - 1) (marked : state.Marked source)
    (marks : ∀ token ∈ tokens, source.Marks token.span) :
    source.Locates (Marked source) (state.run tokens) := by
  -- A method takes two tokens in one step, so the induction follows the run.
  induction state, tokens using run.induct with
  | case1 state => exact marked
  | case2 state name span opening rest after steps ih =>
      obtain ⟨here, behind⟩ := List.forall_mem_cons.mp marks
      have step : source.Locates (Marked source) (state.callStep ⟨.method name, span⟩ name) :=
        locates_callStep marked here name
      rw [steps] at step
      rw [run, steps]
      exact ih step fun token isToken => behind token (.tail _ isToken)
  | case3 state name span opening rest fault fails =>
      have step : source.Locates (Marked source) (state.callStep ⟨.method name, span⟩ name) :=
        locates_callStep marked (marks _ (.head _)) name
      rw [fails] at step
      rw [run, fails]
      exact step
  | case4 state token rest notCall after steps ih =>
      obtain ⟨here, behind⟩ := List.forall_mem_cons.mp marks
      have step := locates_step marked here short
      rw [steps] at step
      rw [run, steps]
      · exact ih step behind
      · exact notCall
  | case5 state token rest notCall fault fails =>
      have step := locates_step marked (marks _ (.head _)) short
      rw [fails] at step
      rw [run, fails]
      · exact step
      · exact notCall

/-- Behind the last token all items are marked, or what is missing is found at it or at the bracket
that is open. -/
theorem locates_finish (marked : state.Marked source) (marks : source.Marks last) :
    source.Locates (AreMarked source) (state.finish last) := by
  rw [finish]
  split
  next => exact marks
  next =>
    split
    next bracket outer isOpen =>
      have innermost := marked.brackets bracket
      rw [isOpen] at innermost
      exact (innermost (.head _)).span
    next =>
      intro item isItem
      exact marked.waiting.emit marked.output item (List.mem_reverse.mp isItem)

end State

end Expr.Parser

namespace PostfixItem

variable {limit depth count : Nat} {expr : Expr} {item : PostfixItem} {items : List PostfixItem}
  {stack rest operands : List Operand}

/-! ### Trees -/

/-- Whether the spans of finished operands are marked. -/
def AreFinished (source : Source) (stack : List Operand) : Prop :=
  ∀ operand ∈ stack, source.Marks operand.expr.span

/-- An operand that is too deep is reported as a whole. -/
theorem locates_push (marks : source.Marks expr.span) (finished : AreFinished source stack) :
    source.Locates (AreFinished source) (push limit expr depth stack) := by
  rw [push]
  split
  next => exact marks
  next => exact List.forall_mem_cons.mpr ⟨marks, finished⟩

/-- The operands that a list leaves on the stack are among those before. -/
theorem AreFinished.of_takeList? (finished : AreFinished source stack)
    (taken : takeList? count stack = some (operands, rest)) : AreFinished source rest := by
  obtain ⟨-, same⟩ := Option.ite_none_right_eq_some.mp taken
  cases same
  exact fun operand isOperand => finished operand (List.mem_of_mem_drop isOperand)

/-- One item keeps the spans of all operands marked, or its fault is at it or at the operand that it
makes. -/
theorem locates_apply (short : source.size < 2 ^ 32 - 1) (marks : source.Marks item.span)
    (finished : AreFinished source stack) :
    source.Locates (AreFinished source) (item.apply limit stack) := by
  -- What an item makes covers the operands that it takes, by the merging of their spans.
  cases item with
  | operand expr => exact List.forall_mem_cons.mpr ⟨marks, finished⟩
  | binary operator span =>
      match stack with
      | [] | [_] => exact marks
      | right :: left :: stack =>
          obtain ⟨marksRight, finished⟩ := List.forall_mem_cons.mp finished
          obtain ⟨marksLeft, finished⟩ := List.forall_mem_cons.mp finished
          exact locates_push (marksLeft.merge short marksRight) finished
  | unary operator span =>
      match stack with
      | [] => exact marks
      | right :: stack =>
          obtain ⟨marksRight, finished⟩ := List.forall_mem_cons.mp finished
          exact locates_push (marks.merge short marksRight) finished
  | call name count span =>
      rw [apply]
      split
      next taken => exact locates_push marks (finished.of_takeList? taken)
      next => exact marks
  | array count span =>
      rw [apply]
      split
      next taken => exact locates_push marks (finished.of_takeList? taken)
      next => exact marks
  | index stop =>
      match stack with
      | [] | [_] => exact marks
      | key :: object :: stack =>
          obtain ⟨-, finished⟩ := List.forall_mem_cons.mp finished
          obtain ⟨marksObject, finished⟩ := List.forall_mem_cons.mp finished
          exact locates_push (marksObject.merge short marks) finished

/-- And so do all items. -/
theorem locates_applyAll (short : source.size < 2 ^ 32 - 1) (marked : AreMarked source items)
    (finished : AreFinished source stack) :
    source.Locates (AreFinished source) (applyAll limit items stack) := by
  induction items generalizing stack with
  | nil => exact finished
  | cons item rest ih =>
      obtain ⟨here, behind⟩ := List.forall_mem_cons.mp marked
      exact (locates_apply short here finished).bind fun after finished => ih behind finished

end PostfixItem

/-! ### Expressions -/

/-- Items that do not make one expression are reported at the second one that they make, or at what
surrounds them. -/
theorem Expr.locates_ofPostfix {limit : Nat} {items : List PostfixItem}
    (short : source.size < 2 ^ 32 - 1) (marks : source.Marks extent)
    (marked : PostfixItem.AreMarked source items) :
    source.Locates (fun _ => True) (Expr.ofPostfix limit extent items) := by
  have none : PostfixItem.AreFinished source [] := nofun
  refine (PostfixItem.locates_applyAll short marked none).bind fun stack finished => ?_
  split
  next => exact marks
  next => exact trivial
  next first second others isStack =>
    refine finished second (List.mem_reverse.mp ?_)
    rw [isStack]
    exact .tail _ (.head _)

/-- The fault of tokens that spell no expression is found at some of them, or at what surrounds
them. -/
theorem Expr.locates_ofTokens {limits : Limits} (short : source.size < 2 ^ 32 - 1)
    (marks : source.Marks extent) (tokensMarked : ∀ token ∈ tokens, source.Marks token.span) :
    source.Locates (fun _ => True) (Expr.ofTokens limits extent tokens) := by
  have items : source.Locates (fun items => ∀ found ∈ items, PostfixItem.AreMarked source found)
      (PostfixItem.ofTokens tokens) := by
    rw [PostfixItem.ofTokens]
    split
    next => exact nofun
    next last isLast =>
      have run := Expr.Parser.State.locates_run short (Expr.Parser.State.marked_initial source)
        tokensMarked
      refine run.bind fun state marked => ?_
      have marksLast := tokensMarked last (List.mem_of_getLast? isLast)
      refine (Expr.Parser.State.locates_finish marked marksLast).bind fun items marked => ?_
      exact fun found isFound => Option.some.inj isFound ▸ marked
  refine items.bind fun found marked => ?_
  cases found with
  | none => exact marks
  | some items => exact Expr.locates_ofPostfix short marks (marked items rfl)

end TextTemplate
