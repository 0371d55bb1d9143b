import TextTemplate.Proofs.Expr.Prefixes
import TextTemplate.Proofs.Outcome

/-! # Reading follows the grammar

Every step of reading extends the explanation of what has been read, so a state that may end the
tokens has a derivation of all of them. -/

namespace TextTemplate.Expr.Parser

open Grammar PostfixItem

variable {limit : Nat} {tokens : List Token} {state next : State} {token : Token} {span : Span}

/-! ### Output -/

/-- Operators that stop waiting go behind the output, which is kept in reverse. -/
theorem emit_reverse (stopped : List Waiting) (items : List PostfixItem) :
    State.emit stopped items.reverse = (items ++ stopped.map Waiting.item).reverse := by
  simp [State.emit]

/-- Nothing started means nothing marked. -/
@[simp] theorem started_nil : Started [] := by
  simp [Started]

@[simp] theorem started_cons {bracket : OpenBracket} {outer : List OpenBracket} :
    Started (bracket :: outer) ↔ bracket.hasArgument = true := by
  simp [Started]

/-- The brackets after something has started in the innermost one. -/
def mark : List OpenBracket → List OpenBracket
  | bracket :: outer => { bracket with hasArgument := true } :: outer
  | [] => []

@[simp] theorem mark_mark (brackets : List OpenBracket) : mark (mark brackets) = mark brackets := by
  cases brackets <;> rfl

@[simp] theorem started_mark (brackets : List OpenBracket) : Started (mark brackets) := by
  cases brackets <;> simp [mark]

/-- To mark that something has started changes the innermost bracket alone. -/
theorem markArgument_eq (output : List PostfixItem) (waiting : List Waiting)
    (brackets : List OpenBracket) (expects : Bool) :
    State.markArgument ⟨output, waiting, brackets, expects⟩ =
      ⟨output, waiting, mark brackets, expects⟩ := by
  cases brackets <;> rfl

/-- Marking does not change what has been read. -/
theorem Front.mark {items : List PostfixItem} {brackets : List OpenBracket}
    {waiting : List Waiting} (front : Front limit tokens items brackets waiting) :
    Front limit tokens items (mark brackets) waiting := by
  induction front with
  | start => exact .start
  | unary _ ih => exact .unary ih
  | binary _ lefts denotes holds ih => exact .binary ih lefts denotes holds
  | group front started => exact .group front started
  | call front started listed => exact .call front started listed
  | array front started listed => exact .array front started listed
  | index front started object denotes => exact .index front started object denotes

/-! ### Operands -/

/-- Where an operand may begin, the tokens read are a front. -/
theorem Reads.begin (reads : Reads limit tokens state)
    (begins : state.beginOperand token = .ok next) :
    ∃ items brackets waiting, next = ⟨items.reverse, waiting, brackets, true⟩ ∧
      Front limit tokens items brackets waiting ∧ Started brackets := by
  cases reads with
  | expecting front =>
      rw [State.beginOperand, if_pos rfl, markArgument_eq] at begins
      exact ⟨_, _, _, (Except.ok.inj begins).symm, front.mark, started_mark _⟩
  | complete => cases begins

/-- A token that is an operand of its own. -/
theorem Reads.operand {expr : Expr} (reads : Reads limit tokens state)
    (steps : state.operand token expr = .ok next) (primary : Primary [token] expr)
    (leaf : expr.isComposite = false) : Reads limit (tokens ++ [token]) next := by
  obtain ⟨_, begins, same⟩ := bind_eq_ok_iff.mp steps
  obtain ⟨items, brackets, waiting, rfl, front, started⟩ := reads.begin begins
  cases same
  simpa using Reads.complete front started (.primary primary) (denotes_operand leaf)

/-- A prefix operator. -/
theorem Reads.unary {operator : UnaryOperator} (reads : Reads limit tokens state)
    (steps : state.unary ⟨.unary operator, span⟩ operator = .ok next) :
    Reads limit (tokens ++ [⟨.unary operator, span⟩]) next := by
  obtain ⟨_, begins, same⟩ := bind_eq_ok_iff.mp steps
  obtain ⟨items, brackets, waiting, rfl, front, started⟩ := reads.begin begins
  cases same
  exact .expecting (.unary front) (.inl started)

/-- A dotted suffix. -/
theorem Reads.property {name : String} (reads : Reads limit tokens state)
    (steps : state.property ⟨.property name, span⟩ name = .ok next) :
    Reads limit (tokens ++ [⟨.property name, span⟩]) next := by
  cases reads with
  | expecting => cases steps
  | complete front started operand denotes =>
      rw [State.property, if_neg (by simp), Except.ok.injEq] at steps
      rw [← steps]
      have key : Denotes limit [.operand (.text name span)] (.text name span) :=
        denotes_operand rfl
      simpa using Reads.complete front started (.property operand) (denotes.member span key)

/-! ### Operators -/

/-- Dropping what a list starts with leaves the rest. -/
theorem drop_length_takeWhile (stops : Waiting → Bool) (waiting : List Waiting) :
    waiting.drop (waiting.takeWhile stops).length = waiting.dropWhile stops := by
  induction waiting with
  | nil => rfl
  | cons last before ih => by_cases stop : stops last = true <;> simp [stop, ih]

/-- What stopped last did not keep the next operator waiting. -/
theorem head?_dropWhile {stops : Waiting → Bool} {waiting : List Waiting} {last : Waiting}
    (isLast : last ∈ (waiting.dropWhile stops).head?) : stops last = false := by
  induction waiting with
  | nil => cases isLast
  | cons first before ih =>
      by_cases stop : stops first = true
      · exact ih (by simpa [stop] using isLast)
      · simp_all

/-- A binary operator. -/
theorem Reads.binary {operator : BinaryOperator} (reads : Reads limit tokens state)
    (steps : state.binary span operator = .ok next) :
    Reads limit (tokens ++ [⟨.operator operator, span⟩]) next := by
  cases reads with
  | expecting => cases steps
  | complete front started operand denotes =>
      rw [State.binary, if_neg (by simp), Except.ok.injEq] at steps
      rw [← steps, emit_reverse, drop_length_takeWhile]
      have reduced := front.reduce (·.yieldsTo operator) operator.leftLevel
        (fun _ _ => rfl) (fun _ _ yields => BinaryOperator.yieldsTo_iff.mp yields)
        (.postfixed operand) denotes
      obtain ⟨_, _, _, _, _, read, output, front, left, denotes⟩ := reduced.halves
      rw [read, output]
      exact .expecting (.binary front left denotes fun _ => head?_dropWhile) (.inl started)

/-- Where a bracket may be closed or a comma may stand, all operators inside it have their
operands. -/
theorem Front.reduce_all {items operandItems : List PostfixItem} {brackets : List OpenBracket}
    {waiting : List Waiting} {operand : List Token} {expr : Expr}
    (front : Front limit tokens items brackets waiting) (postfixed : Postfixed operand expr)
    (denotes : Denotes limit operandItems expr) :
    Reduced limit 0 (tokens ++ operand) (items ++ operandItems ++ waiting.map Waiting.item)
      brackets [] := by
  have reduced := front.reduce (fun _ => true) 0 (fun _ _ => rfl)
    (fun _ _ _ => Nat.zero_le _) (.postfixed postfixed) denotes
  have taken (stopped : List Waiting) : stopped.takeWhile (fun _ => true) = stopped := by
    induction stopped <;> simp_all [List.takeWhile]
  have dropped (stopped : List Waiting) : stopped.dropWhile (fun _ => true) = [] := by
    induction stopped <;> simp_all [List.dropWhile]
  rwa [taken, dropped] at reduced

/-! ### Brackets -/

/-- An opening bracket where an operand is expected, with the tokens that open it. -/
theorem Reads.group (reads : Reads limit tokens state)
    (steps : state.step ⟨.opening .round, span⟩ = .ok next) :
    Reads limit (tokens ++ [⟨.opening .round, span⟩]) next := by
  obtain ⟨_, begins, same⟩ := bind_eq_ok_iff.mp steps
  obtain ⟨items, brackets, waiting, rfl, front, started⟩ := reads.begin begins
  cases same
  exact .expecting (.group front started) (.inr rfl)

/-- The name of a method and the parenthesis after it. -/
theorem Reads.call {name : String} (opening : Span) (reads : Reads limit tokens state)
    (steps : state.callStep ⟨.method name, span⟩ name = .ok next) :
    Reads limit (tokens ++ [⟨.method name, span⟩, ⟨.opening .round, opening⟩]) next := by
  obtain ⟨_, begins, same⟩ := bind_eq_ok_iff.mp steps
  obtain ⟨items, brackets, waiting, rfl, front, started⟩ := reads.begin begins
  cases same
  have inside : Front limit
      (tokens ++ [⟨.method name, span⟩, ⟨.opening .round, opening⟩] ++ []) (items ++ [])
      (⟨.call name, span, waiting, 0, false⟩ :: brackets) [] := .call front started .none
  simpa [State.openBracket] using Reads.expecting inside (.inr rfl)

/-- A square bracket opens an array where an operand is expected, and an index elsewhere. -/
theorem Reads.openSquare (reads : Reads limit tokens state)
    (steps : state.openSquare ⟨.opening .square, span⟩ = .ok next) :
    Reads limit (tokens ++ [⟨.opening .square, span⟩]) next := by
  cases reads with
  | @expecting _ items brackets waiting front _ =>
      rw [State.openSquare, if_pos rfl, State.beginOperand, if_pos rfl, markArgument_eq] at steps
      have inside : Front limit (tokens ++ [⟨.opening .square, span⟩] ++ []) (items ++ [])
          (⟨.array, span, waiting, 0, false⟩ :: mark brackets) [] :=
        .array front.mark (started_mark _) .none
      simp only [bind, Except.bind, pure, Except.pure, Except.ok.injEq] at steps
      rw [← steps]
      simpa [State.openBracket] using Reads.expecting inside (.inr rfl)
  | complete front started operand denotes =>
      rw [State.openSquare, if_neg (by simp), Except.ok.injEq] at steps
      rw [← steps]
      exact .expecting (.index front started operand denotes) (.inr rfl)

/-- A comma completes an item of the innermost list. -/
theorem Reads.comma (reads : Reads limit tokens state) (steps : state.comma span = .ok next) :
    Reads limit (tokens ++ [⟨.comma, span⟩]) next := by
  cases reads with
  | @expecting _ _ brackets _ _ _ =>
      cases brackets with
      | nil => cases steps
      | cons bracket outer => cases isList : bracket.opener.isList <;> simp [State.comma, isList] at steps
  | @complete _ _ _ _ brackets _ _ front started operand denotes =>
      cases brackets with
      | nil => cases steps
      | cons bracket outer =>
          cases isList : bracket.opener.isList with
          | false => simp [State.comma, isList] at steps
          | true =>
              have reduced := front.reduce_all operand denotes
              simp only [State.comma, isList, Bool.not_true, Bool.false_eq_true, if_false,
                Except.ok.injEq, emit_reverse] at steps
              rw [← steps]
              obtain ⟨_, _, _, _, _, read, output, front, item, itemDenotes⟩ := reduced.halves
              rw [read, output]
              -- The bracket is a list, and the comma completes its last item so far.
              cases front with
              | group | index => cases isList
              | call front outside listed =>
                  have longer : Listed limit (_ ++ _ ++ [⟨.comma, span⟩]) _ _ :=
                    listed.comma item itemDenotes
                  simpa using Reads.expecting (.call front outside longer) (.inr rfl)
              | array front outside listed =>
                  have longer : Listed limit (_ ++ _ ++ [⟨.comma, span⟩]) _ _ :=
                    listed.comma item itemDenotes
                  simpa using Reads.expecting (.array front outside longer) (.inr rfl)

/-- A list without complete items has not begun. -/
theorem Listed.eq_nil {listed : List Token} {items : List PostfixItem}
    (empty : Listed limit listed items []) : listed = [] ∧ items = [] := by
  generalize none : ([] : List Expr) = exprs at empty
  cases empty with
  | none => exact ⟨rfl, rfl⟩
  | comma => simp at none

/-- Only the innermost bracket can be closed, and only in its own shape. -/
theorem closeBracket_ok {output : List PostfixItem} {waiting : List Waiting}
    {bracket : OpenBracket} {outer : List OpenBracket} {expects : Bool} {closing : Bracket}
    (closes : State.closeBracket ⟨output, waiting, bracket :: outer, expects⟩ closing span =
      .ok next) :
    bracket.opener.bracket = closing ∧ ∃ added,
      State.closedItems ⟨output, waiting, bracket :: outer, expects⟩ bracket span = .ok added ∧
        next = ⟨added ++ State.emit waiting output, bracket.outside, outer, false⟩ := by
  simp only [State.closeBracket] at closes
  by_cases shape : bracket.opener.bracket = closing
  · rw [if_neg (by simpa using shape)] at closes
    obtain ⟨added, closed, same⟩ := bind_eq_ok_iff.mp closes
    cases same
    exact ⟨shape, added, closed, rfl⟩
  · rw [if_pos shape] at closes
    cases closes

/-- A bracket closed behind an operand becomes the end of a longer operand. -/
theorem Reads.closeComplete {closing : Bracket} {operand : List Token}
    {items operandItems : List PostfixItem} {brackets : List OpenBracket} {waiting : List Waiting}
    {expr : Expr} (front : Front limit tokens items brackets waiting)
    (postfixed : Postfixed operand expr) (denotes : Denotes limit operandItems expr)
    (closes : State.closeBracket ⟨(items ++ operandItems).reverse, waiting, brackets, false⟩ closing
      span = .ok next) :
    Reads limit (tokens ++ operand ++ [⟨.closing closing, span⟩]) next := by
  cases brackets with
  | nil => cases closes
  | cons bracket outer =>
      obtain ⟨rfl, added, closed, rfl⟩ := closeBracket_ok closes
      obtain ⟨_, _, _, _, _, read, output, inside, chain, denotes⟩ :=
        (front.reduce_all postfixed denotes).halves
      -- What the bracket is decides which operand it becomes the end of.
      rw [read, emit_reverse, output]
      cases inside with
      | group front started =>
          obtain rfl : [] = added := Except.ok.inj closed
          simpa [Opener.bracket] using
            Reads.complete front started (.primary (.group chain)) denotes
      | index front started object objectDenotes =>
          obtain rfl : [.index span] = added := Except.ok.inj closed
          simpa [Opener.bracket] using
            Reads.complete front started (.index object chain)
              (objectDenotes.member span denotes)
      | @call _ _ _ _ _ _ name opener opening exprs _ front started listed =>
          obtain rfl : [.call name (exprs.length + 1) (opener.merge span)] = added :=
            Except.ok.inj closed
          have arguments := Items.some (listed.separated (.last chain))
          have whole : Primary (⟨.method name, opener⟩ :: ⟨.opening .round, opening⟩ :: _ ++
              [⟨.closing .round, span⟩]) _ := .call arguments
          have all := (listed.denotesAll.concat denotes).call name (opener.merge span)
          simpa [Opener.bracket] using Reads.complete front started (.primary whole) all
      | @array _ _ _ _ _ _ opener exprs _ front started listed =>
          obtain rfl : [.array (exprs.length + 1) (opener.merge span)] = added :=
            Except.ok.inj closed
          have members := Items.some (listed.separated (.last chain))
          have all := (listed.denotesAll.concat denotes).array (opener.merge span)
          simpa [Opener.bracket] using
            Reads.complete front started (.primary (.array members)) all

/-- Only a list can be closed where an operand is expected, and only when nothing stands in it. -/
theorem closedItems_expecting {output : List PostfixItem} {brackets : List OpenBracket}
    {waiting : List Waiting} {bracket : OpenBracket} {items : List PostfixItem}
    (closed : State.closedItems ⟨output, waiting, brackets, true⟩ bracket span = .ok items) :
    bracket.hasArgument = false ∧ bracket.commas = 0 ∧
      (bracket.opener = .array ∧ items = [.array 0 (bracket.span.merge span)] ∨
        ∃ name, bracket.opener = .call name ∧
          items = [.call name 0 (bracket.span.merge span)]) := by
  obtain ⟨opener, at_, outside, commas, hasArgument⟩ := bracket
  cases hasArgument with
  | true => cases opener <;> cases closed
  | false =>
      by_cases none : commas = 0
      · subst none
        cases opener with
        | group | index => cases closed
        | call name => exact ⟨rfl, rfl, .inr ⟨name, rfl, (Except.ok.inj closed).symm⟩⟩
        | array => exact ⟨rfl, rfl, .inl ⟨rfl, (Except.ok.inj closed).symm⟩⟩
      · cases opener <;>
          simp [State.closedItems, State.itemCount, none, bind, Except.bind] at closed

/-- A bracket closed with nothing in it is an operand. -/
theorem Reads.closeEmpty {closing : Bracket} {items : List PostfixItem}
    {brackets : List OpenBracket} {waiting : List Waiting}
    (front : Front limit tokens items brackets waiting) (idle : Started brackets ∨ waiting = [])
    (closes : State.closeBracket ⟨items.reverse, waiting, brackets, true⟩ closing span =
      .ok next) :
    Reads limit (tokens ++ [⟨.closing closing, span⟩]) next := by
  cases brackets with
  | nil => cases closes
  | cons bracket outer =>
      obtain ⟨rfl, added, closed, rfl⟩ := closeBracket_ok closes
      obtain ⟨unmarked, none, kind⟩ := closedItems_expecting closed
      -- Nothing waits inside, because nothing has started there.
      obtain rfl : waiting = [] := idle.resolve_left (by simp [unmarked])
      cases front with
      | group | index => simp at kind
      | @call _ _ _ _ _ _ name opener opening exprs _ front started listed =>
          obtain rfl := List.eq_nil_of_length_eq_zero none
          obtain ⟨rfl, rfl⟩ := listed.eq_nil
          obtain rfl : added = [.call name 0 (opener.merge span)] := by simpa using kind
          have whole : Primary (⟨.method name, opener⟩ :: ⟨.opening .round, opening⟩ :: [] ++
              [⟨.closing .round, span⟩]) _ := .call .none
          have all : Denotes limit _ _ := denotesAll_nil.call name (opener.merge span)
          simpa [State.emit, Opener.bracket] using
            Reads.complete front started (.primary whole) all
      | @array _ _ _ _ _ _ opener exprs _ front started listed =>
          obtain rfl := List.eq_nil_of_length_eq_zero none
          obtain ⟨rfl, rfl⟩ := listed.eq_nil
          obtain rfl : added = [.array 0 (opener.merge span)] := by simpa using kind
          have all : Denotes limit _ _ := denotesAll_nil.array (opener.merge span)
          simpa [State.emit, Opener.bracket] using
            Reads.complete front started (.primary (.array .none)) all

/-- A closing bracket. -/
theorem Reads.close {closing : Bracket} (reads : Reads limit tokens state)
    (steps : state.closeBracket closing span = .ok next) :
    Reads limit (tokens ++ [⟨.closing closing, span⟩]) next := by
  cases reads with
  | expecting front idle => exact closeEmpty front idle steps
  | complete front _ postfixed denotes => exact closeComplete front postfixed denotes steps

/-! ### Runs -/

/-- A token that can be read does not stop a run. -/
theorem run_step {rest : List Token} (steps : state.step token = .ok next) :
    state.run (token :: rest) = next.run rest := by
  obtain ⟨kind, span⟩ := token
  cases kind with
  | method name =>
      obtain ⟨begun, -, fails⟩ := bind_eq_ok_iff.mp steps
      cases fails
  | _ =>
      rw [State.run, steps]
      intro name _ _ _ isMethod
      cases isMethod

/-- What holds of the tokens read and of the state they lead to, holds behind every run that goes
on from there, if every token keeps it, and so does a method's name with its parenthesis. -/
theorem run_keeps {motive : List Token → State → Prop} {others : List Token} (tokens : List Token)
    (step : ∀ {read state token next}, motive read state → State.step state token = .ok next →
      motive (read ++ [token]) next)
    (call : ∀ {read state name span next} opening, motive read state →
      State.callStep state ⟨.method name, span⟩ name = .ok next →
      motive (read ++ [⟨.method name, span⟩, ⟨.opening .round, opening⟩]) next)
    (here : motive tokens state) (runs : state.run others = .ok next) :
    motive (tokens ++ others) next := by
  -- A method takes two tokens in one step, so the induction follows the run.
  induction state, others using State.run.induct generalizing tokens with
  | case1 state =>
      cases runs
      simpa using here
  | case2 state name span opening rest after called ih =>
      rw [State.run, called] at runs
      simpa using ih _ (call opening here called) runs
  | case3 state name span opening rest fault fails =>
      rw [State.run, fails] at runs
      cases runs
  | case4 state token rest notCall after steps ih =>
      rw [run_step steps] at runs
      simpa using ih _ (step here steps) runs
  | case5 state token rest notCall fault fails =>
      rw [State.run, fails] at runs
      · cases runs
      · exact notCall

/-- Every token that stands for itself continues the explanation. -/
theorem Reads.step (reads : Reads limit tokens state) (steps : state.step token = .ok next) :
    Reads limit (tokens ++ [token]) next := by
  obtain ⟨kind, span⟩ := token
  cases kind with
  | number value => exact reads.operand steps (.number value span) rfl
  | text value => exact reads.operand steps (.text value span) rfl
  | boolean value => exact reads.operand steps (.boolean value span) rfl
  | identifier path => exact reads.operand steps (.variable path span) rfl
  | method name =>
      obtain ⟨begun, -, fails⟩ := bind_eq_ok_iff.mp steps
      cases fails
  | property name => exact reads.property steps
  | operator operator => exact reads.binary steps
  | unary operator => exact reads.unary steps
  | opening bracket =>
      cases bracket with
      | round => exact reads.group steps
      | square => exact reads.openSquare steps
  | closing bracket => exact reads.close steps
  | comma => exact reads.comma steps

/-- So does every list of tokens. -/
theorem Reads.run {others : List Token} (reads : Reads limit tokens state)
    (runs : state.run others = .ok next) : Reads limit (tokens ++ others) next :=
  run_keeps tokens Reads.step Reads.call reads runs

/-- Tokens that may end where they do are an expression, and the items denote it. -/
theorem Reads.finish {last : Span} {items : List PostfixItem} (reads : Reads limit tokens state)
    (finishes : state.finish last = .ok items) :
    ∃ expr, Chain 0 tokens expr ∧ Denotes limit items expr := by
  cases reads with
  | expecting => cases finishes
  | @complete _ _ _ _ brackets _ _ front _ postfixed denotes =>
      cases brackets with
      | cons => cases finishes
      | nil =>
          obtain ⟨_, _, _, _, expr, read, output, before, chain, denotes⟩ :=
            (front.reduce_all postfixed denotes).halves
          cases before
          simp only [State.finish, Bool.false_eq_true, if_false, Except.ok.injEq, emit_reverse,
            output, List.reverse_reverse] at finishes
          rw [read, ← finishes]
          exact ⟨expr, chain, denotes⟩

end TextTemplate.Expr.Parser
