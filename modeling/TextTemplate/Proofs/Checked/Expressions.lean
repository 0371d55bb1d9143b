import TextTemplate.Proofs.Checked.Lexer
import TextTemplate.Proofs.Checked.Tags

/-! # Reading expressions by indices

Tokens are read from a table by their index. A square bracket is an index into the operand before it
when the token before it ends an operand, which is looked up by its index, too. The operands of an
item are split off the end of a table. Every index is in range. -/

namespace TextTemplate

namespace Expr.Parser.State

variable {state next : State} {token : Token} {span : Span}

/-! ### What is expected -/

/-- An operand may start only where one is expected, and its start does not change that. -/
theorem expectsOperand_begin (begun : state.beginOperand token = .ok next) :
    state.expectsOperand = true ∧ next.expectsOperand = true := by
  rw [beginOperand] at begun
  split at begun
  next expects =>
    cases begun
    refine ⟨expects, ?_⟩
    rw [markArgument]
    split <;> exact expects
  next => cases begun

/-- Behind a complete operand none is expected. -/
theorem expectsOperand_operand {expr : Expr} (isOperand : state.operand token expr = .ok next) :
    next.expectsOperand = false := by
  obtain ⟨begun, -, same⟩ := bind_eq_ok_iff.mp isOperand
  cases same
  rfl

/-- Behind a dotted suffix none is either, as there was none in front of it. -/
theorem expectsOperand_property {name : String} (isProperty : state.property token name = .ok next) :
    next.expectsOperand = false := by
  rw [property] at isProperty
  split at isProperty
  next => cases isProperty
  next complete =>
    cases isProperty
    exact Bool.eq_false_iff.mpr complete

/-- Behind an operator its right operand is expected. -/
theorem expectsOperand_binary {operator : BinaryOperator}
    (isBinary : state.binary span operator = .ok next) : next.expectsOperand = true := by
  rw [binary] at isBinary
  split at isBinary
  next => cases isBinary
  next => cases isBinary; rfl

/-- Inside a bracket that begins an operand one is expected. -/
theorem expectsOperand_opens {opener : Opener}
    (opens : (do return (← state.beginOperand token).openBracket opener span) = .ok next) :
    next.expectsOperand = true := by
  obtain ⟨begun, -, same⟩ := bind_eq_ok_iff.mp opens
  cases same
  rfl

/-- Inside square brackets one is expected, whether they are an array or an index. -/
theorem expectsOperand_openSquare (opens : state.openSquare token = .ok next) :
    next.expectsOperand = true := by
  rw [openSquare] at opens
  split at opens
  next => exact expectsOperand_opens opens
  next => cases opens; rfl

/-- Behind a closed bracket none is expected. -/
theorem expectsOperand_closeBracket {bracket : Bracket}
    (closes : state.closeBracket bracket span = .ok next) : next.expectsOperand = false := by
  obtain ⟨output, waiting, brackets, expects⟩ := state
  cases brackets with
  | nil => cases closes
  | cons innermost outer =>
      obtain ⟨-, added, -, rfl⟩ := closeBracket_ok closes
      rfl

/-- Behind a comma the next item is expected. -/
theorem expectsOperand_comma (isComma : state.comma span = .ok next) :
    next.expectsOperand = true := by
  rw [comma] at isComma
  repeat' split at isComma
  all_goals cases isComma
  rfl

/-- A token that ends an operand leaves an operator to be expected, any other one an operand. -/
theorem expectsOperand_step (stepped : state.step token = .ok next) :
    next.expectsOperand = !token.kind.endsValue := by
  obtain ⟨kind, span⟩ := token
  cases kind with
  | number | text | boolean | identifier => exact expectsOperand_operand stepped
  | method name =>
      obtain ⟨_, -, never⟩ := bind_eq_ok_iff.mp stepped
      cases never
  | property name => exact expectsOperand_property stepped
  | operator operator => exact expectsOperand_binary stepped
  | unary operator =>
      obtain ⟨begun, isBegun, same⟩ := bind_eq_ok_iff.mp stepped
      cases same
      exact (expectsOperand_begin isBegun).2
  | opening bracket =>
      cases bracket with
      | round => exact expectsOperand_opens stepped
      | square => exact expectsOperand_openSquare stepped
  | closing bracket => exact expectsOperand_closeBracket stepped
  | comma => exact expectsOperand_comma stepped

end Expr.Parser.State

namespace Checked

open Expr.Parser PostfixItem

variable (overflow : Overflow) (source : Source)

/-- An outcome whose fault is reported. -/
def report {α : Type} (outcome : Except Fault α) : Reading α :=
  match outcome with
  | .ok value => pure value
  | .error fault => fail source fault

/-! ### Tokens by index -/

section Tokens

variable (tokens : List Token)

/-- Whether an operand ends directly before an index. -/
def followsValue (index : Nat) : Option Bool :=
  if 0 < index then do
    let token ← tokens[← minus? index 1]?
    return token.kind.endsValue
  else return false

/-- Opens a square bracket, whose meaning depends on what it follows. -/
def openSquare (state : State) (token : Token) (follows : Bool) : Except Fault State :=
  if follows then .ok (state.openBracket .index token.span)
  else do return (← state.beginOperand token).openBracket .array token.span

/-- Reads the token at an index; with it, how many more tokens have been read. -/
def parseStep (state : State) (index : Nat) : Reading (State × Nat) := do
  let token ← (tokens[index]? : Option Token)
  let follows ← followsValue tokens index
  match token.kind with
  | .method name =>
      let state ← report source (state.beginOperand token)
      if tokens[index + 1]?.map (·.kind) = some (.opening .round) then
        return (state.openBracket (.call name) token.span, 1)
      else fail source ⟨.expectedCall name, token.span⟩
  | .opening .square => return (← report source (openSquare state token follows), 0)
  | _ => return (← report source (state.step token), 0)

/-- Reads the tokens from an index on. -/
def parseFrom (state : State) (index : Nat) : Reading State :=
  if _within : index < tokens.length then do
    let (state, more) ← parseStep source tokens state index
    parseFrom state (index + 1 + more)
  else return state
termination_by tokens.length - index

end Tokens

/-! ### Operands by index -/

/-- A table divided at an index. -/
def splitOff? (operands : List Operand) (index : Nat) : Option (List Operand × List Operand) :=
  if index ≤ operands.length then some (operands.take index, operands.drop index) else none

/-- Splits off the last operands; a fault if there are not enough. -/
def popLast (operands : List Operand) (count : Nat) (cause : Cause) (span : Span) :
    Reading (List Operand × List Operand) :=
  if operands.length < count then fail source ⟨cause, span⟩
  else do
    let index ← minus? operands.length count
    splitOff? operands index

/-- Puts a composite expression behind the others, if it is not too deep. -/
def pushLast (limit : Nat) (operands : List Operand) (expr : Expr) (depth : Nat) :
    Reading (List Operand) :=
  if limit < depth then fail source ⟨.expressionTooDeep limit, expr.span⟩
  else return operands ++ [⟨expr, depth⟩]

/-- What an item makes of the finished operands, the last one last. -/
def applyItem (limit : Nat) (item : PostfixItem) (operands : List Operand) :
    Reading (List Operand) :=
  match item with
  | .operand expr => return operands ++ [⟨expr, 1⟩]
  | .binary operator span => do
      let (operands, last) ← popLast source operands 2 .missingOperand span
      match last with
      | [left, right] =>
          pushLast source limit operands
            (.binary operator left.expr right.expr (left.expr.span.merge right.expr.span))
            (max left.depth right.depth + 1)
      | _ => fail source ⟨.invalidExpression, span⟩
  | .unary operator span => do
      let (operands, last) ← popLast source operands 1 .missingOperand span
      match last with
      | [right] =>
          pushLast source limit operands
            (.unary operator right.expr (span.merge right.expr.span)) (right.depth + 1)
      | _ => fail source ⟨.invalidExpression, span⟩
  | .call name count span => do
      let (operands, arguments) ← popLast source operands count .missingArgument span
      pushLast source limit operands (.call name (arguments.map (·.expr)) span)
        (maxOperandDepth arguments + 1)
  | .array count span => do
      let (operands, items) ← popLast source operands count .missingArgument span
      pushLast source limit operands (.array (items.map (·.expr)) span) (maxOperandDepth items + 1)
  | .index stop => do
      let (operands, last) ← popLast source operands 2 .missingOperand stop
      match last with
      | [object, key] =>
          pushLast source limit operands
            (.member object.expr key.expr (object.expr.span.merge stop))
            (max object.depth key.depth + 1)
      | _ => fail source ⟨.invalidExpression, stop⟩

/-- What a list of items makes of the finished operands. -/
def applyItems (limit : Nat) : List PostfixItem → List Operand → Reading (List Operand)
  | [], operands => return operands
  | item :: rest, operands => do applyItems limit rest (← applyItem source limit item operands)

/-- The only operand that is left. -/
def onlyOperand (extent : Span) (operands : List Operand) : Reading Expr :=
  match operands.length with
  | 0 => fail source ⟨.expectedExpression, extent⟩
  | 1 =>
      match operands.getLast? with
      | some only => return only.expr
      | none => fail source ⟨.invalidExpression, extent⟩
  | _ => do
      let second ← (operands[1]? : Option Operand)
      fail source ⟨.invalidExpression, second.expr.span⟩

/-- The expression that tokens spell. -/
def parse (limits : Limits) (extent : Span) (tokens : List Token) : Reading Expr :=
  match tokens.getLast? with
  | none => fail source ⟨.expectedExpression, extent⟩
  | some last => do
      let state ← parseFrom source tokens .initial 0
      let items ← report source (state.finish last.span)
      let operands ← applyItems source limits.maxExpressionDepth items []
      onlyOperand source extent operands

/-- The expression in a tag between two offsets. -/
def expression (limits : Limits) (tag : TagRange) (start stop : Nat) : Reading Expr := do
  let extent ← span overflow source tag.start tag.stop
  let tokens ← lex overflow source start stop
  parse source limits extent tokens

/-! ### Reading tokens -/

section Reading

variable {source} {tokens rest : List Token} {state : State}

@[simp] theorem report_eq {α : Type} (outcome : Except Fault α) :
    report source outcome = found source outcome := by
  cases outcome with
  | ok => rfl
  | error => exact fail_eq _

/-- What stands before an index is looked up in the table. -/
theorem followsValue_eq (before rest : List Token) :
    followsValue (before ++ rest) before.length =
      some (before.getLast?.any (·.kind.endsValue)) := by
  induction before using List.reverseRecOn with
  | nil => rfl
  | append_singleton before last =>
      simp [followsValue, minus?]

/-- A method's name is read together with its parenthesis. -/
theorem parseStep_call (before : List Token) (name : String) (span bracket : Span) :
    parseStep source (before ++ ⟨.method name, span⟩ :: ⟨.opening .round, bracket⟩ :: rest) state
        before.length =
      found source ((state.callStep ⟨.method name, span⟩ name).map fun next => (next, 1)) := by
  have isFirst :
      (before ++ ⟨.method name, span⟩ :: ⟨.opening .round, bracket⟩ :: rest)[before.length]? =
        some ⟨.method name, span⟩ := by simp
  have isSecond : (before ++ ⟨.method name, span⟩ :: ⟨.opening .round, bracket⟩ ::
      rest)[before.length + 1]? = some ⟨.opening .round, bracket⟩ := by
    rw [List.getElem?_append_right (Nat.le_succ _)]
    simp
  simp only [parseStep, isFirst, isSecond, followsValue_eq, lift_some, pure_bind, report_eq,
    Option.map_some, if_true, State.callStep]
  cases state.beginOperand ⟨.method name, span⟩ <;> rfl

/-- Any other token is read alone. -/
theorem parseStep_other (before : List Token) (token : Token)
    (expects : state.expectsOperand = !before.getLast?.any (·.kind.endsValue))
    (noCall : ∀ name span bracket others, token = ⟨.method name, span⟩ →
      rest = ⟨.opening .round, bracket⟩ :: others → False) :
    parseStep source (before ++ token :: rest) state before.length =
      found source ((state.step token).map fun next => (next, 0)) := by
  have isFirst : (before ++ token :: rest)[before.length]? = some token := by simp
  have isSecond : (before ++ token :: rest)[before.length + 1]? = rest.head? := by
    rw [List.getElem?_append_right (Nat.le_succ _)]
    simp [List.head?_eq_getElem?]
  have plain : (report source (state.step token) >>= fun next => pure (next, 0)) =
      found source ((state.step token).map fun next => (next, 0)) := by
    rw [report_eq]
    cases state.step token <;> rfl
  rw [← plain]
  simp only [parseStep, isFirst, isSecond, followsValue_eq, lift_some, pure_bind]
  match isKind : token.kind with
  | .method name =>
      -- A name without its parenthesis is refused, wherever it stands.
      have noBracket : rest.head?.map (·.kind) ≠ some (.opening .round) := by
        intro isBracket
        obtain ⟨⟨kind, bracket⟩, isHead, rfl⟩ := Option.map_eq_some_iff.mp isBracket
        obtain ⟨others, isRest⟩ := List.head?_eq_some_iff.mp isHead
        exact noCall name token.span bracket others (by rw [← isKind]) isRest
      simp only [if_neg noBracket, State.step, isKind, report_eq, fail_eq]
      cases state.beginOperand token <;> rfl
  | .opening .square =>
      -- The token before the bracket says the same as the state does.
      have same : openSquare state token (before.getLast?.any (·.kind.endsValue)) =
          state.openSquare token := by
        rw [openSquare, State.openSquare, expects]
        cases before.getLast?.any (·.kind.endsValue) <;> rfl
      simp only [same, State.step, isKind]
  | .number _ | .text _ | .boolean _ | .identifier _ | .property _ | .operator _ | .unary _
  | .opening .round | .closing _ | .comma => rfl

/-- Reading tokens by index is reading the tokens. -/
theorem parseFrom_eq (before : List Token)
    (expects : state.expectsOperand = !before.getLast?.any (·.kind.endsValue)) :
    parseFrom source (before ++ rest) state before.length = found source (state.run rest) := by
  -- The cases are those of the run: a method's name with its parenthesis, and any other token.
  fun_induction State.run state rest generalizing before with
  | case1 state =>
      rw [List.append_nil, parseFrom, dif_neg (Nat.lt_irrefl _)]
      rfl
  | case2 state name span bracket rest next called ih =>
      have within : before.length <
          (before ++ ⟨.method name, span⟩ :: ⟨.opening .round, bracket⟩ :: rest).length := by simp
      have behind := ih (before ++ [⟨.method name, span⟩, ⟨.opening .round, bracket⟩]) (by
        obtain ⟨begun, -, same⟩ := bind_eq_ok_iff.mp called
        cases same
        simp [State.openBracket, TokenKind.endsValue])
      rw [List.append_assoc, List.length_append] at behind
      rw [parseFrom, dif_pos within, parseStep_call, called]
      exact behind
  | case3 state name span bracket rest fault called =>
      have within : before.length <
          (before ++ ⟨.method name, span⟩ :: ⟨.opening .round, bracket⟩ :: rest).length := by simp
      rw [parseFrom, dif_pos within, parseStep_call, called]
      rfl
  | case4 state token rest noCall next stepped ih =>
      have within : before.length < (before ++ token :: rest).length := by simp
      have behind := ih (before ++ [token]) (by simp [State.expectsOperand_step stepped])
      rw [List.append_assoc, List.length_append] at behind
      rw [parseFrom, dif_pos within, parseStep_other before token expects noCall, stepped]
      exact behind
  | case5 state token rest noCall fault stepped =>
      have within : before.length < (before ++ token :: rest).length := by simp
      rw [parseFrom, dif_pos within, parseStep_other before token expects noCall, stepped]
      rfl

end Reading

/-! ### Applying items -/

section Items

variable {source} {limit : Nat} {stack : List Operand}

/-- The last operands of a table are the first ones of a stack. -/
theorem popLast_eq {count : Nat} (enough : count ≤ stack.length) (cause : Cause) (span : Span) :
    popLast source stack.reverse count cause span =
      pure ((stack.drop count).reverse, (stack.take count).reverse) := by
  have isIndex : minus? stack.length count = some (stack.length - count) := if_pos enough
  have isSplit : splitOff? stack.reverse (stack.length - count) =
      some ((stack.drop count).reverse, (stack.take count).reverse) := by
    rw [splitOff?, if_pos (by rw [List.length_reverse]; omega), List.take_reverse,
      List.drop_reverse, Nat.sub_sub_self enough]
  rw [popLast, List.length_reverse, if_neg (Nat.not_lt.mpr enough)]
  simp only [isIndex, isSplit, lift_some, pure_bind]

/-- Items that are not there cannot be popped, and that is a fault. -/
theorem popLast_short {count : Nat} (short : stack.length < count) (cause : Cause) (span : Span) :
    popLast source stack.reverse count cause span = found source (.error ⟨cause, span⟩) := by
  rw [popLast, List.length_reverse, if_pos short, fail_eq]

/-- The last operands of a table are those that are taken from a stack. -/
theorem popLast_takeList? (count : Nat) (cause : Cause) (span : Span) :
    popLast source stack.reverse count cause span =
      found source ((takeList? count stack).elim (.error ⟨cause, span⟩) fun taken =>
        .ok (taken.2.reverse, taken.1)) := by
  by_cases enough : count ≤ stack.length
  · rw [popLast_eq enough, takeList?, if_pos enough]
    rfl
  · rw [popLast_short (Nat.lt_of_not_le enough), takeList?, if_neg enough]
    rfl

/-- On a stack that grows at its end an operation leaves what it leaves on one that grows at its
front. -/
theorem pushLast_eq (expr : Expr) (depth : Nat) :
    pushLast source limit stack.reverse expr depth =
      found source ((push limit expr depth stack).map List.reverse) := by
  rw [pushLast, push]
  split
  next => exact fail_eq _
  next => simp [Except.map]

/-- An item makes the same of a table of operands as of a stack. -/
theorem applyItem_eq (item : PostfixItem) (stack : List Operand) :
    applyItem source limit item stack.reverse =
      found source ((item.apply limit stack).map List.reverse) := by
  -- The end of the table is the top of the stack: an item splits off as many as it takes from the
  -- stack.
  cases item with
  | operand expr => simp [applyItem, PostfixItem.apply, Except.map]
  | call name count span | array count span =>
      rw [applyItem, PostfixItem.apply, popLast_takeList?]
      cases takeList? count stack with
      | none => rfl
      | some taken => exact pushLast_eq _ _
  | unary operator span =>
      rcases stack with _ | ⟨right, rest⟩
      · rw [applyItem, popLast_short (by decide)]
        rfl
      · rw [applyItem, popLast_eq (by simp)]
        exact pushLast_eq _ _
  | binary operator span =>
      rcases stack with _ | ⟨right, _ | ⟨left, rest⟩⟩
      · rw [applyItem, popLast_short (by decide)]
        rfl
      · rw [applyItem, popLast_short (by simp)]
        rfl
      · rw [applyItem, popLast_eq (by simp)]
        exact pushLast_eq _ _
  | index stop =>
      rcases stack with _ | ⟨key, _ | ⟨object, rest⟩⟩
      · rw [applyItem, popLast_short (by decide)]
        rfl
      · rw [applyItem, popLast_short (by simp)]
        rfl
      · rw [applyItem, popLast_eq (by simp)]
        exact pushLast_eq _ _

/-- So do all items. -/
theorem applyItems_eq (items : List PostfixItem) (stack : List Operand) :
    applyItems source limit items stack.reverse =
      found source ((applyAll limit items stack).map List.reverse) := by
  induction items generalizing stack with
  | nil => rfl
  | cons item rest ih =>
      rw [applyItems, applyItem_eq, applyAll]
      cases item.apply limit stack with
      | error fault => rfl
      | ok next => exact ih next

/-- The only operand is looked for in the table. -/
theorem onlyOperand_eq (extent : Span) (operands : List Operand) :
    onlyOperand source extent operands = found source (match operands with
      | [] => .error ⟨.expectedExpression, extent⟩
      | [only] => .ok only.expr
      | _ :: second :: _ => .error ⟨.invalidExpression, second.expr.span⟩) := by
  rcases operands with _ | ⟨first, _ | ⟨second, rest⟩⟩
  · exact fail_eq _
  · rfl
  · simp [onlyOperand]

end Items

/-! ### Reading expressions -/

variable {overflow source} [overflow.Fits source] {limits : Limits}

/-- Items build the expression that they denote. -/
theorem ofPostfix_eq (limit : Nat) (extent : Span) (items : List PostfixItem) :
    (do onlyOperand source extent (← applyItems source limit items [])) =
      found source (Expr.ofPostfix limit extent items) := by
  have applied : applyItems source limit items [] = _ := applyItems_eq items []
  rw [applied, Expr.ofPostfix]
  cases applyAll limit items [] with
  | error fault => rfl
  | ok operands => exact onlyOperand_eq extent operands.reverse

/-- Where there is a last token, reading ends with it. -/
theorem ofTokens_of_getLast? {extent : Span} {tokens : List Token} {last : Token}
    (isLast : tokens.getLast? = some last) :
    Expr.ofTokens limits extent tokens = (do
      let state ← State.initial.run tokens
      let items ← state.finish last.span
      Expr.ofPostfix limits.maxExpressionDepth extent items) := by
  rw [Expr.ofTokens, PostfixItem.ofTokens, isLast]
  cases State.initial.run tokens with
  | error fault => rfl
  | ok state =>
      simp only [bind, Except.bind]
      cases state.finish last.span <;> rfl

/-- Tokens read by index spell the expression that they spell. -/
theorem parse_eq (extent : Span) (tokens : List Token) :
    parse source limits extent tokens = found source (Expr.ofTokens limits extent tokens) := by
  rw [parse]
  cases isLast : tokens.getLast? with
  | none =>
      rw [List.getLast?_eq_none_iff.mp isLast]
      exact fail_eq _
  | some last =>
      have run : parseFrom source tokens .initial 0 = _ := parseFrom_eq [] rfl
      rw [ofTokens_of_getLast? isLast]
      simp only [run, report_eq]
      exact found_bind fun state _ => found_bind fun items _ => ofPostfix_eq _ extent items

/-- The expression in a part of a tag that is a cut is that of its text. -/
theorem expression_eq {tag : Tag} {text : List Char} {start : Nat}
    (here : cut? source.text start (start + byteLength text) = some text) :
    expression overflow source limits tag.range start (start + byteLength text) =
      found source (Node.Parser.expression source limits tag text start) := by
  rw [expression, Node.Parser.expression, span_eq, lex_eq here]
  simp only [lift_some, pure_bind, parse_eq]
  exact found_bind fun tokens _ => rfl

end Checked

end TextTemplate
