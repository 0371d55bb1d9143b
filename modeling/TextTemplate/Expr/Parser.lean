import TextTemplate.Expr.Postfix
import TextTemplate.Limits
import TextTemplate.Token.Lexer

/-! # Reading expressions

Tokens are brought into postfix order in one pass. Operators wait until the operand on their right
is complete, each as long as the operator after it binds more strongly; brackets keep what is
outside waiting until they are closed. At every point either an operand or an operator is expected,
so a token that cannot stand where it does is reported there. -/

namespace TextTemplate

namespace Expr.Parser

/-! ### State -/

/-- What an open bracket belongs to. -/
inductive Opener where
  /-- Parentheses around an expression. -/
  | group
  /-- The arguments of a method. -/
  | call (name : String)
  /-- The items of an array. -/
  | array
  /-- The key of the operand before. -/
  | index
  deriving DecidableEq

/-- The shape of the bracket. -/
def Opener.bracket : Opener → Bracket
  | .group | .call _ => .round
  | .array | .index => .square

/-- Whether commas can stand inside the bracket. -/
def Opener.isList : Opener → Bool
  | .call _ | .array => true
  | .group | .index => false

/-- An operator whose right operand is not complete yet. -/
inductive Waiting where
  | binary (operator : BinaryOperator) (span : Span)
  | unary (operator : UnaryOperator) (span : Span)
  deriving DecidableEq

/-- The postfix item that the operator becomes. -/
def Waiting.item : Waiting → PostfixItem
  | .binary operator span => .binary operator span
  | .unary operator span => .unary operator span

/-- Whether the operator takes the operand on its right before `incoming` may have it. -/
def Waiting.yieldsTo (incoming : BinaryOperator) : Waiting → Bool
  | .binary operator _ => operator.yieldsTo incoming
  | .unary _ _ => true

/-- An open bracket. -/
structure OpenBracket where
  opener : Opener
  /-- The span of the bracket, or of the method's name. -/
  span : Span
  /-- The operators outside that wait for what the bracket becomes. -/
  outside : List Waiting
  /-- How many commas stand directly inside. -/
  commas : Nat
  /-- Whether something has started since the bracket or the last comma. -/
  hasArgument : Bool

/-- How far the tokens have been read. -/
structure State where
  /-- The items in postfix order, the last one first. -/
  output : List PostfixItem
  /-- The operators that wait inside the innermost open bracket, the last one first. -/
  waiting : List Waiting
  /-- The open brackets, the innermost one first. -/
  brackets : List OpenBracket
  /-- Whether an operand is expected, rather than an operator or the end of one. -/
  expectsOperand : Bool

/-- The state before the first token. -/
def State.initial : State := ⟨[], [], [], true⟩

namespace State

/-! ### Operands -/

/-- Marks that something has started in the innermost bracket. -/
def markArgument (state : State) : State :=
  match state.brackets with
  | bracket :: outer => { state with brackets := { bracket with hasArgument := true } :: outer }
  | [] => state

/-- Checks that an operand may start with a token. -/
def beginOperand (state : State) (token : Token) : Except Fault State :=
  if state.expectsOperand then .ok state.markArgument
  else .error ⟨.unexpectedToken (String.ofList token.kind.display), token.span⟩

/-- A complete operand. -/
def operand (state : State) (token : Token) (expr : Expr) : Except Fault State := do
  let state ← state.beginOperand token
  return { state with output := .operand expr :: state.output, expectsOperand := false }

/-- An operator before its operand. -/
def unary (state : State) (token : Token) (operator : UnaryOperator) : Except Fault State := do
  let state ← state.beginOperand token
  return { state with waiting := .unary operator token.span :: state.waiting }

/-- A dotted suffix: the name as the key of the operand before. -/
def property (state : State) (token : Token) (name : String) : Except Fault State :=
  if state.expectsOperand then
    .error ⟨.unexpectedToken (String.ofList token.kind.display), token.span⟩
  else
    .ok { state with
      output := .index token.span :: .operand (.text name token.span) :: state.output }

/-! ### Operators -/

/-- The items of operators that stop waiting, in front of the output. -/
def emit (stopped : List Waiting) (output : List PostfixItem) : List PostfixItem :=
  (stopped.map Waiting.item).reverse ++ output

/-- An operator between two operands. -/
def binary (state : State) (span : Span) (operator : BinaryOperator) : Except Fault State :=
  if state.expectsOperand then .error ⟨.missingOperandBefore operator.symbol, span⟩
  else
    let stopped := state.waiting.takeWhile (·.yieldsTo operator)
    .ok { state with
      output := emit stopped state.output
      waiting := .binary operator span :: state.waiting.drop stopped.length
      expectsOperand := true }

/-! ### Brackets -/

/-- Opens a bracket. -/
def openBracket (state : State) (opener : Opener) (span : Span) : State :=
  { state with
    waiting := []
    brackets := ⟨opener, span, state.waiting, 0, false⟩ :: state.brackets
    expectsOperand := true }

/-- A square bracket: the key of the operand before, or an array where an operand is expected. -/
def openSquare (state : State) (token : Token) : Except Fault State :=
  if state.expectsOperand then do
    return (← state.beginOperand token).openBracket .array token.span
  else .ok (state.openBracket .index token.span)

/-- A comma between the items of a list. -/
def comma (state : State) (span : Span) : Except Fault State :=
  match state.brackets with
  | bracket :: outer =>
      if !bracket.opener.isList then .error ⟨.unexpectedComma, span⟩
      else if state.expectsOperand then .error ⟨.missingArgumentBeforeComma, span⟩
      else
        .ok { output := emit state.waiting state.output
              waiting := []
              brackets :=
                { bracket with commas := bracket.commas + 1, hasArgument := false } :: outer
              expectsOperand := true }
  | [] => .error ⟨.unexpectedComma, span⟩

/-- How many items a list has that is closed at `span`: none if nothing stands in it, and otherwise
one more than commas. -/
def itemCount (state : State) (bracket : OpenBracket) (span : Span) : Except Fault Nat :=
  let closing := bracket.opener.bracket
  -- An item is complete, or one has only started, or nothing stands behind the last comma.
  if !state.expectsOperand then .ok (bracket.commas + 1)
  else if bracket.hasArgument then
    .error ⟨.missingOperandBefore (String.singleton closing.closing), span⟩
  else if bracket.commas = 0 then .ok 0
  else .error ⟨.emptyArgumentBefore closing, span⟩

/-- The items that a bracket adds when it is closed at `span`. -/
def closedItems (state : State) (bracket : OpenBracket) (span : Span) :
    Except Fault (List PostfixItem) :=
  let whole := bracket.span.merge span
  match bracket.opener with
  -- Parentheses leave no item: they have done their work when they are closed.
  | .group =>
      if !state.expectsOperand then .ok []
      else if bracket.hasArgument then
        .error ⟨.missingOperandBefore (String.singleton Bracket.round.closing), whole⟩
      else .error ⟨.emptyParentheses, whole⟩
  | .call name => do return [.call name (← state.itemCount bracket span) whole]
  | .array => do return [.array (← state.itemCount bracket span) whole]
  | .index => if state.expectsOperand then .error ⟨.missingIndex, whole⟩ else .ok [.index span]

/-- Closes the innermost bracket, which must have the given shape. -/
def closeBracket (state : State) (closing : Bracket) (span : Span) : Except Fault State :=
  match state.brackets with
  | [] => .error ⟨.unmatchedBracket closing, span⟩
  | bracket :: outer =>
      if bracket.opener.bracket ≠ closing then
        .error ⟨.mismatchedBracket closing bracket.span, span⟩
      else do
        let items ← state.closedItems bracket span
        return ⟨items ++ emit state.waiting state.output, bracket.outside, outer, false⟩

/-! ### Tokens -/

/-- Reads a token that stands for itself: any but the name of a method. -/
def step (state : State) (token : Token) : Except Fault State :=
  match token.kind with
  | .number value => state.operand token (.number value token.span)
  | .text value => state.operand token (.text value token.span)
  | .boolean value => state.operand token (.boolean value token.span)
  | .identifier path => state.operand token (.variable path token.span)
  -- Only a name without its parenthesis gets here, and where it stands is looked at first.
  | .method name => do
      let _ ← state.beginOperand token
      .error ⟨.expectedCall name, token.span⟩
  | .property name => state.property token name
  | .operator operator => state.binary token.span operator
  | .unary operator => state.unary token operator
  | .opening .round => do return (← state.beginOperand token).openBracket .group token.span
  | .opening .square => state.openSquare token
  | .closing bracket => state.closeBracket bracket token.span
  | .comma => state.comma token.span

/-- Reads the name of a method and the parenthesis after it. -/
def callStep (state : State) (token : Token) (name : String) : Except Fault State := do
  return (← state.beginOperand token).openBracket (.call name) token.span

/-- Reads tokens; a method's name goes together with its parenthesis. -/
def run (state : State) : List Token → Except Fault State
  | [] => .ok state
  | ⟨.method name, span⟩ :: ⟨.opening .round, _⟩ :: rest =>
      match state.callStep ⟨.method name, span⟩ name with
      | .ok state => run state rest
      | .error fault => .error fault
  | token :: rest =>
      match state.step token with
      | .ok state => run state rest
      | .error fault => .error fault

/-- The items after the last token, which ends at `last`: every bracket must be closed. -/
def finish (state : State) (last : Span) : Except Fault (List PostfixItem) :=
  if state.expectsOperand then .error ⟨.missingOperandAtEnd, last⟩
  else
    match state.brackets with
    | bracket :: _ => .error ⟨.neverClosed bracket.opener.bracket, bracket.span⟩
    | [] => .ok (emit state.waiting state.output).reverse

end State

end Expr.Parser

open Expr.Parser in
/-- The items of an expression in postfix order; `none` when there are no tokens. -/
def PostfixItem.ofTokens (tokens : List Token) : Except Fault (Option (List PostfixItem)) :=
  match tokens.getLast? with
  | none => .ok none
  | some last => do return some (← (← State.initial.run tokens).finish last.span)

/-- The expression that tokens spell. The span of what surrounds the expression is named when there
are no tokens. -/
def Expr.ofTokens (limits : Limits) (extent : Span) (tokens : List Token) : Except Fault Expr := do
  match ← PostfixItem.ofTokens tokens with
  | none => .error ⟨.expectedExpression, extent⟩
  | some items => Expr.ofPostfix limits.maxExpressionDepth extent items

/-- The expression that a whole source spells. -/
def Source.expression (source : Source) (limits : Limits) : Except Fault Expr := do
  Expr.ofTokens limits source.wholeSpan (← source.tokens)

end TextTemplate
