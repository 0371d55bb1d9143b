import TextTemplate.Expr.Parser
import TextTemplate.Node.Basic
import TextTemplate.Outline

/-! # Reading templates

The outline of the pieces becomes a list of nodes, one item after the other, and the inside of each
block is read in the same way with room for one block less. The first fault in this order is the
one that is reported: of a block first its opener, then the tags inside it, then its closer, and
only then what it consists of. -/

namespace TextTemplate

namespace Node.Parser

/-- The node of the pieces inside a block is read by the function that reading an item is given. -/
abbrev ReadBody := List Piece → Except Fault (List Node)

/-- A located cause as a fault of a source. -/
def locate {α : Type} (source : Source) : Except (Located Cause) α → Except Fault α
  | .ok value => .ok value
  | .error cause => .error ⟨cause.item, cause.span source⟩

/-- The expression in a part of a tag that starts at an offset. -/
def expression (source : Source) (limits : Limits) (tag : Tag) (text : List Char) (start : Nat) :
    Except Fault Expr := do
  let tokens ← Token.lex source text start (start + byteLength text)
  Expr.ofTokens limits (source.tagSpan tag) tokens

/-- A cause at a tag, unless a condition holds. -/
def require (source : Source) (condition : Bool) (tag : Tag) (cause : Cause) : Except Fault Unit :=
  if condition then .ok () else .error ⟨cause, source.tagSpan tag⟩

/-! ### Pieces outside of blocks -/

/-- What is wrong with a statement that opens no block. -/
def statementCause (statement : Statement) : Cause :=
  match statement.keyword? with
  | some keyword => .orphan (String.ofList statement.word) keyword.block
  | none =>
      if statement.word.isEmpty then .emptyStatement
      else .unknownStatement (String.ofList statement.word)

/-- The node of a piece that belongs to no block. -/
def readPiece (source : Source) (limits : Limits) : Piece → Except Fault Node
  | .text content start =>
      .ok (.text (String.ofList content) (source.span start (start + byteLength content)))
  | .unclosed kind start => locate source (.error (kind.unclosedFault start))
  | .tag tag =>
      match tag.kind with
      | .interpolation => do
          let expr ← expression source limits tag tag.inner tag.innerStart
          return .interpolation expr (source.tagSpan tag)
      | .comment => .ok (.comment (String.ofList tag.inner) (source.tagSpan tag))
      | .statement => .error ⟨statementCause tag.statement, source.tagSpan tag⟩

/-! ### Blocks -/

/-- The inside of a block whose closer has nothing after its word. -/
def closedInside (source : Source) (kind : BlockKind) (inside : Except (Located Cause) Inside) :
    Except Fault Inside := do
  let inside ← locate source inside
  require source inside.closer.statement.arguments.isEmpty inside.closer
    (.trailingText kind.closingWord)
  return inside

/-- The node of a loop. -/
def readLoop (source : Source) (limits : Limits) (readBody : ReadBody) (opener : Tag)
    (inside : Except (Located Cause) Inside) : Except Fault Node := do
  let header ← locate source
    ((LoopHeader.ofStatement opener.statement opener.inner).mapError opener.fault)
  let inside ← closedInside source .loop inside
  let entries ← expression source limits opener header.source header.start
  let body ← readBody inside.pieces
  return .loop header.item header.index entries body (source.span opener.start inside.closer.stop)

/-- Checks the order of the tags that start branches, and what each of them says. `hasElse` tells
whether the last branch has come. -/
def checkBranches (source : Source) (hasElse : Bool) : List Branch → Except Fault Unit
  | [] => .ok ()
  | branch :: rest => do
      let isEmpty := branch.tag.statement.arguments.isEmpty
      if branch.tag.keyword? = some .elseIf then
        require source (!hasElse) branch.tag .branchAfterElse
        require source (!isEmpty) branch.tag (.conditionRequired "elif")
        checkBranches source hasElse rest
      else
        require source (!hasElse) branch.tag .duplicateElse
        require source isEmpty branch.tag (.trailingText "else")
        checkBranches source true rest

/-- The condition in a tag and the nodes of the body after it. -/
def readBranch (source : Source) (limits : Limits) (readBody : ReadBody) (branch : Branch) :
    Except Fault (Expr × List Node) := do
  -- A fault in the body is reported before one in the condition, though it stands behind it.
  let body ← readBody branch.pieces
  let statement := branch.tag.statement
  let condition ← expression source limits branch.tag statement.arguments statement.start
  return (condition, body)

/-- The conditional branches, and the last branch if there is one. -/
def readBranches (source : Source) (limits : Limits) (readBody : ReadBody) :
    List Branch → Except Fault (List (Expr × List Node) × Option (List Node))
  | [] => .ok ([], none)
  | branch :: rest => do
      if branch.tag.keyword? = some .otherwise then
        -- The order of the branches has been checked, so none follows.
        return ([], some (← readBody branch.pieces))
      else
        let first ← readBranch source limits readBody branch
        let (branches, otherwise) ← readBranches source limits readBody rest
        return (first :: branches, otherwise)

/-- The node of a choice. -/
def readChoice (source : Source) (limits : Limits) (readBody : ReadBody) (opener : Tag)
    (inside : Except (Located Cause) Inside) : Except Fault Node := do
  require source (!opener.statement.arguments.isEmpty) opener (.conditionRequired "if")
  let inside ← closedInside source .choice inside
  let (pieces, branches) := Branch.divide [] inside.pieces
  checkBranches source false branches
  -- The opener is the tag of the first branch.
  let (branches, otherwise) ← readBranches source limits readBody (⟨opener, pieces⟩ :: branches)
  return .choice branches otherwise (source.span opener.start inside.closer.stop)

/-- The node of an item of the outline. There is no function for the inside of blocks when no more
blocks may lie inside each other. -/
def readItem (source : Source) (limits : Limits) (readBody? : Option ReadBody) :
    OutlineItem → Except Fault Node
  | .piece piece => readPiece source limits piece
  | .block block inside =>
      match readBody? with
      | none => .error ⟨.blocksTooDeep limits.maxBlockDepth, source.tagSpan block.opener⟩
      | some readBody =>
          match block.kind with
          | .loop => readLoop source limits readBody block.opener inside
          | .choice => readChoice source limits readBody block.opener inside

/-- The nodes of pieces in which at most `room` blocks may lie inside each other. -/
def read (source : Source) (limits : Limits) : Nat → List Piece → Except Fault (List Node)
  | 0, pieces =>
      (OutlineItem.outline limits.maxBlockDepth 0 pieces).mapM (readItem source limits none)
  | room + 1, pieces =>
      (OutlineItem.outline limits.maxBlockDepth (room + 1) pieces).mapM
        (readItem source limits (some (read source limits room)))

end Node.Parser

/-- The nodes of a whole source. -/
def Source.nodes (source : Source) (limits : Limits) : Except Fault (List Node) :=
  Node.Parser.read source limits limits.maxBlockDepth source.pieces

end TextTemplate
