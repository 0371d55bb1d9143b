import TextTemplate.Proofs.Checked.Branches
import TextTemplate.Proofs.Node.Reading
import TextTemplate.Template

/-! # Reading templates by offsets

A range of the text is read tag by tag: the text in front of a tag, then the tag, and of a block all
up to its closer, with the ranges inside read in the same way. What is read are the nodes of the
pieces that cover the range. -/

namespace TextTemplate

namespace Checked

open OutlineItem

variable (overflow : Overflow) (source : Source) (limits : Limits)

/-! ### Ranges -/

/-- The text between two offsets. -/
def textNode (start stop : Nat) : Reading Node := do
  let span ← span overflow source start stop
  let content ← cut? source.text start stop
  return .text (String.ofList content) span

/-- The text between two offsets, if there is any. -/
def textsBetween (start stop : Nat) : Reading (List Node) :=
  if start < stop then do return [← textNode overflow source start stop] else return []

variable {m : Type → Type} [Monad m] [MonadReading m]

section Blocks

variable (readBody : Nat → Nat → m (List Node)) (rounds depth : Nat) (tag : TagRange)
  (statement : StatementRange) (limit : Nat)

/-- The loop that a tag opens, and the offset behind it. -/
def readLoop : m (Node × Nat) := do
  perform (checkDepth overflow source limits (depth + 1) tag)
  let header ← perform (header overflow source tag statement)
  let close ← requireEnd overflow source limits rounds (depth + 1) .loop tag limit
  let entries ← perform (expression overflow source limits tag header.start header.stop)
  let body ← readBody tag.stop close.start
  let span ← perform (span overflow source tag.start close.stop)
  return (.loop header.item header.index entries body span, close.stop)

/-- The choice that a tag opens, and the offset behind it. -/
def readChoice : m (Node × Nat) := do
  perform (checkDepth overflow source limits (depth + 1) tag)
  if statement.isBare then
    perform (failAt overflow source (.conditionRequired "if") tag.start tag.stop)
  else
    let close ← requireEnd overflow source limits rounds (depth + 1) .choice tag limit
    let first : Segment := ⟨some ⟨statement.start, statement.stop, tag⟩, tag.stop⟩
    let (segments, bounds) ←
      collect overflow source limits rounds (depth + 2) false 0 tag.stop close.start
    let (branches, otherwise) ←
      readBranches overflow source limits readBody ((first :: segments).zip bounds)
    let span ← perform (span overflow source tag.start close.stop)
    return (.choice branches otherwise span, close.stop)

/-- The node of a tag, and the offset behind it. -/
def readTag : m (Node × Nat) :=
  match tag.kind with
  | .interpolation => do
      let expr ← perform (expression overflow source limits tag tag.innerStart tag.innerStop)
      let span ← perform (span overflow source tag.start tag.stop)
      return (.interpolation expr span, tag.stop)
  | .comment => do
      let content ← perform (cut? source.text tag.innerStart tag.innerStop)
      let span ← perform (span overflow source tag.start tag.stop)
      return (.comment (String.ofList content) span, tag.stop)
  | .statement => do
      let statement ← perform (Checked.statement source tag : Option StatementRange)
      match statement.keyword? with
      | some (.opens .choice) =>
          readChoice overflow source limits readBody rounds depth tag statement limit
      | some (.opens .loop) =>
          readLoop overflow source limits readBody rounds depth tag statement limit
      | some keyword =>
          perform (failAt overflow source (.orphan (String.ofList statement.word) keyword.block)
            tag.start tag.stop)
      | none =>
          let cause : Cause := if statement.word.isEmpty then .emptyStatement
            else .unknownStatement (String.ofList statement.word)
          perform (failAt overflow source cause tag.start tag.stop)

end Blocks

/-- The nodes between two offsets. Inside of `depth` blocks there are fewer than `rounds` tags and
texts. -/
def readRange : Nat → Nat → Nat → Nat → m (List Node)
  | 0, _, _, _ => perform outOfPlace
  | rounds + 1, depth, start, stop =>
      if start < stop then do
        match ← seek overflow source start stop with
        | none => return [← perform (textNode overflow source start stop)]
        | some tag =>
            let before ← perform (textsBetween overflow source start tag.start)
            let (node, next) ←
              readTag overflow source limits (readRange rounds (depth + 1)) rounds depth tag stop
            let others ← readRange rounds depth next stop
            return before ++ node :: others
      else return []

/-- The template of a source, read by offsets. -/
def compile : m Template := do
  let nodes ← readRange overflow source limits (source.size + 1) 0 0 source.size
  return ⟨source.name, String.ofList source.text, nodes⟩

variable {overflow source limits} {rounds depth room start stop : Nat} {pieces rest : List Piece}

/-! ### Blocks of pieces -/

/-- Between an offset and itself there is no text. -/
theorem textsBetween_self : textsBetween overflow source start start = pure [] := by
  rw [textsBetween, if_neg (Nat.lt_irrefl _)]

variable [overflow.Fits source]

/-- A cut of the text is the node of its piece. -/
theorem textNode_eq {content : List Char}
    (here : cut? source.text start (start + byteLength content) = some content) :
    textNode overflow source start (start + byteLength content) =
      pure (.text (String.ofList content) (source.span start (start + byteLength content))) := by
  rw [textNode, span_eq, here]
  rfl

/-- A text in front of a tag is the node of its piece. -/
theorem textsBetween_eq {content : List Char} (nonempty : content ≠ [])
    (here : cut? source.text start (start + byteLength content) = some content) :
    textsBetween overflow source start (start + byteLength content) =
      pure [.text (String.ofList content) (source.span start (start + byteLength content))] := by
  have positive := Nat.pos_of_ne_zero (mt byteLength_eq_zero_iff.mp nonempty)
  rw [textsBetween, if_pos (Nat.lt_add_of_pos_right positive), textNode_eq here]
  rfl

/-- An inside is closed only if it has been passed over. -/
theorem passed_of_closedInside {kind : BlockKind} {passed : Except (Located Cause) Passed}
    {inside : Inside}
    (closed : Node.Parser.closedInside source kind (passed.map Passed.block) = .ok inside) :
    ∃ value, passed = .ok value ∧ inside = value.block := by
  cases passed with
  | error fault => cases closed
  | ok value => exact ⟨value, rfl, (Node.Parser.closedInside_eq_ok_iff.mp closed).2⟩

/-- The depth of an outermost block is checked as the room for it is. -/
theorem checkDepth_outermost {opener : Tag} (isRoom : depth + room = limits.maxBlockDepth) :
    checkDepth overflow source limits (depth + 1) opener.range =
      found source (if room = 0 then
        .error ⟨.blocksTooDeep limits.maxBlockDepth, source.tagSpan opener⟩ else .ok ()) := by
  have checked : checkDepth overflow source limits (depth + 0 + 1) opener.range = found source
      (if room + 1 < 0 + 2 then _ else _) :=
    checkDepth_eq [] (show depth + (room + 1) = limits.maxBlockDepth + 1 by omega)
  have same : room + 1 < 0 + 2 ↔ room = 0 := by omega
  simp only [same] at checked
  exact checked

section Blocks

variable {readAt : Nat → Nat → Reading (List Node)} {readBody : Node.Parser.ReadBody} {opener : Tag}
  {passed : Except (Located Cause) Passed}

/-- The node of a block, and the offset behind it. -/
def behind (source : Source) (passed : Except (Located Cause) Passed) (node : Except Fault Node) :
    Except Fault (Node × Nat) := do
  return (← node, (← Node.Parser.locate source passed).closer.stop)

/-- The header of a loop that is located has been found. -/
theorem ok_of_locate {α : Type} {outcome : Except Cause α} {located : Cause → Located Cause}
    {value : α} (isValue : Node.Parser.locate source (outcome.mapError located) = .ok value) :
    outcome = .ok value := by
  cases outcome with
  | error cause => cases isValue
  | ok => cases isValue; rfl

/-- Fewer pieces lie inside a block than behind its opener. -/
theorem length_inside_lt {block : OpenBlock} {value : Passed}
    (passes : passOver limits.maxBlockDepth room block [] rest = .ok value)
    (enough : rest.length < rounds) : value.inside.length < rounds := by
  rw [(pieces_of_passOver passes).1, Passed.pieces, List.length_append] at enough
  omega

/-- Fewer pieces stand behind a block than behind its opener. -/
theorem length_rest_lt {block : OpenBlock} {value : Passed}
    (passes : passOver limits.maxBlockDepth room block [] rest = .ok value)
    (enough : rest.length < rounds) : value.rest.length < rounds := by
  rw [(pieces_of_passOver passes).1, Passed.pieces, List.length_append, List.length_cons] at enough
  omega

/-- A loop by offsets is read as its pieces are. -/
theorem readLoop_eq (bodies : ReadsAs overflow source rounds readAt readBody)
    (inner : cut? source.text opener.innerStart opener.innerStop = some opener.inner)
    (arguments : cut? source.text opener.statement.start opener.statement.stop =
      some opener.statement.arguments)
    (covers : Covers overflow source opener.stop stop rest) (enough : rest.length < rounds)
    (isRoom : depth + room = limits.maxBlockDepth) (isSome : room ≠ 0)
    (passes : passOver limits.maxBlockDepth room ⟨.loop, opener⟩ [] rest = passed) :
    readLoop overflow source limits readAt rounds depth opener.range opener.statement.range stop =
      found source (behind source passed
        (Node.Parser.readLoop source limits readBody opener (passed.map Passed.block))) := by
  have close : requireEnd overflow source limits rounds (depth + 1) .loop opener.range stop = _ :=
    requireEnd_eq covers enough
      (show depth + 1 + room = limits.maxBlockDepth + 1 by rw [← isRoom, Nat.add_right_comm])
  rw [readLoop, checkDepth_outermost isRoom, if_neg isSome, header_eq inner arguments, close,
    passes, behind, Node.Parser.readLoop, headerOf]
  simp only [found_ok, pure_bind, bind_assoc]
  -- The header is looked at before the closer is looked for, and the body after both.
  refine found_map_bind fun header isHeader => found_map_bind fun inside closed => ?_
  obtain ⟨value, rfl, rfl⟩ := passed_of_closedInside closed
  have body : readAt opener.stop value.block.closer.start =
      found source (readBody value.block.pieces) :=
    bodies (covers.behind passes).1 (length_inside_lt passes enough)
  have entries : expression overflow source limits opener.range header.start _ = _ :=
    expression_eq (cut?_header arguments (ok_of_locate isHeader))
  simp only [headerRange, Tag.stop_range, Tag.start_range, span_eq, perform_eq, lift_some,
    pure_bind, entries, body]
  exact found_bind fun expr _ => found_bind fun nodes _ => rfl

/-- A choice by offsets is read as its pieces are. -/
theorem readChoice_eq (bodies : ReadsAs overflow source rounds readAt readBody)
    (isKeyword : opener.keyword? = some (.opens .choice))
    (inner : cut? source.text opener.innerStart opener.innerStop = some opener.inner)
    (covers : Covers overflow source opener.stop stop rest) (enough : rest.length < rounds)
    (isRoom : depth + room = limits.maxBlockDepth) (isSome : room ≠ 0)
    (passes : passOver limits.maxBlockDepth room ⟨.choice, opener⟩ [] rest = passed) :
    readChoice overflow source limits readAt rounds depth opener.range opener.statement.range stop =
      found source (behind source passed
        (Node.Parser.readChoice source limits readBody opener (passed.map Passed.block))) := by
  have close : requireEnd overflow source limits rounds (depth + 1) .choice opener.range stop = _ :=
    requireEnd_eq covers enough
      (show depth + 1 + room = limits.maxBlockDepth + 1 by rw [← isRoom, Nat.add_right_comm])
  rw [readChoice, checkDepth_outermost isRoom, if_neg isSome, close, passes, behind,
    Node.Parser.readChoice, found_ok, perform_eq, pure_bind, Statement.isBare_range]
  simp only [bind_assoc]
  refine found_require_not (found_map_bind fun inside closed => ?_)
  obtain ⟨value, rfl, rfl⟩ := passed_of_closedInside closed
  have inside := (covers.behind passes).1
  have fewer := length_inside_lt passes enough
  -- The inside and the closer are pieces of the rest again, as the search for branches wants them.
  have wholly : passOver limits.maxBlockDepth room ⟨.choice, opener⟩ []
      (value.inside ++ .tag value.closer :: value.rest) = .ok value := by
    rw [← passes, (pieces_of_passOver passes).1, Passed.pieces]
  have branches : collect overflow source limits rounds (depth + 2) false 0 opener.stop
      value.closer.start =
      found source (collectedFrom source false value.closer.start
        (Branch.divide [] value.inside).2) :=
    @collect_eq _ _ _ _ _ room _ _ _ [] _ _ ⟨.choice, opener⟩ _ _ inside fewer rfl (by simp)
      (by omega) (by omega) wholly
  simp only [Tag.stop_range, Tag.start_range, Passed.block, branches, collectedFrom, span_eq,
    perform_eq, lift_some, pure_bind]
  refine found_map_bind fun _ checks => ?_
  -- The opener is the tag of the first branch.
  have first : segmentOf ⟨opener, (Branch.divide [] value.inside).1⟩ =
      ⟨some ⟨opener.statement.range.start, opener.statement.range.stop, opener.range⟩,
        opener.stop⟩ := by
    simp [segmentOf, isKeyword, Statement.range]
  rw [(Branch.divide_whole [] value.inside).1] at inside fewer
  have nodes := @readBranches_eq _ _ limits _ _ _ _ readAt readBody
    ⟨opener, (Branch.divide [] value.inside).1⟩ _ bodies inner inside fewer checks
    (by simp [isKeyword])
  rw [first] at nodes
  rw [nodes]
  exact found_bind fun _ _ => rfl

/-- The function that reads the insides of blocks by offsets, if any may be opened. -/
def ReadsInside (overflow : Overflow) (source : Source) (limits : Limits) (rounds room : Nat)
    (readAt : Nat → Nat → Reading (List Node)) : Prop :=
  ∀ readBody ∈ Node.Parser.bodyReader source limits room,
    ReadsAs overflow source rounds readAt readBody

/-- A tag that opens a block is read with all up to the closer of the block. -/
theorem readTag_opens {kind : BlockKind}
    (bodies : ReadsInside overflow source limits rounds room readAt)
    (isKeyword : opener.keyword? = some (.opens kind))
    (inner : cut? source.text opener.innerStart opener.innerStop = some opener.inner)
    (covers : Covers overflow source opener.stop stop rest) (enough : rest.length < rounds)
    (isRoom : depth + room = limits.maxBlockDepth)
    (passes : passOver limits.maxBlockDepth room ⟨kind, opener⟩ [] rest = passed) :
    readTag overflow source limits readAt rounds depth opener.range stop =
      found source (behind source passed (Node.Parser.readItem source limits
        (Node.Parser.bodyReader source limits room)
        (.block ⟨kind, opener⟩ (passed.map Passed.block)))) := by
  obtain ⟨statement, arguments⟩ := statement_eq inner
  obtain ⟨isKind, isStatement⟩ := Tag.kind_of_keyword isKeyword
  simp only [readTag, Tag.kind_range, isKind, statement, perform_eq, lift_some, pure_bind,
    Statement.keyword?_range, isStatement]
  -- Without a level left the block is refused before anything in it is looked at.
  cases room with
  | zero =>
      cases kind with
      | loop =>
          simp only [readLoop, checkDepth_outermost isRoom]
          rfl
      | choice =>
          simp only [readChoice, checkDepth_outermost isRoom]
          rfl
  | succ room =>
      have reads := bodies _ rfl
      cases kind with
      | loop => exact readLoop_eq reads inner arguments covers enough isRoom (by simp) passes
      | choice => exact readChoice_eq reads isKeyword inner covers enough isRoom (by simp) passes

end Blocks

/-- Any other tag is read alone. -/
theorem readTag_plain {tag : Tag} {readAt : Nat → Nat → Reading (List Node)}
    (plain : ∀ kind, tag.keyword? ≠ some (.opens kind))
    (inner : cut? source.text tag.innerStart tag.innerStop = some tag.inner) :
    readTag overflow source limits readAt rounds depth tag.range stop =
      found source ((Node.Parser.readPiece source limits (.tag tag)).map (·, tag.stop)) := by
  cases isKind : tag.kind with
  | interpolation =>
      have expr : expression overflow source limits tag.range tag.innerStart tag.innerStop = _ :=
        expression_eq inner
      simp only [readTag, Tag.kind_range, isKind, Tag.innerStart_range, Tag.innerStop_range, expr,
        Tag.start_range, Tag.stop_range, span_eq, perform_eq, lift_some, pure_bind,
        Node.Parser.readPiece]
      cases Node.Parser.expression source limits tag tag.inner tag.innerStart <;> rfl
  | comment =>
      simp only [readTag, Tag.kind_range, isKind, Tag.innerStart_range, Tag.innerStop_range, inner,
        Tag.start_range, Tag.stop_range, span_eq, perform_eq, lift_some, pure_bind,
        Node.Parser.readPiece]
      rfl
  | statement =>
      -- A statement that opens no block cannot stand alone.
      rw [Tag.keyword?, isKind] at plain
      simp only [readTag, Tag.kind_range, isKind, (statement_eq inner).1, perform_eq, lift_some,
        pure_bind, Statement.keyword?_range, Statement.word_range, Node.Parser.readPiece,
        Node.Parser.statementCause, failAt_eq, Tag.start_range, Tag.stop_range]
      cases isKeyword : tag.statement.keyword? with
      | none => rfl
      | some keyword =>
          cases keyword with
          | opens kind => exact absurd isKeyword (plain kind)
          | closes | elseIf | otherwise => rfl

/-! ### Ranges of pieces -/

/-- Outside of blocks a piece is read before the others. -/
theorem read_plain {piece : Piece} (plain : ∀ kind, piece.keyword? ≠ some (.opens kind)) :
    Node.Parser.read source limits room (piece :: rest) = (do
      let node ← Node.Parser.readPiece source limits piece
      let others ← Node.Parser.read source limits room rest
      return node :: others) := by
  simp only [Node.Parser.read_eq, outline_plain plain, List.mapM_cons]
  rfl

/-- A block is read before what comes behind it. -/
theorem read_opens {tag : Tag} {kind : BlockKind} {passed : Except (Located Cause) Passed}
    (isKeyword : tag.keyword? = some (.opens kind))
    (passes : passOver limits.maxBlockDepth room ⟨kind, tag⟩ [] rest = passed) :
    Node.Parser.read source limits room (.tag tag :: rest) = (do
      let node ← Node.Parser.readItem source limits (Node.Parser.bodyReader source limits room)
        (.block ⟨kind, tag⟩ (passed.map Passed.block))
      let passed ← Node.Parser.locate source passed
      let others ← Node.Parser.read source limits room passed.rest
      return node :: others) := by
  rw [Node.Parser.read_eq, outline_opens isKeyword, outlineInside_eq, passes]
  -- An opener whose block is not closed is the last item, and reading that item fails.
  cases passed with
  | error fault =>
      simp only [Except.map, List.mapM_cons, List.mapM_nil]
      cases reads : Node.Parser.readItem source limits _ _ with
      | error => rfl
      | ok => exact absurd reads Node.Parser.readItem_fault
  | ok value =>
      simp only [List.mapM_cons, Node.Parser.read_eq]
      rfl

/-- A text is read before what comes behind it. -/
theorem readRange_text {content : List Char}
    (covers : Covers overflow source start stop (.text content start :: rest)) :
    (readRange overflow source limits (rounds + 1) depth start stop : Reading _) = (do
      let others ← readRange overflow source limits (rounds + 1) depth
        (start + byteLength content) stop
      return .text (String.ofList content) (source.span start (start + byteLength content)) ::
        others) := by
  cases covers with
  | text nonempty here passes apart covers =>
  have positive := Nat.pos_of_ne_zero (mt byteLength_eq_zero_iff.mp nonempty)
  rw [readRange, if_pos (Nat.lt_of_lt_of_le (Nat.lt_add_of_pos_right positive) covers.le), seek_eq,
    passes]
  -- The text ends at the next tag, at the end of the range, or at a tag that is not closed.
  match rest with
  | [] =>
      obtain rfl := covers.stop_of_nil
      rw [nextTag_past (.inl (Nat.le_succ _)), readRange, if_neg (Nat.lt_irrefl _), pure_bind]
      simp only [textNode_eq here]
      rfl
  | .text _ _ :: _ => exact absurd (apart _ rfl) (by simp [Piece.content?])
  | .unclosed kind place :: _ =>
      obtain ⟨inside, unclosed, -⟩ := covers.next_unclosed
      rw [readRange, if_pos inside, seek_eq, unclosed, failAt_eq]
      rfl
  | .tag tag :: _ =>
      obtain ⟨isStart, next, -⟩ := covers.next_tag
      rw [readRange, if_pos covers.lt, seek_eq, next]
      simp only [pure_bind, perform_eq, Tag.start_range, isStart, textsBetween_self,
        textsBetween_eq nonempty here, bind_assoc]
      rfl

omit [overflow.Fits source] in
/-- A tag at the start of a range is read in a round of its own. -/
theorem readRange_tag {tag : Tag} (covers : Covers overflow source start stop (.tag tag :: rest)) :
    (readRange overflow source limits (rounds + 1) depth start stop : Reading _) = (do
      let (node, next) ← readTag overflow source limits
        (readRange overflow source limits rounds (depth + 1)) rounds depth tag.range stop
      let others ← readRange overflow source limits rounds depth next stop
      return node :: others) := by
  obtain ⟨rfl, next, -⟩ := covers.next_tag
  rw [readRange, if_pos covers.lt, seek_eq, next]
  simp only [pure_bind, perform_eq, Tag.start_range, textsBetween_self]
  rfl

/-- Whether a range is read as the pieces that cover it are. -/
def Reads (overflow : Overflow) (source : Source) (limits : Limits)
    (rounds depth room start stop : Nat)
    (pieces : List Piece) : Prop :=
  readRange overflow source limits rounds depth start stop =
    found source (Node.Parser.read source limits room pieces)

/-- A block is read with its inside, and then what comes behind it. -/
theorem reads_opens {tag : Tag} {kind : BlockKind}
    (covers : Covers overflow source start stop (.tag tag :: rest)) (enough : rest.length < rounds)
    (isRoom : depth + room = limits.maxBlockDepth) (opens : tag.keyword? = some (.opens kind))
    (bodies : ReadsInside overflow source limits rounds room
      (readRange overflow source limits rounds (depth + 1)))
    (later : ∀ {start : Nat} {pieces : List Piece}, Covers overflow source start stop pieces →
      pieces.length < rounds → Reads overflow source limits rounds depth room start stop pieces) :
    Reads overflow source limits (rounds + 1) depth room start stop (.tag tag :: rest) := by
  obtain ⟨-, -, inner, behind⟩ := covers.next_tag
  rw [Reads, readRange_tag covers, read_opens opens rfl,
    readTag_opens bodies opens inner behind enough isRoom rfl, Checked.behind]
  cases Node.Parser.readItem source limits _ _ with
  | error fault => rfl
  | ok node =>
      cases passes : passOver limits.maxBlockDepth room ⟨kind, tag⟩ [] rest with
      | error fault => rfl
      | ok passed =>
          have others := later (behind.behind passes).2.2 (length_rest_lt passes enough)
          change (readRange overflow source limits rounds depth passed.closer.stop stop >>=
            fun others => (pure (node :: others) : Reading _)) = _
          rw [others]
          exact found_bind fun others _ => rfl

/-- Any other tag is read, and then what comes behind it. -/
theorem reads_plain {tag : Tag} (covers : Covers overflow source start stop (.tag tag :: rest))
    (plain : ∀ kind, tag.keyword? ≠ some (.opens kind))
    (later : Reads overflow source limits rounds depth room tag.stop stop rest) :
    Reads overflow source limits (rounds + 1) depth room start stop (.tag tag :: rest) := by
  obtain ⟨-, -, inner, -⟩ := covers.next_tag
  have read : Node.Parser.read source limits room (.tag tag :: rest) = _ := read_plain plain
  rw [Reads, readRange_tag covers, readTag_plain plain inner, read]
  refine found_map_bind fun node _ => ?_
  change (readRange overflow source limits rounds depth tag.stop stop >>=
    fun others => (pure (node :: others) : Reading _)) = _
  rw [later]
  exact found_bind fun others _ => rfl

/-- The nodes by offsets are those of the pieces. -/
theorem reads (covers : Covers overflow source start stop pieces) (enough : pieces.length < rounds)
    (isRoom : depth + room = limits.maxBlockDepth) :
    Reads overflow source limits rounds depth room start stop pieces := by
  induction rounds generalizing depth room start stop pieces with
  | zero => exact absurd enough (Nat.not_lt_zero _)
  | succ rounds ih =>
      have bodies : ReadsInside overflow source limits rounds room
          (readRange overflow source limits rounds (depth + 1)) := by
        intro readBody isReader start stop pieces covers enough
        cases room with
        | zero => cases isReader
        | succ room =>
            cases isReader
            exact ih covers enough (by omega)
      -- A text and the tag behind it are read in one round.
      have noText {start : Nat} {pieces : List Piece}
          (covers : Covers overflow source start stop pieces)
          (enough : pieces.length < rounds + 1)
          (apart : ∀ first ∈ pieces.head?, first.content? = none) :
          Reads overflow source limits (rounds + 1) depth room start stop pieces := by
        rcases pieces with _ | ⟨⟨content, place⟩ | tag | ⟨kind, place⟩, rest⟩
        case nil =>
          rw [covers.stop_of_nil, Reads, readRange, if_neg (Nat.lt_irrefl _), Node.Parser.read_eq]
          rfl
        case cons.text => exact absurd (apart _ rfl) (by simp [Piece.content?])
        case cons.unclosed =>
          obtain ⟨inside, unclosed, rfl, rfl⟩ := covers.next_unclosed
          rw [Reads, readRange, if_pos inside, seek_eq, unclosed, failAt_eq,
            read_plain (by simp [Piece.keyword?])]
          rfl
        case cons.tag =>
          obtain ⟨-, -, -, behind⟩ := covers.next_tag
          have fewer : rest.length < rounds := Nat.lt_of_succ_lt_succ enough
          by_cases opens : ∃ kind, tag.keyword? = some (.opens kind)
          · obtain ⟨kind, opens⟩ := opens
            exact reads_opens covers fewer isRoom opens bodies
              fun covers enough => ih covers enough isRoom
          · exact reads_plain covers (not_exists.mp opens) (ih behind fewer isRoom)
      rcases pieces with _ | ⟨⟨content, place⟩ | tag | ⟨kind, place⟩, rest⟩
      case cons.text =>
        obtain ⟨rfl, apart, behind⟩ := covers.next_text
        have others := noText behind (Nat.lt_of_succ_lt enough) apart
        rw [Reads, readRange_text covers, others, read_plain (by simp [Piece.keyword?])]
        exact found_bind fun others _ => rfl
      all_goals exact noText covers enough (by simp [Piece.content?])

/-! ### Templates -/

/-- The nodes of a whole source by offsets are those of its pieces. -/
theorem nodes_eq (overflow : Overflow) (source : Source) [overflow.Fits source] (limits : Limits) :
    readRange overflow source limits (source.size + 1) 0 0 source.size =
      found source (source.nodes limits) := by
  have covers : Covers overflow source 0 source.size source.pieces :=
    covers_scan (cut?_whole source.text)
  refine reads covers (Nat.lt_succ_of_le ?_) (Nat.zero_add _)
  simpa using covers.length_le

/-- The template of a whole source by offsets is that of its nodes. -/
theorem run_compile (overflow : Overflow) (source : Source) [overflow.Fits source]
    (limits : Limits) :
    (compile overflow source limits : Reading Template).run =
      some (Template.compile source limits) := by
  rw [compile, nodes_eq, Template.compile]
  cases source.nodes limits <;> rfl

omit [overflow.Fits source] in
/-- A single line that is too long cannot be read where sums are caught, since its end has no
position. -/
theorem compile_caught (noFeed : '\n' ∉ source.text) (noBrace : '\x7b' ∉ source.text)
    (ascii : ∀ c ∈ source.text, c.toNat < 128) (long : source.size = 2 ^ 32 - 1) :
    (compile .caught source limits : Reading Template) = outOfPlace := by
  have nonempty : 0 < source.size := by omega
  have noTag : nextTag .caught source 0 source.size = pure none :=
    nextTag_noBrace (by rwa [bytes_ascii ascii]) 0 source.size
  have noSpan : span .caught source 0 source.size = none := by
    rw [span, Nat.max_zero, position_caught noFeed ascii long]
    cases position .caught source 0 <;> rfl
  rw [compile, readRange, if_pos nonempty, seek_eq, noTag, pure_bind]
  simp only [textNode, noSpan]
  rfl

end Checked

/-- Nothing is out of place when the template of a source is read by offsets: every index lies in
its text or table, every cut has its ends in order and at the edges of characters, and no step comes
to its last round. Where sums that are too large for a word are caught, there is none of them in a
source of fewer than `2 ^ 32 - 1` bytes. The outcome is the template or the diagnostic. -/
theorem Template.compile_inPlace (overflow : Checked.Overflow) (source : Source) (limits : Limits)
    (fits : overflow = .caught → source.size < 2 ^ 32 - 1) :
    (Checked.compile overflow source limits : Checked.Reading Template).run =
      some (Template.compile source limits) := by
  have : overflow.Fits source := ⟨fits⟩
  exact Checked.run_compile overflow source limits

/-- A template with wide characters is read where sums are caught. -/
theorem Template.compile_inPlace_of_wide :
    Source.size ⟨"page", "€\x7b\x7b a \x7d\x7d".toList⟩ = 10 ∧
      (Checked.compile .caught ⟨"page", "€\x7b\x7b a \x7d\x7d".toList⟩ {} :
          Checked.Reading Template).run =
        some (Template.compile ⟨"page", "€\x7b\x7b a \x7d\x7d".toList⟩ {}) :=
  have size : Source.size ⟨"page", "€\x7b\x7b a \x7d\x7d".toList⟩ = 10 := by decide
  ⟨size, Template.compile_inPlace .caught _ {} fun _ => by rw [size]; decide⟩

/-- A line of `2 ^ 32 - 1` letters is not read where sums are caught: its end has no position. -/
theorem Template.compile_caught_of_letters :
    Checked.position .caught ⟨"page", List.replicate (2 ^ 32 - 1) 'a'⟩ (2 ^ 32 - 1) = none ∧
      (Checked.compile .caught ⟨"page", List.replicate (2 ^ 32 - 1) 'a'⟩ {} :
        Checked.Reading Template).run = none := by
  have isLetter {c : Char} (isChar : c ∈ List.replicate (2 ^ 32 - 1) 'a') : c = 'a' :=
    List.eq_of_mem_replicate isChar
  have ascii : ∀ c ∈ List.replicate (2 ^ 32 - 1) 'a', c.toNat < 128 := fun c isChar => by
    rw [isLetter isChar]
    decide
  have noFeed : '\n' ∉ List.replicate (2 ^ 32 - 1) 'a' := fun isFeed =>
    absurd (isLetter isFeed) (by decide)
  have noBrace : '\x7b' ∉ List.replicate (2 ^ 32 - 1) 'a' := fun isBrace =>
    absurd (isLetter isBrace) (by decide)
  have long : Source.size ⟨"page", List.replicate (2 ^ 32 - 1) 'a'⟩ = 2 ^ 32 - 1 :=
    (byteLength_ascii ascii).trans List.length_replicate
  refine ⟨?_, congrArg ExceptT.run (Checked.compile_caught noFeed noBrace ascii long)⟩
  have atEnd := Checked.position_caught noFeed ascii long
  rwa [long] at atEnd

end TextTemplate
