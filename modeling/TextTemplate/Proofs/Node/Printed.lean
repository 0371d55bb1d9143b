import TextTemplate.Proofs.Node.Alike
import TextTemplate.Proofs.Node.Scanned
import TextTemplate.Proofs.Node.Statements
import TextTemplate.Proofs.Node.Words

/-! # Printed nodes are read back

The text of nodes is the text of their events, one after the other. Each event that came from a
piece is written as a piece that says an event alike, so the pieces of the printed text say the same
blocks. -/

namespace TextTemplate

open Node

variable {source : Source} {limits : Limits}

/-! ### Texts of events -/

namespace Event

/-- The text between the blanks of the statement that an event is written as. -/
def statement? : Event → Option (List Char)
  | .text _ _ | .interpolation _ _ | .comment _ _ => none
  | .opensChoice condition _ => some ("if".toList ++ ' ' :: condition.print)
  | .opensLoop item index source _ =>
      some ("for".toList ++ ' ' :: (printNames item index ++ (" in ".toList ++ source.print)))
  | .elseIf condition => some ("elif".toList ++ ' ' :: condition.print)
  | .otherwise => some "else".toList
  | .closes kind _ => some kind.closingWord.toList

/-- The form of the tag that an event is written as, and the tag's inner text. -/
def tag? : Event → Option (TagKind × List Char)
  | .text _ _ => none
  | .interpolation expr _ => some (.interpolation, ' ' :: expr.print ++ [' '])
  | .comment content _ => some (.comment, content.toList)
  | event => event.statement?.map fun text => (.statement, ' ' :: text ++ [' '])

/-- The content of a text. -/
def content? : Event → Option (List Char)
  | .text content _ => some content.toList
  | _ => none

/-- The text of an event. -/
def print (event : Event) : List Char :=
  match event.tag? with
  | some (kind, inner) => kind.wrap inner
  | none => event.content?.getD []

/-- An event that is not a text is written as a tag. -/
theorem tag_of_content {event : Event} (noText : event.content? = none) :
    ∃ kind inner, event.tag? = some (kind, inner) ∧ event.print = kind.wrap inner := by
  cases event with
  | text => cases noText
  | _ => exact ⟨_, _, rfl, rfl⟩

end Event

namespace Node

/-- A printed statement is a tag with a space on both sides. -/
theorem statementTag_eq (text : List Char) :
    statementTag text = TagKind.statement.wrap (' ' :: text ++ [' ']) := by
  simp [statementTag, TagKind.wrap, TagKind.opener, TagKind.marker, TagKind.closer,
    TagKind.closingMarker]

/-- The text of a node that belongs to no block is the text of its event. -/
theorem print_of_leaf {event : Event} {node : Node} (isLeaf : event.leaf? = some node) :
    node.print = event.print := by
  cases event <;> cases isLeaf <;>
    simp [print, Event.print, Event.tag?, Event.content?, TagKind.wrap, TagKind.opener,
      TagKind.marker, TagKind.closer, TagKind.closingMarker]

mutual

/-- The text of the nodes of a body is the text of its events. -/
theorem Body.print_eq : {room : Nat} → {events : List Event} → {nodes : List Node} →
    Body room events nodes → printList nodes = events.flatMap Event.print
  | _, _, _, .nil => rfl
  | _, _, _, .leaf isLeaf rest => by
      rw [printList, rest.print_eq, List.flatMap_cons, print_of_leaf isLeaf]
  | _, _, _, .loop inside rest => by
      simp [printList, print, inside.print_eq, rest.print_eq, Event.print, Event.tag?,
        Event.statement?, statementTag_eq, BlockKind.closingWord]
  | _, _, _, .choice inside rest => by
      have branches := inside.print_eq "if"
      simp [printList, print, branches, rest.print_eq, Event.print, Event.tag?,
        Event.statement?, statementTag_eq, BlockKind.closingWord]

/-- The text of the branches of a choice is the text of their events. -/
theorem Branches.print_eq : {room : Nat} → {condition : Expr} → {events : List Event} →
    {branches : List (Expr × List Node)} → {otherwise : Option (List Node)} →
    Branches room condition events branches otherwise → ∀ word : String,
    printBranches word branches ++ printElse otherwise =
      statementTag (word.toList ++ ' ' :: condition.print) ++ events.flatMap Event.print
  | _, _, _, _, _, .only body, word => by
      simp [printBranches, printElse, body.print_eq]
  | _, _, _, _, _, .elseIf body rest, word => by
      have others := rest.print_eq "elif"
      simp [printBranches, body.print_eq, others, Event.print, Event.tag?, Event.statement?,
        statementTag_eq]
  | _, _, _, _, _, .otherwise body last, word => by
      simp [printBranches, printElse, body.print_eq, last.print_eq, Event.print, Event.tag?,
        Event.statement?, statementTag_eq]

end

end Node

/-! ### Events that may be written -/

/-- Whether an expression may stand in a tag of a template within the limits. -/
structure Expr.IsWritten (limits : Limits) (expr : Expr) : Prop where
  spelled : ∀ word ∈ expr.words, word.IsSpelled
  within : expr.Within limits.maxExpressionDepth

/-- Whether an event may come from a piece of a template within the limits. -/
inductive Event.IsWritten (limits : Limits) : Event → Prop where
  | text {content : String} {span : Span} : IsWritten limits (.text content span)
  | interpolation {expr : Expr} {span : Span} :
      expr.IsWritten limits → IsWritten limits (.interpolation expr span)
  | comment {content : String} {span : Span} :
      (∀ rest, TagKind.comment.firstCloser? (content.toList ++ (TagKind.comment.closer ++ rest)) =
        some content.toList.length) →
      IsWritten limits (.comment content span)
  | opensChoice {condition : Expr} {start : Position} :
      condition.IsWritten limits → IsWritten limits (.opensChoice condition start)
  | opensLoop {item : String} {index : Option String} {source : Expr} {start : Position} :
      source.IsWritten limits → IsLoopName item → (∀ name ∈ index, IsLoopName name) →
      IsWritten limits (.opensLoop item index source start)
  | elseIf {condition : Expr} :
      condition.IsWritten limits → IsWritten limits (.elseIf condition)
  | otherwise : IsWritten limits .otherwise
  | closes {kind : BlockKind} {stop : Position} : IsWritten limits (.closes kind stop)

namespace Source

/-- The expression of an event may stand in a tag. -/
theorem isWritten_of_expr {piece : Piece} {event : Event} {expr : Expr}
    (said : source.event? limits piece = some event) (has : event.expr? = some expr) :
    expr.IsWritten limits := by
  obtain ⟨tag, text, start, isRead⟩ := expression_of_event said has
  obtain ⟨tokens, -, read⟩ := bind_eq_ok_iff.mp isRead
  exact ⟨isSpelled_of_expression isRead, (Expr.chain_of_ofTokens read).2⟩

/-- A comment is what stands in its tag. -/
theorem tag_of_comment {piece : Piece} {content : String} {span : Span}
    (said : source.event? limits piece = some (.comment content span)) :
    ∃ tag, piece = .tag tag ∧ tag.kind = .comment ∧ tag.inner = content.toList := by
  cases piece with
  | text => cases said
  | unclosed => cases said
  | tag tag =>
      cases kind : tag.kind with
      | interpolation => simp [event?, kind] at said
      | comment =>
          simp only [event?, kind, Option.some.injEq, Event.comment.injEq] at said
          exact ⟨tag, rfl, kind, by rw [← said.1, String.toList_ofList]⟩
      | statement =>
          simp only [event?, kind] at said
          obtain ⟨keyword, isKeyword, -⟩ := keyword_of_statementEvent said
          cases isKeyword

/-- What the pieces of a text say may be written. -/
theorem isWritten_of_event {piece : Piece} {event : Event} {offset skip : Nat} {text : List Char}
    (found : piece ∈ Piece.scan offset skip text)
    (said : source.event? limits piece = some event) : event.IsWritten limits := by
  cases event with
  | text => exact .text
  | interpolation => exact .interpolation (isWritten_of_expr said rfl)
  | comment =>
      obtain ⟨tag, rfl, isComment, inner⟩ := tag_of_comment said
      exact .comment (inner ▸ Piece.firstCloser?_of_scan found isComment)
  | opensChoice => exact .opensChoice (isWritten_of_expr said rfl)
  | opensLoop =>
      obtain ⟨tag, rfl, opens⟩ := tag_of_event said rfl
      obtain ⟨header, entries, isHeader, -, same⟩ := (event_loop_iff opens).mp said
      cases same
      have names := LoopHeader.isLoopName_of_ofStatement isHeader
      exact .opensLoop (isWritten_of_expr said rfl) names.1 names.2
  | elseIf => exact .elseIf (isWritten_of_expr said rfl)
  | otherwise => exact .otherwise
  | closes => exact .closes

/-- A piece is a text when it says one. -/
theorem content_of_event {piece : Piece} {event : Event}
    (said : source.event? limits piece = some event) : piece.content? = event.content? := by
  -- A tag never says a text, whatever its form.
  cases piece with
  | text content start =>
      cases said
      simp [Piece.content?, Event.content?]
  | unclosed => cases said
  | tag tag =>
      cases event with
      | text =>
          cases kind : tag.kind with
          | interpolation => simp [event?, kind] at said
          | comment => simp [event?, kind] at said
          | statement =>
              simp only [event?, kind] at said
              obtain ⟨keyword, isKeyword, -⟩ := keyword_of_statementEvent said
              cases isKeyword
      | _ => rfl

/-- The texts among what pieces say are those among the pieces. -/
theorem Says.contents_eq {pieces : List Piece} {events : List Event}
    (said : source.Says limits pieces events) :
    pieces.map Piece.content? = events.map Event.content? := by
  induction pieces generalizing events with
  | nil =>
      cases said
      rfl
  | cons piece rest ih =>
      obtain ⟨event, others, here, tail, rfl⟩ := says_cons_iff.mp said
      rw [List.map_cons, List.map_cons, content_of_event here, ih tail]

end Source

/-! ### Reading events back -/

section Reading

variable {expr : Expr}

/-- A text of the tokens of an expression is read as an expression that is built alike. -/
theorem Source.expression_of_lexed (written : expr.IsWritten limits) {text : List Char}
    (lexed : Token.Lexed true text expr.printedKinds) (source : Source) (tag : Tag) (start : Nat) :
    ∃ again, Node.Parser.expression source limits tag text start = .ok again ∧
      expr.Alike Numeric.Respelled again := by
  obtain ⟨tokens, cut, kinds⟩ :=
    Token.lex_of_lexed lexed source start (start + byteLength text)
  obtain ⟨again, alike, derived⟩ := Grammar.derived_of_printedKinds expr written.spelled tokens kinds
  have read : Expr.ofTokens limits (source.tagSpan tag) tokens = .ok again :=
    Expr.ofTokens_of_chain derived.chain (alike.within written.within)
  exact ⟨again, by simp [Node.Parser.expression, cut, read, bind, Except.bind], alike⟩

/-- The text of an expression is read as an expression that is built alike. -/
theorem Source.expression_print (written : expr.IsWritten limits) (source : Source) (tag : Tag)
    (start : Nat) :
    ∃ again, Node.Parser.expression source limits tag expr.print start = .ok again ∧
      expr.Alike Numeric.Respelled again := by
  have lexed := Expr.isOperand_print expr written.spelled [] [] Token.endsOperand_nil .nil
  rw [List.append_nil, List.append_nil] at lexed
  exact expression_of_lexed written lexed source tag start

/-- Blanks around the text do not matter. -/
theorem Source.expression_spaced (written : expr.IsWritten limits) (source : Source) (tag : Tag)
    (start : Nat) :
    ∃ again,
      Node.Parser.expression source limits tag (' ' :: expr.print ++ [' ']) start = .ok again ∧
        expr.Alike Numeric.Respelled again := by
  have lexed := Expr.isOperand_print expr written.spelled [' '] [] (Token.endsOperand_blank rfl)
    (.blank .nil)
  rw [List.append_nil] at lexed
  exact expression_of_lexed written (.blank lexed) source tag start

/-- Whether a tag of a form around a text is found and says an event alike, wherever it stands. -/
def Event.IsReadFrom (limits : Limits) (event : Event) (kind : TagKind) (inner : List Char) :
    Prop :=
  (∀ rest, kind.innerLength? (inner ++ (kind.closer ++ rest)) = some inner.length) ∧
    ∀ (source : Source) offset, ∃ again,
      source.event? limits (.tag ⟨kind, offset, inner⟩) = some again ∧
        event.Alike Numeric.Respelled again

/-- A sealed inner text ends at the closer of its tag. -/
theorem IsSealed.innerLength? {inner : List Char} (isSealed : IsSealed inner) {kind : TagKind}
    (isQuoting : kind ≠ .comment) (rest : List Char) :
    kind.innerLength? (inner ++ (kind.closer ++ rest)) = some inner.length := by
  have closes : kind.unquotedCloser? none (inner ++ (kind.closer ++ rest)) = some inner.length := by
    rw [isSealed kind]
    cases kind <;>
      simp [TagKind.closer, TagKind.closingMarker, TagKind.unquotedCloser?, List.isPrefixOf]
  cases kind with
  | comment => exact absurd rfl isQuoting
  | interpolation => rw [TagKind.innerLength?, closes, Option.some_or]
  | statement => rw [TagKind.innerLength?, closes, Option.some_or]

/-- Spaces around a sealed text leave it sealed. -/
theorem isSealed_spaced {text : List Char} (isSealed : IsSealed text) :
    IsSealed (' ' :: text ++ [' ']) := by
  have blank : IsSealed [' '] := isSealed_of_inert (by simp [IsInert])
  exact (blank.append isSealed).append blank

/-- The tag of a statement has the keyword of its word. -/
theorem Tag.keyword_of_word {offset : Nat} {inner word : List Char}
    (isWord : (Statement.ofText (offset + 2) inner).word = word) :
    (⟨.statement, offset, inner⟩ : Tag).keyword? = Keyword.ofWord? word := by
  rw [← isWord]
  rfl

/-- A sealed statement is found, and it says what its tag does. -/
theorem Event.isReadFrom_statement {event : Event} {text : List Char} (isSealed : IsSealed text)
    (reads : ∀ (source : Source) offset, ∃ again,
      source.event? limits (.tag ⟨.statement, offset, ' ' :: text ++ [' ']⟩) = some again ∧
        event.Alike Numeric.Respelled again) :
    event.IsReadFrom limits .statement (' ' :: text ++ [' ']) :=
  ⟨fun rest => (isSealed_spaced isSealed).innerLength? (by decide) rest, reads⟩

/-- A word with an expression behind it is sealed. -/
theorem IsWord.isSealed_cons {word text : List Char} (isWord : IsWord word)
    (isSealed : IsSealed text) : IsSealed (word ++ ' ' :: text) := by
  have blank : IsSealed [' '] := isSealed_of_inert (by simp [IsInert])
  exact isWord.isSealed.append (blank.append isSealed)

/-- The condition behind a word is read back. -/
theorem Source.condition_print {word : List Char} (isWord : IsWord word)
    (written : expr.IsWritten limits)
    (source : Source) (offset : Nat) :
    let tag : Tag := ⟨.statement, offset, ' ' :: (word ++ ' ' :: expr.print) ++ [' ']⟩
    tag.keyword? = Keyword.ofWord? word ∧ tag.statement.arguments.isEmpty = false ∧
      ∃ again, Node.Parser.expression source limits tag tag.statement.arguments
        tag.statement.start = .ok again ∧ expr.Alike Numeric.Respelled again := by
  intro tag
  have trimmed := isTrimmed_print expr written.spelled
  obtain ⟨isSame, arguments⟩ := Statement.ofText_arguments isWord trimmed (offset + 2)
  have same : tag.statement.arguments = expr.print := arguments
  refine ⟨Tag.keyword_of_word isSame, ?_, ?_⟩
  · simpa [same] using trimmed.ne_nil
  · rw [same]
    exact expression_print written source tag _

/-- A word that stands alone says nothing more. -/
theorem Tag.statement_alone {word : List Char} (isWord : IsWord word) (offset : Nat) :
    let tag : Tag := ⟨.statement, offset, ' ' :: word ++ [' ']⟩
    tag.keyword? = Keyword.ofWord? word ∧ tag.statement.arguments.isEmpty = true := by
  obtain ⟨isSame, arguments⟩ := Statement.ofText_alone isWord (offset + 2)
  exact ⟨Tag.keyword_of_word isSame, List.isEmpty_iff.mpr arguments⟩

/-- The header of a loop is read back. -/
theorem Source.header_print {item : String} {index : Option String} (isItem : IsLoopName item)
    (isIndex : ∀ name ∈ index, IsLoopName name) (written : expr.IsWritten limits)
    (source : Source) (offset : Nat) :
    let tag : Tag := ⟨.statement, offset, ' ' :: ("for".toList ++
      ' ' :: (printNames item index ++ (" in ".toList ++ expr.print))) ++ [' ']⟩
    tag.keyword? = some (.opens .loop) ∧ ∃ start again,
      LoopHeader.ofStatement tag.statement tag.inner = .ok ⟨item, index, expr.print, start⟩ ∧
        Node.Parser.expression source limits tag expr.print start = .ok again ∧
        expr.Alike Numeric.Respelled again := by
  intro tag
  have trimmed := isTrimmed_print expr written.spelled
  have whole := LoopHeader.isTrimmed_header isItem index trimmed
  have isFor : IsWord "for".toList := .of_check rfl
  obtain ⟨isSame, arguments⟩ := Statement.ofText_arguments isFor whole (offset + 2)
  obtain ⟨start, isHeader⟩ :=
    LoopHeader.ofStatement_print isItem isIndex trimmed tag.statement arguments tag.inner
  obtain ⟨again, read, alike⟩ := expression_print written source tag start
  exact ⟨Tag.keyword_of_word isSame, start, again, isHeader, read, alike⟩

/-- The tag that an event is written as says an event alike. -/
theorem Event.IsWritten.isReadFrom {event : Event} (written : event.IsWritten limits)
    {kind : TagKind} {inner : List Char} (isTag : event.tag? = some (kind, inner)) :
    event.IsReadFrom limits kind inner := by
  cases written with
  | text => cases isTag
  | @interpolation expr span written =>
      cases isTag
      -- The tag is found because its inner text is sealed, and read because of its tokens.
      refine ⟨fun rest => ?_, fun source offset => ?_⟩
      · exact (isSealed_spaced (Expr.isSealed_print _ written.spelled)).innerLength? (by decide) rest
      · let tag : Tag := ⟨.interpolation, offset, ' ' :: expr.print ++ [' ']⟩
        obtain ⟨again, read, alike⟩ := Source.expression_spaced written source tag tag.innerStart
        refine ⟨.interpolation again (source.tagSpan tag), ?_, .interpolation alike⟩
        simp only [Source.event?]
        rw [read]
        rfl
  | comment closes =>
      cases isTag
      refine ⟨closes, fun source offset => ⟨_, rfl, ?_⟩⟩
      rw [String.ofList_toList]
      exact .comment
  | opensChoice written =>
      cases isTag
      have isIf : IsWord "if".toList := .of_check rfl
      refine isReadFrom_statement
        (isIf.isSealed_cons (Expr.isSealed_print _ written.spelled)) fun source offset => ?_
      obtain ⟨opens, given, again, read, alike⟩ :=
        Source.condition_print isIf written source offset
      exact ⟨_, (Source.event_choice_iff opens).mpr ⟨given, again, read, rfl⟩, .opensChoice alike⟩
  | opensLoop written isItem isIndex =>
      cases isTag
      have isFor : IsWord "for".toList := .of_check rfl
      have sealedSource := Expr.isSealed_print _ written.spelled
      refine isReadFrom_statement (isFor.isSealed_cons
        (LoopHeader.isSealed_header isItem isIndex sealedSource)) fun source offset => ?_
      obtain ⟨opens, start, again, isHeader, read, alike⟩ :=
        Source.header_print isItem isIndex written source offset
      exact ⟨_, (Source.event_loop_iff opens).mpr ⟨_, again, isHeader, read, rfl⟩,
        .opensLoop alike⟩
  | elseIf written =>
      cases isTag
      have isElif : IsWord "elif".toList := .of_check rfl
      refine isReadFrom_statement
        (isElif.isSealed_cons (Expr.isSealed_print _ written.spelled)) fun source offset => ?_
      obtain ⟨continues, given, again, read, alike⟩ :=
        Source.condition_print isElif written source offset
      exact ⟨_, (Source.event_elseIf_iff continues).mpr ⟨given, again, read, rfl⟩, .elseIf alike⟩
  | otherwise =>
      cases isTag
      have isElse : IsWord "else".toList := .of_check rfl
      refine isReadFrom_statement isElse.isSealed fun source offset => ?_
      obtain ⟨continues, bare⟩ := Tag.statement_alone isElse offset
      exact ⟨_, (Source.event_otherwise_iff continues).mpr ⟨bare, rfl⟩, .otherwise⟩
  | @closes block stop =>
      have isKeyword : Keyword.ofWord? block.closingWord.toList = some (.closes block) := by
        cases block <;> rfl
      have isWord : IsWord block.closingWord.toList := .of_check (by cases block <;> rfl)
      cases isTag
      refine isReadFrom_statement isWord.isSealed fun source offset => ?_
      obtain ⟨closes, bare⟩ := Tag.statement_alone isWord offset
      rw [isKeyword] at closes
      exact ⟨_, (Source.event_closes_iff closes).mpr ⟨bare, rfl⟩, .closes⟩

end Reading

/-! ### Reading lists of events back -/

/-- Events that are alike are texts with the same contents, or none of them is a text. -/
theorem Event.content_of_alike {same : Numeric → Numeric → Prop} {event again : Event}
    (alike : event.Alike same again) : again.content? = event.content? := by
  cases alike <;> rfl

/-- Events that are alike have the same texts between the tags. -/
theorem contents_of_alike {same : Numeric → Numeric → Prop} {events again : List Event}
    (alike : List.Forall₂ (Event.Alike same) events again) :
    again.map Event.content? = events.map Event.content? := by
  induction alike with
  | nil => rfl
  | cons first _ ih => rw [List.map_cons, List.map_cons, Event.content_of_alike first, ih]

/-- What stands behind a text is nothing, or it starts with the brace of a tag. -/
theorem head?_flatMap_print {events : List Event}
    (alone : ∀ other ∈ (events.map Event.content?).head?, other = none) :
    (events.flatMap Event.print).head? =
      (events.map Event.content?).head?.map fun _ => '\x7b' := by
  cases events with
  | nil => rfl
  | cons event rest =>
      obtain ⟨kind, inner, -, text⟩ := Event.tag_of_content (alone _ rfl)
      rw [List.flatMap_cons, text]
      rfl

/-- The texts of events that may be written and are apart are cut into pieces that say events
alike. -/
theorem Source.says_print (source : Source) (events : List Event)
    (written : ∀ event ∈ events, event.IsWritten limits)
    (apart : Apart (events.map Event.content?)) (offset : Nat) :
    ∃ again, source.Says limits (Piece.scan offset 0 (events.flatMap Event.print)) again ∧
      List.Forall₂ (Event.Alike Numeric.Respelled) events again := by
  induction events generalizing offset with
  | nil => exact ⟨[], says_nil, .nil⟩
  | cons event rest ih =>
      obtain ⟨first, others⟩ := List.forall_mem_cons.mp written
      rw [List.map_cons] at apart
      rw [List.flatMap_cons]
      cases isText : event.content? with
      | none =>
          rw [isText] at apart
          -- A tag is found wherever it stands, and the rest is scanned from where it ends.
          obtain ⟨kind, inner, isTag, text⟩ := Event.tag_of_content isText
          obtain ⟨closes, reads⟩ := first.isReadFrom isTag
          obtain ⟨again, said, alike⟩ := reads source offset
          obtain ⟨more, saidRest, alikeRest⟩ :=
            ih others apart (offset + byteLength (kind.wrap inner))
          rw [text, Piece.scan_wrap (closes _)]
          exact ⟨again :: more, .cons said saidRest, .cons alike alikeRest⟩
      | some content =>
          rw [isText] at apart
          obtain ⟨nonempty, untagged, alone, apart⟩ := apart
          -- The rest is scanned alike wherever it stands, so the text ends where it does here.
          have behind (offset : Nat) :
              ∀ other ∈ ((Piece.scan offset 0 (rest.flatMap Event.print)).map
                Piece.content?).head?, other = none := by
            obtain ⟨more, said, alike⟩ := ih others apart offset
            rwa [said.contents_eq, contents_of_alike alike]
          rw [← head?_flatMap_print alone] at untagged
          cases event with
          | text content span =>
              cases isText
              obtain ⟨more, saidRest, alikeRest⟩ :=
                ih others apart (offset + byteLength content.toList)
              have said : source.event? limits (.text content.toList offset) =
                  some (.text content
                    (source.span offset (offset + byteLength content.toList))) := by
                simp [event?]
              have text : Event.print (.text content span) = content.toList := rfl
              rw [text, Piece.scan_text nonempty untagged behind]
              exact ⟨_, .cons said saidRest, .cons .text alikeRest⟩
          | _ => cases isText

/-- The printed nodes of a source are read as nodes that are built alike, under the same limits. -/
theorem Source.nodes_print {nodes : List Node} (read : source.nodes limits = .ok nodes)
    (name : String) :
    ∃ again, (⟨name, printList nodes⟩ : Source).nodes limits = .ok again ∧
      AllAlike Numeric.Respelled nodes again := by
  obtain ⟨events, said, body⟩ := nodes_iff_body.mp read
  have written : ∀ event ∈ events, event.IsWritten limits := by
    intro event isEvent
    obtain ⟨piece, found, here⟩ := said.exists_piece event isEvent
    exact isWritten_of_event found here
  -- Two texts in a row would be read as one, but pieces have none, so their events have none.
  have apart : Apart (events.map Event.content?) := by
    rw [← said.contents_eq]
    exact Piece.apart_scan 0 0 source.text
  obtain ⟨again, saidAgain, alike⟩ := says_print ⟨name, printList nodes⟩ events written apart 0
  obtain ⟨nodes', body', alikeNodes⟩ := body.alike alike
  rw [← body.print_eq] at saidAgain
  exact ⟨nodes', nodes_iff_body.mpr ⟨again, saidAgain, body'⟩, alikeNodes⟩

end TextTemplate
