import TextTemplate.Proofs.Checked.Ranges
import TextTemplate.Proofs.Expr.Spans
import TextTemplate.Proofs.Token.Spans

/-! # Nodes without gaps

The pieces of a source stand in it without a gap, and so do the nodes that are read from them: those
of a whole template between the two ends of the source, and those of a body between the two tags
around it. Expressions stand inside of their tags. -/

namespace TextTemplate

open Node

variable {source : Source} {limits : Limits} {start stop : Nat} {tag : Tag}

/-! ### Pieces -/

namespace Piece

/-- Whether pieces stand in a source between two offsets without a gap, each where it is written. -/
inductive Tiles (source : Source) : Nat → Nat → List Piece → Prop where
  | nil {stop : Nat} : Tiles source stop stop []
  | text {start stop : Nat} {content : List Char} {rest : List Piece} :
      cut? source.text start (start + byteLength content) = some content →
      Tiles source (start + byteLength content) stop rest →
      Tiles source start stop (.text content start :: rest)
  | tag {tag : Tag} {stop : Nat} {rest : List Piece} :
      cut? source.text tag.start tag.stop = some (tag.kind.wrap tag.inner) →
      Tiles source tag.stop stop rest → Tiles source tag.start stop (.tag tag :: rest)
  /-- Nothing is said of what comes behind a tag that is not closed. -/
  | unclosed {kind : TagKind} {start stop : Nat} : Tiles source start stop [.unclosed kind start]

/-- The pieces of the rest of a source stand in it without a gap. -/
theorem tiles_scan {text : List Char} (here : cut? source.text start source.size = some text) :
    Tiles source start source.size (scan start 0 text) := by
  have scans := scans_scan start text
  generalize scan start 0 text = pieces at scans
  induction scans with
  | nil =>
      rw [stop_of_cut? here]
      exact .nil
  | @text start content rest _ _ _ ih =>
      exact .text (cut?_left content here) (ih (cut?_right content here))
  | @tag tag rest _ ih =>
      have first := cut?_left (tag.kind.wrap tag.inner) here
      have behind := cut?_right (tag.kind.wrap tag.inner) here
      rw [← Tag.stop_eq] at first behind
      exact .tag first (ih behind)
  | unclosed => exact .unclosed

/-- The pieces of a source stand in it without a gap. -/
theorem tiles_pieces (source : Source) : Tiles source 0 source.size source.pieces :=
  tiles_scan (cut?_whole source.text)

/-- A tag among pieces stands where it is written, between what comes before it and behind it. -/
theorem Tiles.split {left right : List Piece}
    (tiles : Tiles source start stop (left ++ .tag tag :: right)) :
    Tiles source start tag.start left ∧
      cut? source.text tag.start tag.stop = some (tag.kind.wrap tag.inner) ∧
      Tiles source tag.stop stop right := by
  induction left generalizing start with
  | nil =>
      cases tiles with
      | tag here behind => exact ⟨.nil, here, behind⟩
  | cons piece left ih =>
      rw [List.cons_append] at tiles
      generalize others : left ++ .tag tag :: right = pieces at tiles
      cases tiles with
      | text here behind =>
          obtain ⟨before, rest⟩ := ih (others ▸ behind)
          exact ⟨.text here before, rest⟩
      | tag here behind =>
          obtain ⟨before, rest⟩ := ih (others ▸ behind)
          exact ⟨.tag here before, rest⟩
      | unclosed => simp at others

end Piece

/-! ### Tags -/

namespace Source

/-- Whether one of the tags of a source has a keyword. -/
structure HasTag (source : Source) (tag : Tag) (keyword : Keyword) : Prop where
  isPiece : .tag tag ∈ source.pieces
  isKeyword : tag.keyword? = some keyword

/-- Whether a nested expression stands inside of a tag. -/
def Holds (source : Source) (tag : Tag) (expr : Expr) : Prop :=
  Expr.Stand (source.position tag.start) (source.position tag.stop) [expr]

/-- A tag is written where it stands. -/
theorem cut?_tag (isPiece : .tag tag ∈ source.pieces) :
    cut? source.text tag.start tag.stop = some (tag.kind.wrap tag.inner) := by
  obtain ⟨left, right, same⟩ := List.append_of_mem isPiece
  exact (same ▸ Piece.tiles_pieces source).split.2.1

end Source

/-! ### Expressions in tags -/

namespace Node.Parser

variable {part : List Char} {expr : Expr}

/-- An expression that is read from a part of the inner text of a tag stands inside of the tag. -/
theorem holds_of_expression (short : source.size < 2 ^ 32 - 1) (isPiece : .tag tag ∈ source.pieces)
    {before after : List Char} (isInner : tag.inner = before ++ (part ++ after))
    (isStart : start = tag.innerStart + byteLength before)
    (read : expression source limits tag part start = .ok expr) : source.Holds tag expr := by
  obtain ⟨tokens, lexed, read⟩ := bind_eq_ok_iff.mp read
  have isWritten : tag.kind.wrap tag.inner =
      (tag.kind.opener ++ before) ++ (part ++ (after ++ tag.kind.closer)) := by
    simp [TagKind.wrap, isInner]
  have isOffset : start = tag.start + byteLength (tag.kind.opener ++ before) := by
    rw [isStart, byteLength_append, TagKind.byteLength_opener, Tag.innerStart, Nat.add_assoc]
  -- The tag is cut where the expression starts and where it ends.
  have whole := Source.cut?_tag isPiece
  rw [isWritten] at whole
  have first := cut?_left _ whole
  have others := cut?_right _ whole
  rw [← isOffset] at first others
  have here := cut?_left part others
  have last := cut?_right part others
  obtain ⟨stands, nested⟩ :=
    (Expr.chain_of_ofTokens read).1.stand (Token.inOrder_of_lex short here lexed)
  exact ⟨(stands.mono_left (Source.position_le_of_cut? short first)).mono_right
    (Source.position_le_of_cut? short last), nested⟩

/-- What a statement says is a part of the inner text of its tag. -/
theorem exists_arguments (tag : Tag) :
    ∃ before after, tag.inner = before ++ (tag.statement.arguments ++ after) ∧
      tag.statement.start = tag.innerStart + byteLength before := by
  obtain ⟨before, after, isInner, isStart, -⟩ := Statement.exists_parts tag.innerStart tag.inner
  exact ⟨before, after, isInner, isStart⟩

/-- A condition stands inside of its tag. -/
theorem holds_condition (short : source.size < 2 ^ 32 - 1) (isPiece : .tag tag ∈ source.pieces)
    (read : expression source limits tag tag.statement.arguments tag.statement.start = .ok expr) :
    source.Holds tag expr := by
  obtain ⟨before, after, isInner, isStart⟩ := exists_arguments tag
  exact holds_of_expression short isPiece isInner isStart read

/-- The source of a loop stands inside of its tag. -/
theorem holds_entries (short : source.size < 2 ^ 32 - 1) (isPiece : .tag tag ∈ source.pieces)
    {header : LoopHeader} (isHeader : LoopHeader.ofStatement tag.statement tag.inner = .ok header)
    (read : expression source limits tag header.source header.start = .ok expr) :
    source.Holds tag expr := by
  obtain ⟨before, after, isInner, isStart⟩ := exists_arguments tag
  obtain ⟨names, arguments, isSource, -⟩ := LoopHeader.exists_parts isHeader
  rw [arguments, List.append_assoc, ← List.append_assoc] at isInner
  rw [isStart, Nat.add_assoc, ← byteLength_append] at isSource
  exact holds_of_expression short isPiece isInner isSource read

end Node.Parser

/-! ### Nodes -/

namespace Node

mutual

/-- Whether nodes stand in a source between two offsets without a gap: texts are what is written
there, all other nodes are made of tags of the source, and what a block consists of stands between
its tags without a gap as well. -/
inductive Tiles (source : Source) : Nat → Nat → List Node → Prop where
  | nil {stop : Nat} : Tiles source stop stop []
  | text {start stop : Nat} {content : List Char} {rest : List Node} :
      cut? source.text start (start + byteLength content) = some content →
      Tiles source (start + byteLength content) stop rest →
      Tiles source start stop
        (.text (String.ofList content) (source.span start (start + byteLength content)) :: rest)
  | interpolation {tag : Tag} {expr : Expr} {stop : Nat} {rest : List Node} :
      .tag tag ∈ source.pieces → tag.kind = .interpolation → source.Holds tag expr →
      Tiles source tag.stop stop rest →
      Tiles source tag.start stop (.interpolation expr (source.tagSpan tag) :: rest)
  | comment {tag : Tag} {stop : Nat} {rest : List Node} :
      .tag tag ∈ source.pieces → tag.kind = .comment → Tiles source tag.stop stop rest →
      Tiles source tag.start stop (.comment (String.ofList tag.inner) (source.tagSpan tag) :: rest)
  | loop {opener closer : Tag} {item : String} {index : Option String} {entries : Expr}
      {stop : Nat} {body rest : List Node} :
      source.HasTag opener (.opens .loop) → source.HasTag closer (.closes .loop) →
      source.Holds opener entries → Tiles source opener.stop closer.start body →
      Tiles source closer.stop stop rest →
      Tiles source opener.start stop (.loop item index entries body
        ⟨source.position opener.start, source.position closer.stop⟩ :: rest)
  | choice {opener closer : Tag} {branches : List (Expr × List Node)}
      {otherwise : Option (List Node)} {stop : Nat} {rest : List Node} :
      source.HasTag opener (.opens .choice) → source.HasTag closer (.closes .choice) →
      BranchTiles source opener closer.start branches otherwise →
      Tiles source closer.stop stop rest →
      Tiles source opener.start stop (.choice branches otherwise
        ⟨source.position opener.start, source.position closer.stop⟩ :: rest)

/-- Whether the branches of a choice stand in a source without a gap, each between its own tag and
the tag of the next one, and the last one up to an offset. -/
inductive BranchTiles (source : Source) :
    Tag → Nat → List (Expr × List Node) → Option (List Node) → Prop where
  | only {tag : Tag} {condition : Expr} {stop : Nat} {body : List Node} :
      source.Holds tag condition → Tiles source tag.stop stop body →
      BranchTiles source tag stop [(condition, body)] none
  | elseIf {tag next : Tag} {condition : Expr} {stop : Nat} {body : List Node}
      {branches : List (Expr × List Node)} {otherwise : Option (List Node)} :
      source.Holds tag condition → Tiles source tag.stop next.start body →
      source.HasTag next .elseIf → BranchTiles source next stop branches otherwise →
      BranchTiles source tag stop ((condition, body) :: branches) otherwise
  | otherwise {tag next : Tag} {condition : Expr} {stop : Nat} {body last : List Node} :
      source.Holds tag condition → Tiles source tag.stop next.start body →
      source.HasTag next .otherwise → Tiles source next.stop stop last →
      BranchTiles source tag stop [(condition, body)] (some last)

end

/-! ### Bodies -/

/-- Whether the pieces between two offsets say events. -/
def SaysBetween (source : Source) (limits : Limits) (start stop : Nat) (events : List Event) :
    Prop :=
  ∃ pieces, pieces ⊆ source.pieces ∧ source.Says limits pieces events ∧
    Piece.Tiles source start stop pieces

section SaysBetween

variable {event : Event} {events before behind : List Event}

/-- Nothing is said where there are no pieces. -/
theorem SaysBetween.eq_of_nil (said : SaysBetween source limits start stop []) : start = stop := by
  obtain ⟨pieces, -, said, tiles⟩ := said
  obtain rfl := said.eq_nil
  cases tiles
  rfl

/-- The piece that says an event that belongs to no block is read as a node in its place. -/
theorem SaysBetween.leaf {node : Node} (short : source.size < 2 ^ 32 - 1)
    (said : SaysBetween source limits start stop (event :: events))
    (isLeaf : event.leaf? = some node) :
    ∃ middle, SaysBetween source limits middle stop events ∧
      ∀ rest, Tiles source middle stop rest → Tiles source start stop (node :: rest) := by
  obtain ⟨_, areAll, said, tiles⟩ := said
  obtain ⟨piece, pieces, rfl, spoken, others⟩ := said.uncons
  obtain ⟨isPiece, arePieces⟩ := List.cons_subset.mp areAll
  have read : Parser.readPiece source limits piece = .ok node :=
    readPiece_eq_ok_iff.mpr ⟨event, spoken, isLeaf⟩
  cases tiles with
  | text here behind =>
      cases read
      exact ⟨_, ⟨pieces, arePieces, others, behind⟩, fun _ => .text here⟩
  | @tag tag _ _ _ behind =>
      refine ⟨_, ⟨pieces, arePieces, others, behind⟩, fun rest tiles => ?_⟩
      cases isKind : tag.kind with
      | comment =>
          simp only [Parser.readPiece, isKind] at read
          cases read
          exact .comment isPiece isKind tiles
      | interpolation =>
          simp only [Parser.readPiece, isKind] at read
          obtain ⟨expr, spelled, same⟩ := bind_eq_ok_iff.mp read
          cases same
          -- The expression of an interpolation is the whole of its inner text.
          have isInner : tag.inner = [] ++ (tag.inner ++ []) := by simp
          exact .interpolation isPiece isKind
            (Parser.holds_of_expression short isPiece isInner rfl spelled) tiles
      | statement =>
          simp only [Parser.readPiece, isKind] at read
          cases read
  | unclosed => cases read

/-- The tag that says an event with a keyword divides what is said. -/
theorem SaysBetween.divide {keyword : Keyword}
    (said : SaysBetween source limits start stop (before ++ event :: behind))
    (isKeyword : event.keyword? = some keyword) :
    ∃ tag, source.HasTag tag keyword ∧ source.event? limits (.tag tag) = some event ∧
      SaysBetween source limits start tag.start before ∧
      SaysBetween source limits tag.stop stop behind := by
  obtain ⟨_, arePieces, said, tiles⟩ := said
  obtain ⟨left, tag, right, rfl, spelled, here, first, last⟩ := said.divide isKeyword
  obtain ⟨tilesLeft, -, tilesRight⟩ := tiles.split
  obtain ⟨areLeft, areOthers⟩ := List.append_subset.mp arePieces
  obtain ⟨isPiece, areRight⟩ := List.cons_subset.mp areOthers
  exact ⟨tag, ⟨isPiece, spelled⟩, here, ⟨left, areLeft, first, tilesLeft⟩,
    ⟨right, areRight, last, tilesRight⟩⟩

/-- The tag that says the first event stands at the start. -/
theorem SaysBetween.first {keyword : Keyword}
    (said : SaysBetween source limits start stop (event :: events))
    (isKeyword : event.keyword? = some keyword) :
    ∃ tag, source.HasTag tag keyword ∧ source.event? limits (.tag tag) = some event ∧
      start = tag.start ∧ SaysBetween source limits tag.stop stop events := by
  rw [← List.nil_append (event :: events)] at said
  obtain ⟨tag, isTag, here, none, behind⟩ := said.divide isKeyword
  exact ⟨tag, isTag, here, none.eq_of_nil, behind⟩

end SaysBetween

mutual

/-- The nodes of a body stand where the pieces do that they are read from. -/
theorem tiles_of_body (short : source.size < 2 ^ 32 - 1) : {room : Nat} → {events : List Event} →
    {nodes : List Node} → Body room events nodes → ∀ {start stop : Nat},
    SaysBetween source limits start stop events → Tiles source start stop nodes
  | _, _, _, .nil, _, _, said => said.eq_of_nil ▸ .nil
  | _, _, _, .leaf isLeaf rest, _, _, said => by
      obtain ⟨middle, others, add⟩ := said.leaf short isLeaf
      exact add _ (tiles_of_body short rest others)
  | _, _, _, .loop inside rest, _, _, said => by
      rw [List.cons_append] at said
      obtain ⟨opener, opens, here, rfl, tail⟩ := said.first rfl
      -- The closer divides what follows the opener into the inside of the block and the rest.
      obtain ⟨closer, closes, there, body, behind⟩ := tail.divide rfl
      obtain ⟨header, entries, isHeader, read, same⟩ :=
        (Source.event_loop_iff opens.isKeyword).mp here
      obtain ⟨-, same'⟩ := (Source.event_closes_iff closes.isKeyword).mp there
      cases same
      cases same'
      exact .loop opens closes (Parser.holds_entries short opens.isPiece isHeader read)
        (tiles_of_body short inside body) (tiles_of_body short rest behind)
  | _, _, _, .choice inside rest, _, _, said => by
      rw [List.cons_append] at said
      obtain ⟨opener, opens, here, rfl, tail⟩ := said.first rfl
      obtain ⟨closer, closes, there, branches, behind⟩ := tail.divide rfl
      obtain ⟨-, condition, read, same⟩ := (Source.event_choice_iff opens.isKeyword).mp here
      obtain ⟨-, same'⟩ := (Source.event_closes_iff closes.isKeyword).mp there
      cases same
      cases same'
      exact .choice opens closes (tiles_of_branches short inside
        (Parser.holds_condition short opens.isPiece read) branches)
        (tiles_of_body short rest behind)

/-- The branches of a choice stand where the pieces do that they are read from. -/
theorem tiles_of_branches (short : source.size < 2 ^ 32 - 1) : {room : Nat} → {condition : Expr} →
    {events : List Event} → {branches : List (Expr × List Node)} →
    {otherwise : Option (List Node)} → Branches room condition events branches otherwise →
    ∀ {tag : Tag} {stop : Nat}, source.Holds tag condition →
    SaysBetween source limits tag.stop stop events → BranchTiles source tag stop branches otherwise
  | _, _, _, _, _, .only body, _, _, holds, said => .only holds (tiles_of_body short body said)
  | _, _, _, _, _, .elseIf body rest, _, _, holds, said => by
      obtain ⟨next, isNext, here, before, behind⟩ := said.divide rfl
      obtain ⟨-, condition, read, same⟩ := (Source.event_elseIf_iff isNext.isKeyword).mp here
      cases same
      exact .elseIf holds (tiles_of_body short body before) isNext
        (tiles_of_branches short rest (Parser.holds_condition short isNext.isPiece read) behind)
  | _, _, _, _, _, .otherwise body last, _, _, holds, said => by
      obtain ⟨next, isNext, here, before, behind⟩ := said.divide rfl
      exact .otherwise holds (tiles_of_body short body before) isNext
        (tiles_of_body short last behind)

end

/-- The nodes of a short source stand in it without a gap. -/
theorem tiles_of_nodes {nodes : List Node} (short : source.size < 2 ^ 32 - 1)
    (read : source.nodes limits = .ok nodes) : Tiles source 0 source.size nodes := by
  obtain ⟨events, said, body⟩ := Source.nodes_iff_body.mp read
  exact tiles_of_body short body
    ⟨source.pieces, List.Subset.refl _, said, Piece.tiles_pieces source⟩

end Node

end TextTemplate
