import TextTemplate.Proofs.Node.Outlines
import TextTemplate.Proofs.Outcome

/-! # What lists of pieces say

Pieces say something together when each of them does on its own. When that is a body, the pieces
walk back to the blocks they started from, whatever stands around them. -/

namespace TextTemplate

open Node Node.Parser

variable {source : Source} {limits : Limits}

/-! ### What lists of pieces say -/

namespace Source

/-- Whether pieces are all well formed, and what they say. -/
def Says (source : Source) (limits : Limits) (pieces : List Piece) (events : List Event) : Prop :=
  pieces.mapM (source.event? limits) = some events

variable {pieces rest : List Piece} {events others : List Event}

/-- Where there are no pieces, nothing is said. -/
theorem says_nil : source.Says limits [] [] := rfl

/-- Pieces say what the first of them says, and then the others. -/
theorem says_cons_iff {piece : Piece} :
    source.Says limits (piece :: rest) events ↔ ∃ event others,
      source.event? limits piece = some event ∧ source.Says limits rest others ∧
        events = event :: others := by
  simp [Says, List.mapM_cons, Option.bind_eq_some_iff, eq_comm (a := events)]

/-- No pieces say nothing. -/
theorem Says.eq_nil (said : source.Says limits pieces []) : pieces = [] := by
  cases pieces with
  | nil => rfl
  | cons => obtain ⟨_, _, _, _, same⟩ := says_cons_iff.mp said; cases same

/-- What one piece says comes before what is said behind it. -/
theorem Says.cons {piece : Piece} {event : Event} (said : source.event? limits piece = some event)
    (tail : source.Says limits rest events) :
    source.Says limits (piece :: rest) (event :: events) :=
  says_cons_iff.mpr ⟨event, events, said, tail, rfl⟩

/-- What two lists of pieces say comes one after the other. -/
theorem Says.append (first : source.Says limits pieces events)
    (second : source.Says limits rest others) :
    source.Says limits (pieces ++ rest) (events ++ others) := by
  rw [Says] at first second
  simp [Says, List.mapM_append, first, second]

/-- Pieces that say one list of events after another consist of pieces for each. -/
theorem Says.split (said : source.Says limits pieces (events ++ others)) :
    ∃ first second, pieces = first ++ second ∧ source.Says limits first events ∧
      source.Says limits second others := by
  induction events generalizing pieces with
  | nil => exact ⟨[], pieces, rfl, says_nil, said⟩
  | cons event events ih =>
      cases pieces with
      | nil => cases said
      | cons piece pieces =>
          obtain ⟨_, _, here, tail, same⟩ := says_cons_iff.mp said
          obtain ⟨rfl, rfl⟩ := List.cons.inj same
          obtain ⟨first, second, rfl, firstSays, secondSays⟩ := ih tail
          exact ⟨piece :: first, second, rfl, .cons here firstSays, secondSays⟩

/-- Pieces that start with one event and go on with others start with a piece for it. -/
theorem Says.uncons {event : Event} (said : source.Says limits pieces (event :: events)) :
    ∃ piece rest, pieces = piece :: rest ∧ source.event? limits piece = some event ∧
      source.Says limits rest events := by
  cases pieces with
  | nil => cases said
  | cons piece rest =>
      obtain ⟨_, _, here, tail, same⟩ := says_cons_iff.mp said
      obtain ⟨rfl, rfl⟩ := List.cons.inj same
      exact ⟨piece, rest, rfl, here, tail⟩

/-- What pieces say is said by one of them. -/
theorem Says.exists_piece (said : source.Says limits pieces events) :
    ∀ event ∈ events, ∃ piece ∈ pieces, source.event? limits piece = some event := by
  induction pieces generalizing events with
  | nil =>
      cases said
      exact nofun
  | cons piece rest ih =>
      obtain ⟨event, others, here, tail, rfl⟩ := says_cons_iff.mp said
      refine List.forall_mem_cons.mpr ⟨⟨piece, .head _, here⟩, fun other isOther => ?_⟩
      obtain ⟨found, isFound, there⟩ := ih tail other isOther
      exact ⟨found, .tail _ isFound, there⟩

/-- Each of the pieces says something. -/
theorem Says.exists_event (said : source.Says limits pieces events) :
    ∀ piece ∈ pieces, ∃ event, source.event? limits piece = some event := by
  induction pieces generalizing events with
  | nil => exact nofun
  | cons piece rest ih =>
      obtain ⟨event, others, here, tail, rfl⟩ := says_cons_iff.mp said
      exact List.forall_mem_cons.mpr ⟨⟨event, here⟩, ih tail⟩

end Source

/-! ### Statements -/

/-- The keyword that says what an event says. -/
def Event.keyword? : Event → Option Keyword
  | .text _ _ | .interpolation _ _ | .comment _ _ => none
  | .opensChoice _ _ => some (.opens .choice)
  | .opensLoop _ _ _ _ => some (.opens .loop)
  | .elseIf _ => some .elseIf
  | .otherwise => some .otherwise
  | .closes kind _ => some (.closes kind)

section Statements

variable {tag : Tag} {event : Event}

/-- Only statements have keywords. -/
theorem Tag.kind_of_keyword {keyword : Keyword} (h : tag.keyword? = some keyword) :
    tag.kind = .statement ∧ tag.statement.keyword? = some keyword := by
  unfold Tag.keyword? at h
  split at h
  next isStatement => exact ⟨isStatement, h⟩
  all_goals cases h

/-- A tag with a keyword says what its statement says. -/
theorem Source.event_of_keyword {keyword : Keyword} (h : tag.keyword? = some keyword) :
    source.event? limits (.tag tag) = source.statementEvent? limits tag := by
  rw [Source.event?, (Tag.kind_of_keyword h).1]

/-- What a statement says is what its keyword says. -/
theorem Source.keyword_of_statementEvent (said : source.statementEvent? limits tag = some event) :
    ∃ keyword, event.keyword? = some keyword ∧ tag.statement.keyword? = some keyword := by
  unfold statementEvent? at said
  match isKeyword : tag.statement.keyword? with
  | none => simp [isKeyword] at said
  | some (.opens .choice) =>
      simp only [isKeyword, Option.map_eq_some_iff] at said
      obtain ⟨_, _, rfl⟩ := said
      exact ⟨_, rfl, rfl⟩
  | some (.opens .loop) =>
      simp only [isKeyword] at said
      split at said
      next => cases said
      next header _ =>
        obtain ⟨_, _, rfl⟩ := Option.map_eq_some_iff.mp said
        exact ⟨_, rfl, rfl⟩
  | some .elseIf =>
      simp only [isKeyword, Option.map_eq_some_iff] at said
      obtain ⟨_, _, rfl⟩ := said
      exact ⟨_, rfl, rfl⟩
  | some .otherwise =>
      simp only [isKeyword, Option.ite_none_right_eq_some, Option.some.injEq] at said
      obtain ⟨_, rfl⟩ := said
      exact ⟨_, rfl, rfl⟩
  | some (.closes kind) =>
      simp only [isKeyword, Option.ite_none_right_eq_some, Option.some.injEq] at said
      obtain ⟨_, rfl⟩ := said
      exact ⟨_, rfl, rfl⟩

/-- A piece says what its keyword says; without one, it is a node of its own. -/
theorem Source.keyword_of_event {piece : Piece} (said : source.event? limits piece = some event) :
    piece.keyword? = event.keyword? ∧ piece.IsClosed := by
  cases piece with
  | text => exact ⟨by cases said; rfl, nofun⟩
  | unclosed => cases said
  | tag tag =>
      refine ⟨?_, nofun⟩
      cases kind : tag.kind with
      | interpolation =>
          simp only [event?, kind, Option.map_eq_some_iff] at said
          obtain ⟨_, _, rfl⟩ := said
          simp [Piece.keyword?, Tag.keyword?, kind, Event.keyword?]
      | comment =>
          simp only [event?, kind, Option.some.injEq] at said
          simp [← said, Piece.keyword?, Tag.keyword?, kind, Event.keyword?]
      | statement =>
          simp only [event?, kind] at said
          obtain ⟨keyword, spelled, isKeyword⟩ := keyword_of_statementEvent said
          simp [Piece.keyword?, Tag.keyword?, kind, spelled, isKeyword]

/-- The opener of a loop says its variables and what it runs through. -/
theorem Source.event_loop_iff (h : tag.keyword? = some (.opens .loop)) :
    source.event? limits (.tag tag) = some event ↔ ∃ header entries,
      LoopHeader.ofStatement tag.statement tag.inner = .ok header ∧
        Node.Parser.expression source limits tag header.source header.start = .ok entries ∧
          event = .opensLoop header.item header.index entries (source.position tag.start) := by
  rw [event_of_keyword h, statementEvent?, (Tag.kind_of_keyword h).2]
  cases LoopHeader.ofStatement tag.statement tag.inner with
  | error => simp
  | ok header => simp [Option.map_eq_some_iff, toOption_eq_some_iff, eq_comm (a := event)]

/-- The opener of a choice says its condition. -/
theorem Source.event_choice_iff (h : tag.keyword? = some (.opens .choice)) :
    source.event? limits (.tag tag) = some event ↔ tag.statement.arguments.isEmpty = false ∧
      ∃ condition,
        Node.Parser.expression source limits tag tag.statement.arguments tag.statement.start =
            .ok condition ∧
          event = .opensChoice condition (source.position tag.start) := by
  rw [event_of_keyword h, statementEvent?, (Tag.kind_of_keyword h).2]
  cases tag.statement.arguments.isEmpty <;>
    simp [Option.map_eq_some_iff, toOption_eq_some_iff, eq_comm (a := event)]

/-- The tag of a later branch says its condition. -/
theorem Source.event_elseIf_iff (h : tag.keyword? = some .elseIf) :
    source.event? limits (.tag tag) = some event ↔ tag.statement.arguments.isEmpty = false ∧
      ∃ condition,
        Node.Parser.expression source limits tag tag.statement.arguments tag.statement.start =
            .ok condition ∧
          event = .elseIf condition := by
  rw [event_of_keyword h, statementEvent?, (Tag.kind_of_keyword h).2]
  cases tag.statement.arguments.isEmpty <;>
    simp [Option.map_eq_some_iff, toOption_eq_some_iff, eq_comm (a := event)]

/-- The tag of the last branch says nothing but that, and has nothing after its word. -/
theorem Source.event_otherwise_iff (h : tag.keyword? = some .otherwise) :
    source.event? limits (.tag tag) = some event ↔
      tag.statement.arguments.isEmpty = true ∧ event = .otherwise := by
  rw [event_of_keyword h, statementEvent?, (Tag.kind_of_keyword h).2]
  cases tag.statement.arguments.isEmpty <;> simp [eq_comm (a := event)]

/-- A closer says where it stops, and has nothing after its word. -/
theorem Source.event_closes_iff {kind : BlockKind} (h : tag.keyword? = some (.closes kind)) :
    source.event? limits (.tag tag) = some event ↔
      tag.statement.arguments.isEmpty = true ∧ event = .closes kind (source.position tag.stop) := by
  rw [event_of_keyword h, statementEvent?, (Tag.kind_of_keyword h).2]
  cases tag.statement.arguments.isEmpty <;> simp [eq_comm (a := event)]

/-- A piece is read outside of blocks when it says something that belongs to no block. -/
theorem readPiece_eq_ok_iff {piece : Piece} {node : Node} :
    readPiece source limits piece = .ok node ↔
      ∃ event, source.event? limits piece = some event ∧ event.leaf? = some node := by
  cases piece with
  | text content start => simp [readPiece, Source.event?, Event.leaf?]
  | unclosed kind start => simp [readPiece, Source.event?, locate]
  | tag tag =>
      cases kind : tag.kind with
      | comment => simp [readPiece, Source.event?, kind, Event.leaf?]
      | interpolation =>
          simp only [readPiece, Source.event?, kind, Option.map_eq_some_iff, toOption_eq_some_iff]
          cases Node.Parser.expression source limits tag tag.inner tag.innerStart <;>
            simp [bind, Except.bind, pure, Except.pure, Event.leaf?]
      | statement =>
          simp only [readPiece, Source.event?, kind, reduceCtorEq, false_iff, not_exists, not_and]
          intro event said leaf
          -- A statement belongs to a block: events that are nodes of their own have no keyword.
          obtain ⟨keyword, isKeyword⟩ := Source.keyword_of_statementEvent said
          cases event <;> cases isKeyword.1 <;> cases leaf

/-- An event with a keyword comes from a tag with that keyword. -/
theorem Source.tag_of_event {piece : Piece} {keyword : Keyword}
    (said : source.event? limits piece = some event) (h : event.keyword? = some keyword) :
    ∃ tag, piece = .tag tag ∧ tag.keyword? = some keyword := by
  have same := (keyword_of_event said).1.trans h
  cases piece with
  | text => cases same
  | unclosed => cases same
  | tag tag => exact ⟨tag, rfl, same⟩

/-- The tag that says an event with a keyword divides the pieces. -/
theorem Source.Says.divide {keyword : Keyword} {before behind : List Event} {pieces : List Piece}
    (said : source.Says limits pieces (before ++ event :: behind))
    (isKeyword : event.keyword? = some keyword) :
    ∃ first tag rest, pieces = first ++ .tag tag :: rest ∧ tag.keyword? = some keyword ∧
      source.event? limits (.tag tag) = some event ∧ source.Says limits first before ∧
        source.Says limits rest behind := by
  obtain ⟨first, _, rfl, firstSays, tail⟩ := said.split
  obtain ⟨_, rest, rfl, here, after⟩ := tail.uncons
  obtain ⟨tag, rfl, spelled⟩ := tag_of_event here isKeyword
  exact ⟨first, tag, rest, rfl, spelled, here, firstSays, after⟩

/-- The tags that say where a block starts and ends enclose the pieces that say what is inside. -/
theorem Source.Says.block {opens closes : Keyword} {last : Event} {inside behind : List Event}
    {pieces : List Piece}
    (said : source.Says limits pieces (event :: inside ++ last :: behind))
    (isOpens : event.keyword? = some opens) (isCloses : last.keyword? = some closes) :
    ∃ opener enclosed closer rest, pieces = .tag opener :: (enclosed ++ .tag closer :: rest) ∧
      (opener.keyword? = some opens ∧ source.event? limits (.tag opener) = some event) ∧
      (closer.keyword? = some closes ∧ source.event? limits (.tag closer) = some last) ∧
      source.Says limits enclosed inside ∧ source.Says limits rest behind := by
  obtain ⟨_, closer, rest, rfl, closes, there, front, after⟩ := said.divide isCloses
  obtain ⟨_, enclosed, rfl, here, insideSays⟩ := front.uncons
  obtain ⟨opener, rfl, opens⟩ := tag_of_event here isOpens
  exact ⟨opener, enclosed, closer, rest, rfl, ⟨opens, here⟩, ⟨closes, there⟩, insideSays, after⟩

end Statements

/-! ### Bodies pass through outlines -/

section Walks

variable {room bound : Nat}

mutual

/-- The pieces of a body leave as many blocks open as there were, and open no more than there is
room for. -/
theorem walk_body : {room : Nat} → {events : List Event} → {nodes : List Node} →
    Body room events nodes → ∀ {pieces : List Piece} {nested : List OpenBlock},
    source.Says limits pieces events → nested.length + 1 + room ≤ bound →
    Walk bound nested pieces nested
  | _, _, _, .nil, _, _, said, _ => by
      rw [said.eq_nil]
      exact .nil
  | _, _, _, @Body.leaf _ event _ _ _ isLeaf rest, _, _, said, fits => by
      obtain ⟨piece, others, rfl, here, said⟩ := said.uncons
      have keyword := Source.keyword_of_event here
      have plain : event.keyword? = none := by cases event <;> first | rfl | cases isLeaf
      exact .plain keyword.2 (keyword.1.trans plain) (walk_body rest said fits)
  | _, _, _, .loop inside rest, _, nested, said, fits => by
      obtain ⟨opener, _, _, _, rfl, ⟨opens, -⟩, ⟨closes, -⟩, insideSays, after⟩ := said.block rfl rfl
      -- One more block is open inside, and the body has one level less to nest in.
      have deeper : Walk bound (⟨.loop, opener⟩ :: nested) _ (⟨.loop, opener⟩ :: nested) :=
        walk_body inside insideSays (by rw [List.length_cons]; omega)
      exact .opens opens (by omega) (deeper.append
        (.closes closes (walk_body rest after fits)))
  | _, _, _, .choice inside rest, _, nested, said, fits => by
      obtain ⟨opener, _, _, _, rfl, ⟨opens, -⟩, ⟨closes, -⟩, insideSays, after⟩ := said.block rfl rfl
      exact .opens opens (by omega) ((walk_branches inside insideSays (by omega)).append
        (.closes closes (walk_body rest after fits)))

/-- The pieces of branches keep the choice open that they belong to. -/
theorem walk_branches : {room : Nat} → {condition : Expr} → {events : List Event} →
    {branches : List (Expr × List Node)} → {otherwise : Option (List Node)} →
    Branches room condition events branches otherwise →
    ∀ {pieces : List Piece} {block : OpenBlock} {nested : List OpenBlock},
    source.Says limits pieces events → nested.length + 1 + (room + 1) ≤ bound →
    Walk bound (block :: nested) pieces (block :: nested)
  | _, _, _, _, _, .only body, _, _, _, said, fits =>
      walk_body body said (by rw [List.length_cons]; omega)
  | _, _, _, _, _, .elseIf body rest, _, _, _, said, fits => by
      obtain ⟨_, _, _, rfl, keyword, -, firstSays, after⟩ := said.divide rfl
      exact (walk_body body firstSays (by rw [List.length_cons]; omega)).append
        (.branch keyword (.inl rfl) (walk_branches rest after fits))
  | _, _, _, _, _, .otherwise body last, _, _, _, said, fits => by
      obtain ⟨_, _, _, rfl, keyword, -, firstSays, after⟩ := said.divide rfl
      exact (walk_body body firstSays (by rw [List.length_cons]; omega)).append
        (.branch keyword (.inr rfl) (walk_body last after (by rw [List.length_cons]; omega)))

end

end Walks

end TextTemplate
