import TextTemplate.Proofs.Expr.Moved
import TextTemplate.Proofs.Node.Alike

/-! # Pieces in other places

What a piece says depends on its form and its text. The same piece at another place, in another
source, says the same apart from places. -/

namespace TextTemplate

/-- Whether two pieces have the same form and the same text, wherever they stand. -/
inductive Piece.Moved : Piece → Piece → Prop where
  | text {content : List Char} {start start' : Nat} :
      Moved (.text content start) (.text content start')
  | tag {kind : TagKind} {inner : List Char} {start start' : Nat} :
      Moved (.tag ⟨kind, start, inner⟩) (.tag ⟨kind, start', inner⟩)
  | unclosed {kind : TagKind} {start start' : Nat} :
      Moved (.unclosed kind start) (.unclosed kind start')

namespace Piece

/-- A character in front of moved pieces. -/
theorem moved_consText (c : Char) {start start' : Nat} {pieces pieces' : List Piece}
    (moved : List.Forall₂ Moved pieces pieces') :
    List.Forall₂ Moved (consText c start pieces) (consText c start' pieces') := by
  cases moved with
  | nil => exact .cons .text .nil
  | cons first rest =>
      cases first with
      | text => exact .cons .text rest
      | tag => exact .cons .text (.cons .tag rest)
      | unclosed => exact .cons .text (.cons .unclosed rest)

/-- A text has the same pieces wherever it starts. -/
theorem moved_scan (offset offset' skip : Nat) (text : List Char) :
    List.Forall₂ Moved (scan offset skip text) (scan offset' skip text) := by
  induction text generalizing offset offset' skip with
  | nil => exact .nil
  | cons c rest ih =>
      cases skip with
      | succ skip => exact ih _ _ _
      | zero =>
          rw [scan, scan]
          split
          next => exact moved_consText c (ih _ _ _)
          next =>
            split
            next => exact .cons .unclosed .nil
            next => exact .cons .tag (ih _ _ _)

end Piece

/-- The header of a loop does not depend on the place of its statement, apart from its own. -/
theorem LoopHeader.ofStatement_moved {statement statement' : Statement}
    (same : statement'.arguments = statement.arguments) (inner : List Char) :
    ofStatement statement' inner = (ofStatement statement inner).map fun header =>
      { header with start := statement'.stop - byteLength header.source } := by
  unfold ofStatement
  rw [same]
  extract_lets malformed
  split
  next => rfl
  next =>
    extract_lets names source start start'
    clear_value names
    split
    next => rfl
    next =>
      split
      next => rfl
      next => split <;> rfl

namespace Source

variable {source source' : Source} {limits : Limits} {pieces pieces' : List Piece}
  {events : List Event}

/-- What a statement says is said wherever it stands: its keyword and what is behind it are the same
in both tags. -/
theorem event_moved_of_keyword {tag tag' : Tag} {keyword : Keyword} {event : Event}
    (here : tag.keyword? = some keyword) (there : tag'.keyword? = some keyword)
    (inner : tag'.inner = tag.inner) (same : tag'.statement.arguments = tag.statement.arguments)
    (said : source.event? limits (.tag tag) = some event) (source' : Source) :
    ∃ again, source'.event? limits (.tag tag') = some again ∧ event.Alike Eq again := by
  -- Conditions start at the arguments, but the source of a loop starts where its header does.
  have condition {expr : Expr} (read : Node.Parser.expression source limits tag
      tag.statement.arguments tag.statement.start = .ok expr) :=
    (Node.Parser.spells read).expression source' tag' tag'.statement.start
  cases keyword with
  | opens block =>
      cases block with
      | choice =>
          obtain ⟨given, expr, read, rfl⟩ := (event_choice_iff here).mp said
          obtain ⟨again, readAgain, alike⟩ := condition read
          rw [← same] at given readAgain
          exact ⟨_, (event_choice_iff there).mpr ⟨given, again, readAgain, rfl⟩, .opensChoice alike⟩
      | loop =>
          obtain ⟨header, entries, isHeader, read, rfl⟩ := (event_loop_iff here).mp said
          have moved := LoopHeader.ofStatement_moved same tag.inner
          rw [isHeader, ← inner] at moved
          obtain ⟨again, readAgain, alike⟩ := (Node.Parser.spells read).expression source'
            tag' (tag'.statement.stop - byteLength header.source)
          exact ⟨_, (event_loop_iff there).mpr ⟨_, again, moved, readAgain, rfl⟩, .opensLoop alike⟩
  | elseIf =>
      obtain ⟨given, expr, read, rfl⟩ := (event_elseIf_iff here).mp said
      obtain ⟨again, readAgain, alike⟩ := condition read
      rw [← same] at given readAgain
      exact ⟨_, (event_elseIf_iff there).mpr ⟨given, again, readAgain, rfl⟩, .elseIf alike⟩
  | otherwise =>
      obtain ⟨bare, rfl⟩ := (event_otherwise_iff here).mp said
      rw [← same] at bare
      exact ⟨_, (event_otherwise_iff there).mpr ⟨bare, rfl⟩, .otherwise⟩
  | closes block =>
      obtain ⟨bare, rfl⟩ := (event_closes_iff here).mp said
      rw [← same] at bare
      exact ⟨_, (event_closes_iff there).mpr ⟨bare, rfl⟩, .closes⟩

/-- What a piece says is said wherever it stands. -/
theorem event_moved {piece piece' : Piece} {event : Event} (moved : piece.Moved piece')
    (said : source.event? limits piece = some event) (source' : Source) :
    ∃ again, source'.event? limits piece' = some again ∧ event.Alike Eq again := by
  cases moved with
  | text =>
      cases said
      exact ⟨_, rfl, .text⟩
  | unclosed => cases said
  | @tag kind inner start start' =>
      cases kind with
      | comment =>
          cases said
          exact ⟨_, rfl, .comment⟩
      | interpolation =>
          simp only [event?, Option.map_eq_some_iff, toOption_eq_some_iff] at said ⊢
          obtain ⟨expr, read, rfl⟩ := said
          obtain ⟨again, readAgain, alike⟩ := (Node.Parser.spells read).expression source'
            ⟨.interpolation, start', inner⟩ (start' + 2)
          exact ⟨_, ⟨again, readAgain, rfl⟩, .interpolation alike⟩
      | statement =>
          -- The keyword and the arguments come from the inner text alone.
          obtain ⟨keyword, -, isKeyword⟩ := keyword_of_statementEvent said
          have here : (⟨.statement, start, inner⟩ : Tag).keyword? = some keyword := isKeyword
          have there : (⟨.statement, start', inner⟩ : Tag).keyword? = some keyword := isKeyword
          exact event_moved_of_keyword here there rfl rfl said source'

/-- What pieces say is said wherever they stand. -/
theorem Says.moved (moved : List.Forall₂ Piece.Moved pieces pieces')
    (said : source.Says limits pieces events) (source' : Source) :
    ∃ again, source'.Says limits pieces' again ∧ List.Forall₂ (Event.Alike Eq) events again := by
  induction moved generalizing events with
  | nil =>
      cases said
      exact ⟨[], says_nil, .nil⟩
  | cons first _ ih =>
      obtain ⟨event, others, here, tail, rfl⟩ := says_cons_iff.mp said
      obtain ⟨again, saidAgain, alike⟩ := event_moved first here source'
      obtain ⟨more, saidMore, alikeMore⟩ := ih tail
      exact ⟨again :: more, .cons saidAgain saidMore, .cons alike alikeMore⟩

end Source

end TextTemplate
