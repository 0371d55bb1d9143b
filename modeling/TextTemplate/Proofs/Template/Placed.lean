import TextTemplate.Proofs.Node.Closers
import TextTemplate.Proofs.Template.Printed
import TextTemplate.Proofs.Text.Bytes

/-! # Expressions in tags

An expression means the same wherever it is written. Its text is an expression on its own exactly as
in an interpolation, behind the word of a choice, and as the source of a loop: the tag ends at the
closer behind it, and the template has the same tree there, apart from spans. -/

namespace TextTemplate

/-! ### Places -/

/-- A place of a template that an expression is written in. -/
inductive Place where
  /-- An interpolation. -/
  | shown
  /-- The first condition of a choice. -/
  | condition
  /-- The source of a loop with a variable for its entries. -/
  | entries (item : String)

namespace Place

/-- The form of the tag. -/
def kind : Place → TagKind
  | .shown => .interpolation
  | .condition | .entries _ => .statement

/-- What stands in the tag in front of the expression. -/
def before : Place → List Char
  | .shown => []
  | .condition => " if ".toList
  | .entries item => " for ".toList ++ (item.toList ++ " in ".toList)

/-- What stands in the tag behind the expression. -/
def after : Place → List Char
  | .shown => []
  | .condition | .entries _ => [' ']

/-- The inner text of the tag around the text of an expression. -/
def inner (place : Place) (text : List Char) : List Char := place.before ++ (text ++ place.after)

/-- The tag around the text of an expression, at the start of a template. -/
def tag (place : Place) (text : List Char) : Tag := ⟨place.kind, 0, place.inner text⟩

/-- The text of the tag. -/
def written (place : Place) (text : List Char) : List Char := place.kind.wrap (place.inner text)

/-- The text of the tag that closes the block which the expression's tag opens, if it opens one. -/
def closer : Place → List Char
  | .shown => []
  | .condition => "\x7b% endif %\x7d".toList
  | .entries _ => "\x7b% endfor %\x7d".toList

/-- The node of the expression in its place, with nothing in its block. -/
def node : Place → Expr → Span → Node
  | .shown, expr, span => .interpolation expr span
  | .condition, expr, span => .choice [(expr, [])] none span
  | .entries item, expr, span => .loop item none expr [] span

/-- Whether the names in front of the expression may stand there. -/
def IsAllowed : Place → Prop
  | .shown | .condition => True
  | .entries item => IsLoopName item

/-- What the tag says about the expression. -/
def event : Place → Expr → Span → Event
  | .shown, expr, span => .interpolation expr span
  | .condition, expr, span => .opensChoice expr span.start
  | .entries item, expr, span => .opensLoop item none expr span.start

variable {limits : Limits} {text : List Char} {expr : Expr} {place : Place}

/-- What stands in front of the expression means nothing where tags end. -/
theorem isInert_before (allowed : place.IsAllowed) : ∀ c ∈ place.before, IsInert c := by
  cases place with
  | shown => exact nofun
  | condition => simp [before, IsInert]
  | entries item =>
      have names : ∀ c ∈ item.toList, IsInert c := fun c isMember =>
        isInert_of_isPathChar (by simp [Token.isPathChar, allowed.isWord.isNameChar c isMember])
      have words : (∀ c ∈ " for ".toList, IsInert c) ∧ ∀ c ∈ " in ".toList, IsInert c := by
        simp [IsInert]
      exact List.forall_mem_append.mpr ⟨words.1, List.forall_mem_append.mpr ⟨names, words.2⟩⟩

/-- The tag ends at the closer behind the expression, whatever follows. -/
theorem innerLength?_inner (spells : Spells limits text expr) (allowed : place.IsAllowed)
    (rest : List Char) :
    place.kind.innerLength? (place.inner text ++ (place.kind.closer ++ rest)) =
      some (place.inner text).length := by
  have behind : ∀ c ∈ place.after, IsInert c := by
    cases place <;> simp [after, IsInert]
  have noBrace : place.kind = .statement →
      (place.after ++ (place.kind.closer ++ rest)).head? ≠ some '\x7d' := by
    cases place <;> simp [kind, after]
  have passes : place.kind.Passes (place.inner text) (place.kind.closer ++ rest) :=
    .append (isSealed_of_inert (isInert_before allowed) _ _)
      (.append (spells.passes noBrace) (isSealed_of_inert behind _ _))
  have closes := passes.closes
  cases place <;> simp only [kind] at closes <;> simp [TagKind.innerLength?, kind, closes]

/-- The first piece of a template that starts with the tag is the tag. -/
theorem pieces_written (spells : Spells limits text expr) (allowed : place.IsAllowed)
    (name : String) (rest : List Char) :
    (⟨name, place.written text ++ rest⟩ : Source).pieces =
      .tag (place.tag text) :: Piece.scan (byteLength (place.written text)) 0 rest := by
  have found := Piece.scan_wrap (innerLength?_inner spells allowed rest) 0
  rwa [Nat.zero_add] at found

/-! ### What the tag says -/

/-- Blanks around a text that spells an expression are taken off together with the separators at its
ends. What stands in front of the text keeps the separators behind it. -/
theorem exists_trimmed (spells : Spells limits text expr) :
    ∃ before middle, (∀ c ∈ before, isBlank c = true) ∧ IsTrimmed middle ∧
      Spells limits middle expr ∧ trim (' ' :: (text ++ [' '])) = middle ∧
      ∀ front gap, IsTrimmed front →
        trim (' ' :: (front ++ (gap ++ (text ++ [' '])))) =
          front ++ (gap ++ (before ++ middle)) := by
  obtain ⟨before, middle, after, rfl, areBefore, areAfter, spells, trimmed⟩ := spells.exists_trimmed
  have blanks : ∀ c ∈ before, isBlank c = true := fun c isMember =>
    Token.isBlank_of_isSeparator (areBefore c isMember)
  have first : ∀ c ∈ [' '], isBlank c = true := List.forall_mem_singleton.mpr rfl
  have last : ∀ c ∈ after ++ [' '], isBlank c = true :=
    List.forall_mem_append.mpr ⟨fun c isMember => Token.isBlank_of_isSeparator (areAfter c isMember),
      first⟩
  refine ⟨before, middle, blanks, trimmed, spells, ?_, fun front gap starts => ?_⟩
  · have around := trimmed.trim_around (List.forall_mem_append.mpr ⟨first, blanks⟩) last
    simpa using around
  · have around := (starts.between trimmed (gap ++ before)).trim_around first last
    simpa using around

/-- The tag says the tree that its expression is on its own, apart from spans. -/
theorem exists_event (spells : Spells limits text expr) (allowed : place.IsAllowed)
    (source : Source) :
    ∃ again, expr.Alike Eq again ∧ source.event? limits (.tag (place.tag text)) =
      some (place.event again (source.tagSpan (place.tag text))) := by
  obtain ⟨before, middle, areBlank, trimmed, spellsMiddle, around, behind⟩ := exists_trimmed spells
  cases place with
  | shown =>
      let tag := shown.tag text
      obtain ⟨again, read, alike⟩ := spells.expression source tag tag.innerStart
      have inner : tag.inner = text := List.append_nil text
      have event : source.event? limits (.tag tag) =
          (Node.Parser.expression source limits tag tag.inner tag.innerStart).toOption.map
            (.interpolation · (source.tagSpan tag)) := rfl
      exact ⟨again, alike, by rw [event, inner, read]; rfl⟩
  | condition =>
      let tag := condition.tag text
      have isIf : IsWord "if".toList := .of_check rfl
      have stops : StopsRun isNameChar (' ' :: (text ++ [' '])) := stopsRun_cons.mpr rfl
      obtain ⟨word, arguments⟩ := Statement.ofText_word isIf stops tag.innerStart
      rw [around] at arguments
      have same : tag.statement.arguments = middle := arguments
      obtain ⟨again, read, alike⟩ := spellsMiddle.expression source tag tag.statement.start
      have opens : tag.keyword? = some (.opens .choice) := Tag.keyword_of_word word
      have given : tag.statement.arguments.isEmpty = false := by
        simpa [same] using trimmed.ne_nil
      rw [← same] at read
      exact ⟨again, alike, (Source.event_choice_iff opens).mpr ⟨given, again, read, rfl⟩⟩
  | entries item =>
      let tag := (entries item).tag text
      let rest := ' ' :: (item.toList ++ (" in ".toList ++ (text ++ [' '])))
      have inner : tag.inner = ' ' :: ("for".toList ++ rest) := by
        simp [tag, rest, Place.tag, Place.inner, Place.before, Place.after]
      have isFor : IsWord "for".toList := .of_check rfl
      have stops : StopsRun isNameChar rest := stopsRun_cons.mpr rfl
      obtain ⟨word, arguments⟩ := Statement.ofText_word isFor stops tag.innerStart
      rw [behind _ _ allowed.isWord.isTrimmed, ← inner] at arguments
      rw [← inner] at word
      -- The blanks around the expression are taken off before it is read, and so they are behind
      -- the word.
      have start : trimStart (before ++ middle) = middle := by
        have whole := trimmed.trimStart_append []
        rw [List.append_nil] at whole
        rw [trimStart, List.dropWhile_append_of_pos areBlank]
        exact whole
      have noIndex : ∀ name ∈ (none : Option String), IsLoopName name := by simp
      obtain ⟨start, isHeader⟩ := LoopHeader.ofStatement_names allowed noIndex start
        trimmed.ne_nil tag.statement arguments tag.inner
      obtain ⟨again, read, alike⟩ := spellsMiddle.expression source tag start
      have opens : tag.keyword? = some (.opens .loop) := Tag.keyword_of_word word
      exact ⟨again, alike, (Source.event_loop_iff opens).mpr ⟨_, again, isHeader, read, rfl⟩⟩

/-! ### The whole template -/

/-- The text of the tag that closes a block is found, and says so. -/
theorem says_closing (block : BlockKind) (source : Source) (limits : Limits) (offset : Nat) :
    ∃ stop, source.Says limits (Piece.scan offset 0 (Event.closes block .first).print)
      [.closes block stop] := by
  have written : (Event.closes block .first).IsWritten limits := .closes
  obtain ⟨closes, reads⟩ := written.isReadFrom rfl
  obtain ⟨again, said, alike⟩ := reads source offset
  cases alike with
  | @closes _ _ stop =>
      have found := Piece.scan_wrap (closes []) offset
      rw [List.append_nil] at found
      rw [Event.print]
      simp only [Event.tag?, Event.statement?, Option.map_some]
      rw [found]
      exact ⟨stop, .cons said Source.says_nil⟩

/-- A template of the tag and of the tag that closes its block has one node, for the tree that the
expression is on its own. -/
theorem exists_nodes (spells : Spells limits text expr) (allowed : place.IsAllowed)
    (room : 1 ≤ limits.maxBlockDepth) (name : String) :
    ∃ again span, expr.Alike Eq again ∧
      (⟨name, place.written text ++ place.closer⟩ : Source).nodes limits =
        .ok [place.node again span] := by
  let source : Source := ⟨name, place.written text ++ place.closer⟩
  obtain ⟨again, alike, said⟩ := exists_event spells allowed source
  let span := source.tagSpan (place.tag text)
  have whole {events : List Event} (behind : source.Says limits
      (Piece.scan (byteLength (place.written text)) 0 place.closer) events) :
      source.Says limits source.pieces (place.event again span :: events) := by
    rw [pieces_written spells allowed name place.closer]
    exact .cons said behind
  -- A block takes one level, though there is nothing in it.
  obtain ⟨depth, enough⟩ := Nat.exists_eq_add_of_le' room
  cases place with
  | shown =>
      have body : Node.Body limits.maxBlockDepth [.interpolation again span]
          [.interpolation again span] := .leaf rfl .nil
      exact ⟨again, _, alike, Source.nodes_iff_body.mpr ⟨_, whole Source.says_nil, body⟩⟩
  | condition =>
      obtain ⟨stop, closes⟩ := says_closing .choice source limits _
      have body : Node.Body (depth + 1) [.opensChoice again span.start, .closes .choice stop]
          [.choice [(again, [])] none ⟨span.start, stop⟩] := .choice (.only .nil) .nil
      rw [← enough] at body
      exact ⟨again, _, alike, Source.nodes_iff_body.mpr ⟨_, whole closes, body⟩⟩
  | entries item =>
      obtain ⟨stop, closes⟩ := says_closing .loop source limits _
      have body : Node.Body (depth + 1) [.opensLoop item none again span.start, .closes .loop stop]
          [.loop item none again [] ⟨span.start, stop⟩] := .loop .nil .nil
      rw [← enough] at body
      exact ⟨again, _, alike, Source.nodes_iff_body.mpr ⟨_, whole closes, body⟩⟩

end Place

namespace Template

variable {text : List Char} {limits : Limits} {expr : Expr}

/-- A text that is an expression on its own is the same expression, apart from spans, in an
interpolation, as the condition of a choice and as the source of a loop. The first piece of a
template that starts with the tag around it is that tag, which ends at the closer behind the text,
whatever follows; and with the tag that closes the block, if there is one, it is a template of one
node for the expression. -/
theorem compile_written {source : Source} (read : source.expression limits = .ok expr)
    (room : 1 ≤ limits.maxBlockDepth) (place : Place) (allowed : place.IsAllowed) (name : String) :
    ((place.tag source.text).stop = byteLength (place.written source.text) ∧
      ∀ rest, (⟨name, place.written source.text ++ rest⟩ : Source).pieces.head? =
        some (.tag (place.tag source.text))) ∧
      ∃ again span, expr.Alike Eq again ∧
        compile ⟨name, place.written source.text ++ place.closer⟩ limits =
          .ok ⟨name, String.ofList (place.written source.text ++ place.closer),
            [place.node again span]⟩ := by
  have spells := source.spells read
  refine ⟨⟨?_, fun rest => ?_⟩, ?_⟩
  · rw [Tag.stop_eq]
    exact Nat.zero_add _
  · rw [Place.pieces_written spells allowed]
    rfl
  · obtain ⟨again, span, alike, nodes⟩ := Place.exists_nodes spells allowed room name
    exact ⟨again, span, alike, compile_of_nodes nodes⟩

/-- An expression with closers, tags and the word of a loop in its strings, with separators around
it. -/
theorem compile_written_of_strings :
    let source : Source := ⟨"expression",
      "\t[\"%\x7d in \\\"\x7d\x7d\", '\x7b% if x %\x7d'] == a % -2\n".toList⟩
    (1 ≤ ({} : Limits).maxBlockDepth ∧ (Place.entries "item").IsAllowed) ∧
      ∃ expr, source.expression {} = .ok expr ∧
        ∀ place : Place, place = .shown ∨ place = .condition ∨ place = .entries "item" →
          ∃ again span, expr.Alike Eq again ∧
            compile ⟨"template", place.written source.text ++ place.closer⟩ {} =
              .ok ⟨"template", String.ofList (place.written source.text ++ place.closer),
                [place.node again span]⟩ := by
  intro source
  have allowed : IsLoopName "item" := ⟨by decide, by decide⟩
  refine ⟨⟨by decide, allowed⟩, ?_⟩
  have reads : (source.expression {}).toOption.isSome = true := by
    decide +kernel
  obtain ⟨expr, read⟩ := Option.isSome_iff_exists.mp reads
  rw [toOption_eq_some_iff] at read
  refine ⟨expr, read, ?_⟩
  rintro place (rfl | rfl | rfl)
  · exact (compile_written read (by decide) .shown trivial "template").2
  · exact (compile_written read (by decide) .condition trivial "template").2
  · exact (compile_written read (by decide) (.entries "item") allowed "template").2

end Template

end TextTemplate
