import TextTemplate.Proofs.Expr.Moved
import TextTemplate.Proofs.Node.Scanned
import TextTemplate.Proofs.Node.Words

/-! # Where tags close

Reading a tag and looking for its closer agree on where strings end. So in every tag that says
something the closer stands outside of the strings, and what follows the tag has no part in it. -/

namespace TextTemplate

/-! ### Strings -/

namespace TagKind

variable {kind : TagKind} {quote : Char} {run length : Nat} {c : Char} {rest : List Char}

/-- In a string a character that is no backslash ends the string or belongs to it alone. -/
theorem unquotedCloser?_cons (notBackslash : c ≠ '\\') :
    kind.unquotedCloser? (some quote) (c :: rest) =
      (kind.unquotedCloser? (if c = quote then none else some quote) rest).map (· + 1) := by
  rw [unquotedCloser?]
  exact fun _ _ same => absurd same notBackslash

/-- A string ends for the search of a closer where it ends for the tokens: passing over what a
backslash takes with it comes to the same as counting the backslashes in front of a quote. -/
theorem unquotedCloser?_string (kind : TagKind) (notBackslash : '\\' ≠ quote) :
    (text : List Char) → ∀ {run length : Nat}, run % 2 = 0 →
    Token.closingQuote? quote run text = some length →
    kind.unquotedCloser? (some quote) text =
      (kind.unquotedCloser? none (text.drop (length + 1))).map (· + (length + 1))
  | [], _, _, _, closes => nomatch closes
  | [c], run, length, even, closes => by
      rw [Token.closingQuote?] at closes
      split at closes
      next here =>
        cases closes
        rw [here.1, unquotedCloser?_cons (fun backslash => notBackslash backslash.symm), if_pos rfl]
        rfl
      next => cases closes
  | c :: d :: rest, run, length, even, closes => by
      by_cases backslash : c = '\\'
      · subst backslash
        -- The backslash takes the next character with it, even if that is the quote or a backslash.
        have odd : ¬(d = quote ∧ (run + 1) % 2 = 0) := fun both => by omega
        rw [Token.closingQuote?, if_neg (fun both => notBackslash both.1), if_pos rfl,
          Token.closingQuote?, if_neg odd, Option.map_map] at closes
        obtain ⟨length, there, rfl⟩ := Option.map_eq_some_iff.mp closes
        have after : (if d = '\\' then run + 1 + 1 else 0) % 2 = 0 := by
          split <;> omega
        rw [unquotedCloser?, unquotedCloser?_string kind notBackslash rest after there, Option.map_map]
        rfl
      · rw [unquotedCloser?_cons backslash]
        rw [Token.closingQuote?] at closes
        split at closes
        next here =>
          cases closes
          rw [if_pos here.1]
          rfl
        next notHere =>
          obtain ⟨before, there, rfl⟩ := Option.map_eq_some_iff.mp closes
          rw [if_neg (fun isQuote => notHere ⟨isQuote, even⟩),
            unquotedCloser?_string kind notBackslash (d :: rest) (Nat.zero_mod 2) there, Option.map_map]
          rfl

/-! ### Texts without closers -/

/-- Whether the search for a closer passes over a text that is in front of another. -/
def Passes (kind : TagKind) (text rest : List Char) : Prop :=
  kind.unquotedCloser? none (text ++ rest) =
    (kind.unquotedCloser? none rest).map (· + text.length)

/-- The search passes over two texts one after the other. -/
theorem Passes.append {left right : List Char} (first : kind.Passes left (right ++ rest))
    (second : kind.Passes right rest) : kind.Passes (left ++ right) rest := by
  rw [Passes, List.append_assoc, first, second, Option.map_map, List.length_append, Nat.add_comm]
  simp only [Function.comp_def, Nat.add_assoc]

/-- A text that is passed over up to a closer is the inner text of a tag. -/
theorem Passes.closes {inner : List Char} (passes : kind.Passes inner (kind.closer ++ rest)) :
    kind.unquotedCloser? none (inner ++ (kind.closer ++ rest)) = some inner.length := by
  rw [passes]
  cases kind <;> simp [closer, closingMarker, unquotedCloser?, List.isPrefixOf]

/-- No closer starts among solid characters, unless the brace of one comes next. -/
theorem passes_of_solid {text : List Char} (solid : ∀ c ∈ text, Token.IsSolid c)
    (noBrace : kind = .statement → rest.head? ≠ some '\x7d') : kind.Passes text rest := by
  induction text with
  | nil => simp [Passes]
  | cons c more ih =>
      obtain ⟨first, others⟩ := List.forall_mem_cons.mp solid
      have quiet := first.quiet
      simp only [List.mem_cons, List.not_mem_nil, or_false, not_or] at quiet
      obtain ⟨noQuote, noApostrophe, noClosing, noSign⟩ := quiet
      -- A closer has two characters: one that is not solid, or a percent sign and a brace.
      have noCloser : ¬kind.closer.isPrefixOf (c :: (more ++ rest)) = true := by
        rw [isPrefixOf_closer]
        rintro ⟨isMarker, isBrace⟩
        cases kind with
        | interpolation => exact noClosing isMarker
        | comment => exact noSign isMarker
        | statement =>
            cases more with
            | nil => exact noBrace rfl isBrace
            | cons d more =>
                cases isBrace
                exact absurd (others _ (.head _)).quiet (by decide)
      rw [Passes, List.cons_append, unquotedCloser?, if_neg (not_or.mpr ⟨noQuote, noApostrophe⟩),
        if_neg noCloser, ih others, Option.map_map]
      rfl

/-- A token is passed over. -/
theorem passes_of_taken {text : List Char} (isTaken : Token.Taken text)
    (noBrace : kind = .statement → rest.head? ≠ some '\x7d') : kind.Passes text rest := by
  cases isTaken with
  | solid _ solid => exact passes_of_solid solid noBrace
  | @quoted quote inside isQuote always =>
      have notBackslash : '\\' ≠ quote := by
        rcases isQuote with rfl | rfl <;> decide
      have string := unquotedCloser?_string kind notBackslash _ (Nat.zero_mod 2) (always rest)
      rw [Passes, List.cons_append, List.append_assoc, List.singleton_append, unquotedCloser?,
        if_pos isQuote, string, Option.map_map]
      have behind : (inside ++ quote :: rest).drop (inside.length + 1) = rest := by simp
      rw [behind]
      simp [Function.comp_def, Nat.add_assoc]

/-- What is cut into tokens does not start with the brace of a closer. -/
theorem head?_of_cuts {previous : Option TokenKind} {text : List Char} {kinds : List TokenKind}
    (cuts : Token.Cuts previous text kinds) : text.head? ≠ some '\x7d' := by
  intro isBrace
  cases cuts with
  | nil => cases isBrace
  | separator separates =>
      cases isBrace
      cases separates
  | token _ isTaken =>
      cases isBrace
      rcases isTaken.head with solid | quote | quote
      · exact absurd solid.quiet (by decide)
      · cases quote
      · cases quote

/-- What is cut into tokens is passed over, whatever its strings hold. -/
theorem passes_of_cuts {previous : Option TokenKind} {text : List Char} {kinds : List TokenKind}
    (cuts : Token.Cuts previous text kinds)
    (noBrace : kind = .statement → rest.head? ≠ some '\x7d') : kind.Passes text rest := by
  induction cuts with
  | nil => simp [Passes]
  | @separator _ c more _ separates _ ih =>
      have isInert : IsInert c := by
        rcases Token.of_isSeparator separates with rfl | rfl | rfl | rfl | rfl <;> simp [IsInert]
      have first : IsSealed [c] := isSealed_of_inert (by simpa using isInert)
      exact Passes.append (first kind _) ih
  | @token _ c taken more _ _ _ isTaken _ cuts ih =>
      refine Passes.append (passes_of_taken isTaken fun isStatement => ?_) ih
      cases more with
      | nil => exact noBrace isStatement
      | cons d more => simpa using head?_of_cuts cuts

end TagKind

/-! ### Statements -/

/-- Blanks mean nothing where tags end. -/
theorem isInert_of_isBlank {c : Char} (isBlank : isBlank c = true) : IsInert c := by
  intro isMember
  simp only [List.mem_cons, List.not_mem_nil, or_false] at isMember
  rcases isMember with rfl | rfl | rfl | rfl | rfl <;> cases isBlank

/-- What is trimmed off in front is blank. -/
theorem exists_trimStart (text : List Char) :
    ∃ blanks, text = blanks ++ trimStart text ∧ ∀ c ∈ blanks, isBlank c = true :=
  ⟨text.takeWhile isBlank, (List.takeWhile_append_dropWhile ..).symm,
    List.all_eq_true.mp List.all_takeWhile⟩

/-- What is trimmed off behind is blank. -/
theorem exists_trimEnd (text : List Char) :
    ∃ blanks, text = trimEnd text ++ blanks ∧ ∀ c ∈ blanks, isBlank c = true := by
  refine ⟨(text.reverse.takeWhile isBlank).reverse, ?_, fun c isMember => ?_⟩
  · rw [trimEnd, ← List.reverse_append, List.takeWhile_append_dropWhile, List.reverse_reverse]
  · exact List.all_eq_true.mp List.all_takeWhile c (List.mem_reverse.mp isMember)

/-- A character of a text is a blank or stands in what is left when it is trimmed. -/
theorem isBlank_or_mem_trim {c : Char} {text : List Char} (isMember : c ∈ text) :
    isBlank c = true ∨ c ∈ trim text := by
  obtain ⟨before, whole, areBefore⟩ := exists_trimStart text
  obtain ⟨after, start, areAfter⟩ := exists_trimEnd (trimStart text)
  rw [whole, start, ← trim] at isMember
  rcases List.mem_append.mp isMember with isBefore | isMember
  · exact .inl (areBefore c isBefore)
  · exact (List.mem_append.mp isMember).symm.imp_left (areAfter c)

/-- What a statement says stands between its word, with blanks around it, and other blanks. -/
theorem Statement.exists_parts (offset : Nat) (text : List Char) :
    ∃ before after, text = before ++ ((ofText offset text).arguments ++ after) ∧
      (ofText offset text).start = offset + byteLength before ∧
      (∀ c ∈ before, IsInert c) ∧ ∀ c ∈ after, isBlank c = true := by
  obtain ⟨blanks, whole, areBlank⟩ := exists_trimStart text
  generalize isBody : trimStart text = body at whole
  have word : body.takeWhile isNameChar ++ body.drop (body.takeWhile isNameChar).length = body :=
    List.prefix_iff_eq_append.mp (List.takeWhile_prefix isNameChar)
  obtain ⟨between, rest, areBetween⟩ :=
    exists_trimStart (body.drop (body.takeWhile isNameChar).length)
  generalize isArguments :
    trimStart (body.drop (body.takeWhile isNameChar).length) = trimmed at rest
  obtain ⟨after, arguments, areAfter⟩ := exists_trimEnd trimmed
  -- From the outside in: the blanks in front, the word, the blanks behind it, and the blanks at the
  -- end.
  have isText : text = blanks ++ body.takeWhile isNameChar ++ between ++ trimmed := by
    rw [List.append_assoc, List.append_assoc, ← rest, word, ← whole]
  refine ⟨blanks ++ body.takeWhile isNameChar ++ between, after, ?_, ?_, ?_, areAfter⟩
  · simp only [ofText, isBody, isArguments]
    rw [← arguments, ← isText]
  · simp only [ofText, isBody, isArguments]
    rw [congrArg byteLength isText, byteLength_append, Nat.add_sub_cancel]
  · intro c isMember
    rcases List.mem_append.mp isMember with isMember | isBlank
    · rcases List.mem_append.mp isMember with isBlank | isName
      · exact isInert_of_isBlank (areBlank c isBlank)
      · have isName := List.all_eq_true.mp List.all_takeWhile c isName
        exact isInert_of_isPathChar (by simp [Token.isPathChar, isName])
    · exact isInert_of_isBlank (areBetween c isBlank)

namespace LoopHeader

/-- Only the word `in` starts with it. -/
theorem eq_of_startsWithIn {text : List Char} (starts : startsWithIn text = true) :
    text = "in".toList ++ text.drop 2 := by
  unfold startsWithIn at starts
  split at starts
  next => rfl
  next => cases starts

/-- The word that a header is split at stands between its parts. -/
theorem eq_of_splitAtIn? {text before after : List Char}
    (split : splitAtIn? text = some (before, after)) :
    text = before ++ ("in".toList ++ after) := by
  induction text generalizing before with
  | nil => cases split
  | cons c rest ih =>
      rw [splitAtIn?] at split
      split at split
      next here =>
        cases split
        rw [← eq_of_startsWithIn here.2]
        rfl
      next =>
        obtain ⟨⟨front, behind⟩, there, same⟩ := Option.map_eq_some_iff.mp split
        cases same
        rw [List.cons_append, ← ih there]

/-- A character of a text is a comma or stands between commas. -/
theorem mem_splitAtCommas {c : Char} {text : List Char} (isMember : c ∈ text) :
    c = ',' ∨ ∃ part ∈ splitAtCommas text, c ∈ part := by
  induction text with
  | nil => cases isMember
  | cons d rest ih =>
      rw [splitAtCommas]
      split
      next isComma =>
        rcases List.mem_cons.mp isMember with rfl | isRest
        · exact .inl isComma
        · refine (ih isRest).imp_right ?_
          rintro ⟨part, isPart, isMember⟩
          exact ⟨part, .tail _ isPart, isMember⟩
      next =>
        split
        -- The character goes to the first of the parts behind it.
        next part others parts =>
          rw [parts] at ih
          rcases List.mem_cons.mp isMember with rfl | isRest
          · exact .inr ⟨_, .head _, .head _⟩
          · refine (ih isRest).imp_right ?_
            rintro ⟨found, isPart, isMember⟩
            rcases List.mem_cons.mp isPart with rfl | isOther
            · exact ⟨_, .head _, .tail _ isMember⟩
            · exact ⟨found, .tail _ isOther, isMember⟩
        next parts =>
          rw [parts] at ih
          rcases List.mem_cons.mp isMember with rfl | isRest
          · exact .inr ⟨_, .head _, .head _⟩
          · refine (ih isRest).imp_right ?_
            rintro ⟨_, isPart, -⟩
            cases isPart

/-- The names of a header mean nothing where tags end. -/
theorem isInert_of_names {text : List Char}
    (areNames : ((splitAtCommas text).map trim).all isName = true) : ∀ c ∈ text, IsInert c := by
  intro c isMember
  rcases mem_splitAtCommas isMember with rfl | ⟨part, isPart, isMember⟩
  · simp [IsInert]
  rcases isBlank_or_mem_trim isMember with isBlank | isMember
  · exact isInert_of_isBlank isBlank
  · have isName := List.all_eq_true.mp areNames _ (List.mem_map_of_mem isPart)
    rw [LoopHeader.isName, Bool.and_eq_true, List.all_eq_true] at isName
    exact isInert_of_isPathChar (by simp [Token.isPathChar, isName.2 c isMember])

/-- The header of a loop ends with its source, and nothing in front of it means anything where tags
end. -/
theorem exists_parts {statement : Statement} {inner : List Char} {header : LoopHeader}
    (read : ofStatement statement inner = .ok header) :
    ∃ before, statement.arguments = before ++ header.source ∧
      header.start = statement.start + byteLength before ∧ ∀ c ∈ before, IsInert c := by
  unfold ofStatement at read
  extract_lets malformed at read
  split at read
  next => cases read
  next before after split =>
    extract_lets names source start at read
    split at read
    next => cases read
    next =>
      split at read
      next => cases read
      next wellFormed =>
        have areNames : ((splitAtCommas before).map trim).all isName = true := by
          simpa [names] using (not_or.mp wellFormed).1
        clear_value names
        -- With one name or with two, the source and its start are the same.
        have parts : header.source = trimStart after ∧ header.start = start := by
          split at read <;> cases read <;> exact ⟨rfl, rfl⟩
        obtain ⟨blanks, whole, areBlank⟩ := exists_trimStart after
        have arguments : statement.arguments =
            before ++ ("in".toList ++ blanks) ++ header.source := by
          rw [eq_of_splitAtIn? split, parts.1, List.append_assoc, List.append_assoc, ← whole]
        refine ⟨before ++ ("in".toList ++ blanks), arguments, ?_, ?_⟩
        · have length := congrArg byteLength arguments
          rw [byteLength_append] at length
          rw [parts.2]
          simp only [start, source, ← parts.1, Statement.stop]
          omega
        · refine List.forall_mem_append.mpr ⟨isInert_of_names areNames,
            List.forall_mem_append.mpr ⟨by simp [IsInert], fun c isMember => ?_⟩⟩
          exact isInert_of_isBlank (areBlank c isMember)

end LoopHeader

/-! ### Tags that say something -/

section Tags

variable {source : Source} {limits : Limits} {tag : Tag} {event : Event} {kind : TagKind}

/-- A text that spells an expression is passed over. -/
theorem Spells.passes {text rest : List Char} {expr : Expr} (spells : Spells limits text expr)
    (noBrace : kind = .statement → rest.head? ≠ some '\x7d') : kind.Passes text rest := by
  obtain ⟨-, tokens, cuts, -, -⟩ := spells
  exact TagKind.passes_of_cuts cuts noBrace

/-- Behind what a statement says comes a blank or the mark of its closer. -/
theorem head?_closer {after : List Char} (areBlank : ∀ c ∈ after, isBlank c = true)
    (rest : List Char) :
    (after ++ (TagKind.statement.closer ++ rest)).head? ≠ some '\x7d' := by
  cases after with
  | nil => simp [TagKind.closer, TagKind.closingMarker]
  | cons c more =>
      rintro same
      cases same
      exact absurd (areBlank _ (.head _)) (by decide)

/-- What is behind the word of a tag that says something is passed over. -/
theorem Source.passes_arguments {keyword : Keyword} (isKeyword : tag.keyword? = some keyword)
    (said : source.event? limits (.tag tag) = some event) {rest : List Char}
    (noBrace : rest.head? ≠ some '\x7d') :
    TagKind.statement.Passes tag.statement.arguments rest := by
  -- Behind the words that stand alone there is nothing to pass over.
  have bare (isEmpty : tag.statement.arguments.isEmpty = true) :
      TagKind.statement.Passes tag.statement.arguments rest := by
    rw [List.isEmpty_iff.mp isEmpty]
    exact isSealed_nil _ _
  cases keyword with
  | opens block =>
      cases block with
      | choice =>
          obtain ⟨-, condition, read, -⟩ := (event_choice_iff isKeyword).mp said
          exact (Node.Parser.spells read).passes fun _ => noBrace
      | loop =>
          obtain ⟨header, entries, isHeader, read, -⟩ := (event_loop_iff isKeyword).mp said
          obtain ⟨before, arguments, -, inert⟩ := LoopHeader.exists_parts isHeader
          rw [arguments]
          exact .append (isSealed_of_inert inert _ _) ((Node.Parser.spells read).passes fun _ => noBrace)
  | elseIf =>
      obtain ⟨-, condition, read, -⟩ := (event_elseIf_iff isKeyword).mp said
      exact (Node.Parser.spells read).passes fun _ => noBrace
  | otherwise => exact bare ((event_otherwise_iff isKeyword).mp said).1
  | closes block => exact bare ((event_closes_iff isKeyword).mp said).1

/-- In a tag that says something, the closer stands outside of the strings. -/
theorem Source.closes_of_event (said : source.event? limits (.tag tag) = some event)
    (isQuoting : tag.kind ≠ .comment) (rest : List Char) :
    tag.kind.unquotedCloser? none (tag.inner ++ (tag.kind.closer ++ rest)) =
      some tag.inner.length := by
  cases kind : tag.kind with
  | comment => exact absurd kind isQuoting
  | interpolation =>
      simp only [event?, kind, Option.map_eq_some_iff, toOption_eq_some_iff] at said
      obtain ⟨expr, read, -⟩ := said
      exact ((Node.Parser.spells read).passes (by simp)).closes
  | statement =>
      have statement := said
      simp only [event?, kind] at statement
      obtain ⟨keyword, -, spelled⟩ := keyword_of_statementEvent statement
      have isKeyword : tag.keyword? = some keyword := by simp [Tag.keyword?, kind, spelled]
      obtain ⟨before, after, inner, -, inert, areBlank⟩ :=
        Statement.exists_parts tag.innerStart tag.inner
      -- A percent sign at the end of the arguments would make a closer with a brace behind it.
      have noBrace := head?_closer areBlank rest
      have behind : TagKind.statement.Passes after (TagKind.statement.closer ++ rest) :=
        isSealed_of_inert (fun c isMember => isInert_of_isBlank (areBlank c isMember)) _ _
      have arguments := passes_arguments isKeyword said noBrace
      refine TagKind.Passes.closes ?_
      rw [inner]
      exact .append (isSealed_of_inert inert _ _) (.append arguments behind)

end Tags

end TextTemplate
