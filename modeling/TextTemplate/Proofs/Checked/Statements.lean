import TextTemplate.Proofs.Checked.Ranges

/-! # Cutting statements by offsets

The word of a statement, what comes after it, and the header of a loop, found by adding up the
lengths of their trimmed parts. Every length that is taken off another is at most as long, and every
cut is in place. -/

namespace TextTemplate

/-- A statement by its word and the offsets of the text after it. -/
structure StatementRange where
  word : List Char
  start : Nat
  stop : Nat
  deriving DecidableEq

namespace StatementRange

/-- The keyword of the statement. -/
def keyword? (range : StatementRange) : Option Keyword := Keyword.ofWord? range.word

/-- Whether nothing comes after the word. -/
def isBare (range : StatementRange) : Bool := range.stop ≤ range.start

end StatementRange

/-- The offsets of a statement. -/
def Statement.range (statement : Statement) : StatementRange :=
  ⟨statement.word, statement.start, statement.stop⟩

namespace Statement

variable (statement : Statement)

@[simp] theorem word_range : statement.range.word = statement.word := rfl

@[simp] theorem keyword?_range : statement.range.keyword? = statement.keyword? := rfl

@[simp] theorem isBare_range : statement.range.isBare = statement.arguments.isEmpty := by
  rw [Bool.eq_iff_iff, List.isEmpty_iff, ← byteLength_eq_zero_iff]
  simp [StatementRange.isBare, range, stop]

end Statement

namespace Checked

variable (overflow : Overflow) (source : Source)

/-! ### Statements -/

/-- The statement of a tag. -/
def statement (tag : TagRange) : Option StatementRange := do
  let body ← cut? source.text tag.innerStart tag.innerStop
  let leading ← minus? (byteLength body) (byteLength (trimStart body))
  let wordStart := tag.innerStart + leading
  let following ← cut? source.text wordStart tag.innerStop
  let wordStop := wordStart + ((bytes following).takeWhile isNameChar).length
  let word ← cut? source.text wordStart wordStop
  let rest ← cut? source.text wordStop tag.innerStop
  let gap ← minus? (byteLength rest) (byteLength (trimStart rest))
  let trailing ← minus? (byteLength rest) (byteLength (trimEnd rest))
  let stop ← minus? tag.innerStop trailing
  return ⟨word, wordStop + gap, max stop (wordStop + gap)⟩

/-! ### Headers of loops -/

/-- Whether the word `in` stands at an index of a header, behind a separator. -/
def isInAt (header : List Char) (index : Nat) : Option Bool := do
  if (← byte? header index) = 'i' then
    if (← byte? header (index + 1)) = 'n' then
      let before ← byte? header (← minus? index 1)
      return isSeparator before && !(byte? header (index + 2)).any isNameChar
    else return false
  else return false

/-- The index of the first word `in` from an index on. The outer `none` stands for an access out of
place. -/
def findIn (header : List Char) (index : Nat) : Option (Option Nat) :=
  if _within : index < byteLength header - 1 then do
    if ← isInAt header index then return some index
    else findIn header (index + 1)
  else some none
termination_by byteLength header - index

/-- Reports a header that is not of the right form. -/
def malformed {α : Type} (tag : TagRange) : Reading α := do
  let inner ← cut? source.text tag.innerStart tag.innerStop
  failAt overflow source (.malformedHeader (String.ofList (trim inner))) tag.start tag.stop

/-- The header of a loop by its names and the offsets of its source. -/
structure HeaderRange where
  item : String
  index : Option String
  start : Nat
  stop : Nat

/-- The header of the loop that a tag opens. -/
def header (tag : TagRange) (statement : StatementRange) : Reading HeaderRange := do
  let text ← cut? source.text statement.start statement.stop
  match ← findIn text 1 with
  | none => malformed overflow source tag
  | some inAt =>
      let before ← cut? text 0 inAt
      let names := (LoopHeader.splitAtCommas before).map trim
      match names.find? fun name => reservedWords.contains (String.ofList name) with
      | some name => failAt overflow source (.reservedName (String.ofList name)) tag.start tag.stop
      | none =>
          if 2 < names.length ∨ !names.all LoopHeader.isName then malformed overflow source tag
          else
            let afterIn := statement.start + inAt + 2
            let after ← cut? source.text afterIn statement.stop
            let gap ← minus? (byteLength after) (byteLength (trimStart after))
            let start := afterIn + gap
            if statement.stop ≤ start then malformed overflow source tag
            else
              let item ← (names[0]? : Option (List Char))
              return ⟨String.ofList item, names[1]?.map String.ofList, start, statement.stop⟩

/-! ### Blanks around texts -/

/-- Taking bytes of a narrow kind from the start of a text takes its characters of that kind. -/
theorem takeWhile_bytes {kind : Char → Bool} (narrow : IsNarrow kind) (text : List Char) :
    (bytes text).takeWhile kind = text.takeWhile kind := by
  induction text with
  | nil => rfl
  | cons c rest ih =>
      by_cases isKind : kind c = true
      · rw [bytes_cons, charBytes_ascii (narrow c isKind), List.singleton_append,
          List.takeWhile_cons_of_pos isKind, List.takeWhile_cons_of_pos isKind, ih]
      · obtain ⟨first, others, isBytes⟩ := List.exists_cons_of_ne_nil
          (List.ne_nil_of_length_pos (by rw [length_charBytes]; exact c.utf8Size_pos))
        have isFirst := head?_charBytes c
        rw [isBytes] at isFirst
        have other : ¬kind first = true := by
          rw [Option.some.inj isFirst, narrow.lead]
          exact isKind
        rw [bytes_cons, isBytes, List.cons_append, List.takeWhile_cons_of_neg other,
          List.takeWhile_cons_of_neg isKind]

/-- What is left of a text at its end is no longer than the text. -/
theorem minus?_suffix (left right : List Char) :
    minus? (byteLength (left ++ right)) (byteLength right) = some (byteLength left) := by
  rw [byteLength_append, minus?, if_pos (Nat.le_add_left _ _), Nat.add_sub_cancel]

/-- And so is what is left of it at its start. -/
theorem minus?_prefix (left right : List Char) :
    minus? (byteLength (left ++ right)) (byteLength left) = some (byteLength right) := by
  rw [byteLength_append, minus?, if_pos (Nat.le_add_right _ _), Nat.add_sub_cancel_left]

/-- Blanks in front of a text are taken off from its end only if nothing of it is left. -/
theorem trimEnd_blanks {blanks : List Char} (areBlank : ∀ c ∈ blanks, isBlank c = true)
    (text : List Char) :
    trimEnd (blanks ++ text) = if trimEnd text = [] then [] else blanks ++ trimEnd text := by
  have none : blanks.reverse.dropWhile isBlank = [] := by simpa using areBlank
  rw [trimEnd, List.reverse_append, List.dropWhile_append, none, trimEnd]
  generalize text.reverse.dropWhile isBlank = left
  cases left <;> simp

/-! ### Statements in texts -/

variable {overflow source} [overflow.Fits source] {tag : Tag}

/-- The text after a word ends where the blanks at the end of the tag start, but not before it
starts. -/
theorem stop_of_trimEnd {blanks : List Char} (areBlank : ∀ c ∈ blanks, isBlank c = true)
    (text : List Char) (start : Nat) :
    max (start + byteLength (trimEnd (blanks ++ text))) (start + byteLength blanks) =
      start + byteLength blanks + byteLength (trimEnd text) := by
  rw [trimEnd_blanks areBlank]
  split
  next isEmpty =>
    rw [isEmpty]
    simp only [byteLength]
    omega
  next =>
    rw [byteLength_append]
    omega

/-- The statement of a tag by offsets is that of its inner text. -/
theorem statement_eq (inner : cut? source.text tag.innerStart tag.innerStop = some tag.inner) :
    statement source tag.range = some tag.statement.range ∧
      cut? source.text tag.statement.start tag.statement.stop = some tag.statement.arguments := by
  obtain ⟨blanks, isInner, -⟩ := exists_trimStart tag.inner
  generalize isBody : trimStart tag.inner = body at isInner
  generalize isWord : body.takeWhile isNameChar = word
  have narrow : ∀ c ∈ word, c.toNat < 128 := by
    rw [← isWord]
    exact fun c isTaken => isNarrow_isNameChar c (List.all_eq_true.mp List.all_takeWhile c isTaken)
  obtain ⟨rest, isSplit⟩ : ∃ rest, word ++ rest = body := isWord ▸ List.takeWhile_prefix isNameChar
  obtain ⟨gap, isRest, areGap⟩ := exists_trimStart rest
  generalize isArguments : trimStart rest = arguments at isRest
  obtain ⟨tail, isTrimmed, -⟩ := exists_trimEnd rest
  obtain ⟨last, isLast, -⟩ := exists_trimEnd arguments
  -- The parts of the inner text are cut out one after the other.
  have whole := inner
  rw [isInner] at whole
  have following := cut?_right blanks whole
  have first := following
  rw [← isSplit] at first
  have isWordCut := cut?_left word first
  have behind := cut?_ascii narrow first
  have argumentsCut := behind
  rw [isRest, isLast] at argumentsCut
  have argumentsCut := cut?_left _ (cut?_right gap argumentsCut)
  have isStop := stop_of_cut? behind
  have isStatement : tag.statement = ⟨word, trimEnd arguments,
      tag.innerStart + byteLength blanks + word.length + byteLength gap⟩ := by
    have isDrop : body.drop word.length = rest := by rw [← isSplit, List.drop_left]
    have length : byteLength tag.inner - byteLength arguments =
        byteLength blanks + word.length + byteLength gap := by
      rw [isInner, ← isSplit, isRest]
      simp only [byteLength_append, byteLength_ascii narrow]
      omega
    simp only [Tag.statement, Statement.ofText, isBody, isWord, isDrop, isArguments, length,
      Nat.add_assoc]
  refine ⟨?_, ?_⟩
  · have leading : minus? (byteLength tag.inner) (byteLength body) = some (byteLength blanks) := by
      rw [isInner, minus?_suffix]
    have isGap : minus? (byteLength rest) (byteLength arguments) = some (byteLength gap) := by
      rw [isRest, minus?_suffix]
    have trailing := minus?_prefix (trimEnd rest) tail
    rw [← isTrimmed] at trailing
    have stops : minus? tag.innerStop (byteLength tail) =
        some (tag.innerStart + byteLength blanks + word.length + byteLength (trimEnd rest)) := by
      have length := congrArg byteLength isTrimmed
      rw [byteLength_append] at length
      rw [isStop, minus?, if_pos (by omega), length, ← Nat.add_assoc, Nat.add_sub_cancel]
    rw [byteLength_ascii narrow] at isWordCut
    have isMax := stop_of_trimEnd areGap arguments
      (tag.innerStart + byteLength blanks + word.length)
    rw [← isRest] at isMax
    simp only [statement, Tag.innerStart_range, Tag.innerStop_range, inner, isBody, leading,
      following, takeWhile_bytes isNarrow_isNameChar, isWord, isWordCut, behind, isArguments, isGap,
      trailing, stops, isMax, Option.bind_eq_bind, Option.bind_some, isStatement]
    rfl
  · rw [isStatement]
    exact argumentsCut

/-! ### Headers in texts -/

section Headers

variable {text rest : List Char} {c : Char} {place : Nat}

/-- No word starts with another byte. -/
theorem isInAt_other {index : Nat} {byte : Char} (isByte : byte? text index = some byte)
    (other : byte ≠ 'i') : isInAt text index = some false := by
  simp [isInAt, isByte, other]

/-- The last byte of a character is a separator when the character is. -/
theorem isSeparator_last (here : cut? text place (byteLength text) = some (c :: rest)) :
    ∃ byte, minus? (place + c.utf8Size) 1 = some (place + c.utf8Size - 1) ∧
      byte? text (place + c.utf8Size - 1) = some byte ∧ isSeparator byte = isSeparator c := by
  have positive := c.utf8Size_pos
  have isIndex : minus? (place + c.utf8Size) 1 = some (place + c.utf8Size - 1) :=
    if_pos (by omega)
  by_cases narrow : c.toNat < 128
  · refine ⟨c, isIndex, ?_, rfl⟩
    rw [utf8Size_ascii narrow, Nat.add_sub_cancel, byte?_of_cut? here, lead_ascii narrow]
  · have isWide := Nat.le_of_not_lt narrow
    obtain ⟨before, after, isText, isPlace, -⟩ := cut?_eq_some_iff.mp here
    obtain ⟨byte, isByte, wide⟩ := byte?_wide (rest ++ after) isWide
      (show c.utf8Size - 1 < c.utf8Size by omega)
    refine ⟨byte, isIndex, ?_, ?_⟩
    · rw [isText, ← isPlace, Nat.add_sub_assoc positive, byte?_append, List.cons_append, isByte]
    · rw [Bool.eq_false_iff.mpr fun here => narrow (isNarrow_isSeparator c here),
        Bool.eq_false_iff.mpr fun here => absurd (isNarrow_isSeparator byte here) (by omega)]

/-- The word stands behind a character of a text when the text goes on with it and the character is
a separator. -/
theorem isInAt_eq (here : cut? text place (byteLength text) = some (c :: rest))
    (within : place + c.utf8Size < byteLength text - 1) :
    isInAt text (place + c.utf8Size) =
      some (isSeparator c && LoopHeader.startsWithIn rest) := by
  obtain ⟨before, isIndex, isBefore, same⟩ := isSeparator_last here
  have first := cut?_next here
  have isFirst := byte?_rest first
  -- Where the text does not go on with the word, neither do the bytes.
  have other (noWord : LoopHeader.startsWithIn rest = false) :
      some (isSeparator c && LoopHeader.startsWithIn rest) = some false := by
    rw [noWord, Bool.and_false]
  cases rest with
  | nil =>
      have isStop := stop_of_cut? first
      rw [byteLength] at isStop
      omega
  | cons d more =>
      by_cases isI : d = 'i'
      · subst isI
        have second := cut?_cons (by decide) first
        have isSecond := byte?_rest second
        have isStop := stop_of_cut? second
        cases more with
        | nil =>
            rw [byteLength] at isStop
            omega
        | cons e after =>
            by_cases isN : e = 'n'
            · subst isN
              have isThird := byte?_rest (cut?_cons (by decide) second)
              have isEnd : (after.head?.map lead).any isNameChar = after.head?.any isNameChar := by
                cases after with
                | nil => rfl
                | cons f last => exact isNarrow_isNameChar.lead f
              rw [List.head?_cons, Option.map_some, lead_ascii (by decide)] at isFirst isSecond
              simp [isInAt, isFirst, isSecond, isIndex, isBefore, isThird, isEnd, same,
                LoopHeader.startsWithIn]
            · have noN : lead e ≠ 'n' := mt (lead_eq_iff (by decide)).mp isN
              rw [other (by simp [LoopHeader.startsWithIn, isN])]
              rw [List.head?_cons, Option.map_some] at isFirst isSecond
              rw [lead_ascii (by decide)] at isFirst
              simp [isInAt, isFirst, isSecond, noN]
      · rw [other (by simp [LoopHeader.startsWithIn, isI])]
        exact isInAt_other isFirst (mt (lead_eq_iff (by decide)).mp isI)

/-- Where no word starts, the search goes on with the next byte. -/
theorem findIn_other {index : Nat}
    (nothing : index < byteLength text - 1 → isInAt text index = some false) :
    findIn text index = findIn text (index + 1) := by
  by_cases within : index < byteLength text - 1
  · rw [findIn, dif_pos within, nothing within]
    rfl
  · rw [findIn, dif_neg within, findIn, dif_neg (by omega)]

/-- A character in which no word starts is passed over from inside. -/
theorem findIn_inside (here : cut? text place (byteLength text) = some (c :: rest)) :
    findIn text (place + 1) = findIn text (place + c.utf8Size) := by
  by_cases narrow : c.toNat < 128
  · rw [utf8Size_ascii narrow]
  · refine eq_of_wide (f := findIn text) (fun index byte isByte wide => findIn_other fun _ => ?_)
      here (Nat.le_of_not_lt narrow) c.utf8Size_pos
    exact isInAt_other isByte (by rintro rfl; exact absurd wide (by decide))

/-- The word `in` behind a character is that of the text. -/
theorem findIn_next (here : cut? text place (byteLength text) = some (c :: rest)) :
    findIn text (place + c.utf8Size) =
      some ((LoopHeader.splitAtIn? (c :: rest)).map fun parts => place + byteLength parts.1) := by
  -- The word is looked for behind a character that has been passed, which the separator in front of
  -- it may be.
  induction rest generalizing c place with
  | nil =>
      have isStop := stop_of_cut? (cut?_next here)
      rw [findIn, dif_neg (by rw [isStop, byteLength]; omega)]
      simp [LoopHeader.splitAtIn?, LoopHeader.startsWithIn]
  | cons d more ih =>
      have behind := cut?_next here
      have next : findIn text (place + c.utf8Size + 1) =
          some ((LoopHeader.splitAtIn? (d :: more)).map fun parts =>
            place + byteLength (c :: parts.1)) := by
        rw [findIn_inside behind, ih behind]
        simp only [byteLength, Nat.add_assoc]
      rw [LoopHeader.splitAtIn?]
      by_cases within : place + c.utf8Size < byteLength text - 1
      · have isHere := isInAt_eq here within
        by_cases starts : isSeparator c = true ∧ LoopHeader.startsWithIn (d :: more) = true
        · rw [findIn, dif_pos within, isHere, if_pos starts, starts.1, starts.2]
          simp [byteLength]
        · have noWord : (isSeparator c && LoopHeader.startsWithIn (d :: more)) = false := by
            rwa [← Bool.not_eq_true, Bool.and_eq_true]
          rw [if_neg starts, findIn_other fun _ => by rw [isHere, noWord], next, Option.map_map]
          rfl
      · -- The word has two bytes, and there is at most one left.
        have isStop := stop_of_cut? behind
        have positive := d.utf8Size_pos
        rw [byteLength] at isStop
        obtain rfl : more = [] := byteLength_eq_zero_iff.mp (by omega)
        rw [findIn_other fun here => absurd here within, next,
          if_neg (by simp [LoopHeader.startsWithIn]), Option.map_map]
        rfl

/-- The word `in` of a header by offsets is that of the text. -/
theorem findIn_eq (text : List Char) :
    findIn text 1 = some ((LoopHeader.splitAtIn? text).map fun parts => byteLength parts.1) := by
  cases text with
  | nil =>
      rw [findIn, dif_neg (by decide)]
      rfl
  | cons c rest =>
      have inside := findIn_inside (cut?_whole (c :: rest))
      rw [Nat.zero_add] at inside
      rw [inside, findIn_next (cut?_whole (c :: rest))]
      simp only [Nat.zero_add]

/-- The offsets of a header. -/
def headerRange (header : LoopHeader) : HeaderRange :=
  ⟨header.item, header.index, header.start, header.start + byteLength header.source⟩

/-- What a statement says about its loop, with the offsets of the source. -/
def headerOf (source : Source) (tag : Tag) : Except Fault HeaderRange :=
  (Node.Parser.locate source
    ((LoopHeader.ofStatement tag.statement tag.inner).mapError tag.fault)).map headerRange

/-- A header that is not of the right form is reported with the inner text of its tag. -/
theorem malformed_eq {α : Type}
    (inner : cut? source.text tag.innerStart tag.innerStop = some tag.inner) :
    (malformed overflow source tag.range : Reading α) = found source
      (.error ⟨.malformedHeader (String.ofList (trim tag.inner)), source.tagSpan tag⟩) := by
  simp [malformed, inner, Source.tagSpan]

/-- The parts of a header are cuts: the names in front of the word `in`, what comes after it, and
the source behind the blanks there. -/
theorem cut?_parts {statement : Statement} {before after : List Char}
    (arguments : cut? source.text statement.start statement.stop = some statement.arguments)
    (split : LoopHeader.splitAtIn? statement.arguments = some (before, after)) :
    cut? statement.arguments 0 (byteLength before) = some before ∧
      cut? source.text (statement.start + byteLength before + 2) statement.stop = some after ∧
      ∃ gap, minus? (byteLength after) (byteLength (trimStart after)) = some gap ∧
        statement.start + byteLength before + 2 + gap =
          statement.stop - byteLength (trimStart after) ∧
        cut? source.text (statement.stop - byteLength (trimStart after)) statement.stop =
          some (trimStart after) := by
  have isText := LoopHeader.eq_of_splitAtIn? split
  have whole := cut?_whole statement.arguments
  rw [isText] at arguments
  have first := whole.trans (congrArg some isText)
  have names := cut?_left before first
  have behind := cut?_right "in".toList (cut?_right before arguments)
  rw [show byteLength "in".toList = 2 by decide] at behind
  rw [Nat.zero_add] at names
  -- The source starts behind the blanks after the word, counted from the end of the statement.
  obtain ⟨gap, isAfter, -⟩ := exists_trimStart after
  have isGap := minus?_suffix gap (trimStart after)
  have isSource := behind
  rw [isAfter] at isSource
  have isSource := cut?_right gap isSource
  rw [← isAfter] at isGap
  have isStop := stop_of_cut? isSource
  have isStart : statement.start + byteLength before + 2 + byteLength gap =
      statement.stop - byteLength (trimStart after) := by omega
  exact ⟨names, behind, byteLength gap, isGap, isStart, isStart ▸ isSource⟩

/-- There is a part between commas. -/
theorem splitAtCommas_ne_nil (text : List Char) : LoopHeader.splitAtCommas text ≠ [] := by
  cases text with
  | nil => exact List.cons_ne_nil _ _
  | cons c rest =>
      rw [LoopHeader.splitAtCommas]
      split
      next => exact List.cons_ne_nil _ _
      next => split <;> exact List.cons_ne_nil _ _

/-- The header of a loop by offsets is that of its statement. -/
theorem header_eq (inner : cut? source.text tag.innerStart tag.innerStop = some tag.inner)
    (arguments : cut? source.text tag.statement.start tag.statement.stop =
      some tag.statement.arguments) :
    header overflow source tag.range tag.statement.range = found source (headerOf source tag) := by
  rw [header, headerOf, LoopHeader.ofStatement]
  simp only [Statement.range, arguments, lift_some, pure_bind, findIn_eq]
  cases split : LoopHeader.splitAtIn? tag.statement.arguments with
  | none =>
      simp only [Option.map_none, malformed_eq inner]
      rfl
  | some parts =>
      obtain ⟨before, after⟩ := parts
      obtain ⟨names, behind, gap, isGap, isStart, isSource⟩ := cut?_parts arguments split
      have isStop := stop_of_cut? isSource
      have isEmpty : tag.statement.stop ≤ tag.statement.stop - byteLength (trimStart after) ↔
          (trimStart after).isEmpty = true := by
        rw [List.isEmpty_iff, ← byteLength_eq_zero_iff]
        omega
      have nonempty : (LoopHeader.splitAtCommas before).map trim ≠ [] := by
        simpa using splitAtCommas_ne_nil before
      simp only [Option.map_some, names, lift_some, pure_bind]
      generalize (LoopHeader.splitAtCommas before).map trim = listed at nonempty
      -- Reserved names are refused before the form of the names is looked at.
      cases listed.find? fun name => reservedWords.contains (String.ofList name) with
      | some name =>
          simp only [failAt_eq]
          rfl
      | none =>
          simp only [behind, lift_some, pure_bind, isGap, malformed_eq inner, isStart, isEmpty]
          by_cases areNames : listed.all LoopHeader.isName = true
          · by_cases noSource : (trimStart after).isEmpty = true
            · simp [areNames, noSource, Except.mapError, Except.map, Node.Parser.locate, Tag.fault,
                Located.span, Source.tagSpan]
            · -- Only one name or two of them are of the right form.
              rcases listed with _ | ⟨item, _ | ⟨index, _ | ⟨third, more⟩⟩⟩
              · exact absurd rfl nonempty
              · simp [areNames, noSource, Except.mapError, Except.map, Node.Parser.locate,
                  headerRange, ← isStop]
              · simp [areNames, noSource, Except.mapError, Except.map, Node.Parser.locate,
                  headerRange, ← isStop]
              · simp [areNames, noSource, Except.mapError, Except.map, Node.Parser.locate,
                  Tag.fault, Located.span, Source.tagSpan]
          · simp [areNames, Except.mapError, Except.map, Node.Parser.locate, Tag.fault,
              Located.span, Source.tagSpan]

/-- The source of a loop is a cut. -/
theorem cut?_header {header : LoopHeader}
    (arguments : cut? source.text tag.statement.start tag.statement.stop =
      some tag.statement.arguments)
    (isHeader : LoopHeader.ofStatement tag.statement tag.inner = .ok header) :
    cut? source.text header.start (header.start + byteLength header.source) =
      some header.source := by
  obtain ⟨before, isArguments, isStart, -⟩ := LoopHeader.exists_parts isHeader
  rw [isArguments] at arguments
  have behind := cut?_right before arguments
  rw [← isStart] at behind
  rwa [← stop_of_cut? behind]

end Headers

end Checked

end TextTemplate
