import TextTemplate.Node.Printer
import TextTemplate.Proofs.Expr.Sealed
import TextTemplate.Statement

/-! # The words and headers of printed statements

The word of a statement ends where the blank behind it stands, and what the statement says goes up
to the blank in front of the closer. The names of a loop end where its word `in` stands, because
names hold no blanks and that word is no name. -/

namespace TextTemplate

/-! ### Blanks -/

@[simp] theorem trimStart_blank (text : List Char) : trimStart (' ' :: text) = trimStart text := rfl

/-- Nothing is trimmed off in front of a visible character. -/
theorem trimStart_of_visible {c : Char} (visible : IsVisible c) (rest : List Char) :
    trimStart (c :: rest) = c :: rest := by
  rw [trimStart, List.dropWhile_cons_of_neg (by simp [visible.isBlank])]

/-- Blanks behind the last visible character are taken off. -/
theorem trimEnd_append {text blanks : List Char} (ends : Expr.EndsVisibly text)
    (areBlank : ∀ c ∈ blanks, isBlank c = true) : trimEnd (text ++ blanks) = text := by
  obtain ⟨rest, c, rfl, visible⟩ := ends
  rw [trimEnd, List.reverse_append, List.dropWhile_append_of_pos (by simpa using areBlank),
    List.reverse_append, List.reverse_singleton, List.singleton_append,
    List.dropWhile_cons_of_neg (by simp [visible.isBlank]), List.reverse_cons, List.reverse_reverse]

/-- A text that starts and ends visibly has no blanks around it. -/
structure IsTrimmed (text : List Char) : Prop where
  head : ∃ c rest, text = c :: rest ∧ IsVisible c
  last : Expr.EndsVisibly text

namespace IsTrimmed

variable {text : List Char}

/-- A trimmed text is not empty. -/
theorem ne_nil (trimmed : IsTrimmed text) : text ≠ [] := by
  obtain ⟨c, rest, rfl, -⟩ := trimmed.head
  exact List.cons_ne_nil c rest

/-- Nothing is trimmed off in front of a trimmed text. -/
theorem trimStart_append (trimmed : IsTrimmed text) (rest : List Char) :
    trimStart (text ++ rest) = text ++ rest := by
  obtain ⟨c, more, rfl, visible⟩ := trimmed.head
  exact trimStart_of_visible visible _

/-- Blanks around the text are taken off. -/
theorem trim_append (trimmed : IsTrimmed text) {blanks : List Char}
    (areBlank : ∀ c ∈ blanks, isBlank c = true) : trim (text ++ blanks) = text := by
  rw [trim, trimmed.trimStart_append, trimEnd_append trimmed.last areBlank]

/-- Blanks in front of the text are taken off, too. -/
theorem trim_around (trimmed : IsTrimmed text) {before after : List Char}
    (areBefore : ∀ c ∈ before, isBlank c = true) (areAfter : ∀ c ∈ after, isBlank c = true) :
    trim (before ++ (text ++ after)) = text := by
  have start : trimStart (before ++ (text ++ after)) = trimStart (text ++ after) :=
    List.dropWhile_append_of_pos areBefore
  rw [trim, start, ← trim, trimmed.trim_append areAfter]

/-- A space behind a trimmed text is trimmed off. -/
theorem trim_blank (trimmed : IsTrimmed text) : trim (text ++ [' ']) = text :=
  trimmed.trim_append (List.all_eq_true.mp rfl)

/-- A trimmed text is not trimmed further. -/
theorem trim_eq (trimmed : IsTrimmed text) : trim text = text := by
  have blanks : ∀ c ∈ ([] : List Char), isBlank c = true := nofun
  simpa using trimmed.trim_append blanks

/-- What stands between two texts does not matter. -/
theorem between {last : List Char} (first : IsTrimmed text) (trimmed : IsTrimmed last)
    (middle : List Char) : IsTrimmed (text ++ (middle ++ last)) where
  head := by
    obtain ⟨c, rest, rfl, visible⟩ := first.head
    exact ⟨c, _, rfl, visible⟩
  last := (trimmed.last.append middle).append text

end IsTrimmed

/-- The text of an expression is trimmed. -/
theorem isTrimmed_print (expr : Expr) (spelled : ∀ word ∈ expr.words, word.IsSpelled) :
    IsTrimmed expr.print where
  head := by
    obtain ⟨c, rest, text, isHead⟩ := expr.exists_head spelled
    exact ⟨c, rest, text, isHead.visible⟩
  last := expr.endsVisibly spelled

/-! ### Names -/

/-- The characters of names are visible. -/
theorem isVisible_of_isNameChar {c : Char} (isName : isNameChar c = true) : IsVisible c :=
  isVisible_of_isPathChar (by simp [Token.isPathChar, isName])

/-- Names hold no separators. -/
theorem isSeparator_of_isNameChar {c : Char} (isName : isNameChar c = true) :
    isSeparator c = false := by
  rw [Bool.eq_false_iff]
  intro isSeparator
  rcases Token.of_isSeparator isSeparator with rfl | rfl | rfl | rfl | rfl <;> cases isName

/-- A text of one or more name characters. -/
structure IsWord (text : List Char) : Prop where
  ne_nil : text ≠ []
  isNameChar : ∀ c ∈ text, isNameChar c = true

namespace IsWord

variable {text : List Char}

/-- The check of a name lets words through. -/
theorem of_check (check : (!text.isEmpty && text.all TextTemplate.isNameChar) = true) :
    IsWord text := by
  rw [Bool.and_eq_true, List.all_eq_true] at check
  exact ⟨by simpa using check.1, check.2⟩

/-- A word has no blanks around it. -/
theorem isTrimmed (isWord : IsWord text) : IsTrimmed text where
  head := by
    obtain ⟨c, rest, rfl⟩ := List.exists_cons_of_ne_nil isWord.ne_nil
    exact ⟨c, rest, rfl, isVisible_of_isNameChar (isWord.isNameChar c (.head _))⟩
  last := Expr.endsVisibly_of_forall isWord.ne_nil fun c isMember =>
    isVisible_of_isNameChar (isWord.isNameChar c isMember)

/-- A word starts no string and closes no tag. -/
theorem isSealed (isWord : IsWord text) : IsSealed text :=
  isSealed_of_inert fun c isMember =>
    isInert_of_isPathChar (by simp [Token.isPathChar, isWord.isNameChar c isMember])

/-- A word has no separators. -/
theorem isSeparator (isWord : IsWord text) : ∀ c ∈ text, isSeparator c = false :=
  fun c isMember => isSeparator_of_isNameChar (isWord.isNameChar c isMember)

/-- A word has no comma. -/
theorem comma_notMem (isWord : IsWord text) : ',' ∉ text :=
  fun isMember => nomatch isWord.isNameChar ',' isMember

end IsWord

/-! ### Statements -/

namespace Statement

/-- The word of a statement ends where something else follows it. -/
theorem ofText_word {word rest : List Char} (isWord : IsWord word)
    (stops : StopsRun isNameChar rest) (offset : Nat) :
    (ofText offset (' ' :: (word ++ rest))).word = word ∧
      (ofText offset (' ' :: (word ++ rest))).arguments = trim rest := by
  have start : trimStart (' ' :: (word ++ rest)) = word ++ rest :=
    isWord.isTrimmed.trimStart_append rest
  have taken := takeWhile_run isWord.isNameChar stops
  constructor
  · rw [ofText]
    simp only [start, taken]
  · rw [ofText]
    simp only [start, taken, List.drop_left]
    rfl

/-- What stands between blanks behind the word is what the statement says. -/
theorem ofText_arguments {word arguments : List Char} (isWord : IsWord word)
    (trimmed : IsTrimmed arguments) (offset : Nat) :
    (ofText offset (' ' :: (word ++ ' ' :: arguments) ++ [' '])).word = word ∧
      (ofText offset (' ' :: (word ++ ' ' :: arguments) ++ [' '])).arguments = arguments := by
  have stops : StopsRun isNameChar (' ' :: (arguments ++ [' '])) := stopsRun_cons.mpr rfl
  have parts := ofText_word isWord stops offset
  rw [trim, trimStart_blank, ← trim, trimmed.trim_blank] at parts
  simpa using parts

/-- A word may stand alone. -/
theorem ofText_alone {word : List Char} (isWord : IsWord word) (offset : Nat) :
    (ofText offset (' ' :: word ++ [' '])).word = word ∧
      (ofText offset (' ' :: word ++ [' '])).arguments = [] :=
  ofText_word isWord (stopsRun_cons.mpr rfl) offset

end Statement

/-! ### Loop headers -/

/-- Whether a name may be a loop's variable. -/
def IsLoopName (name : String) : Prop :=
  LoopHeader.isName name.toList = true ∧ name ∉ reservedWords

namespace IsLoopName

variable {name : String}

/-- The name of a loop variable is a word. -/
theorem isWord (isName : IsLoopName name) : IsWord name.toList where
  ne_nil := by
    intro empty
    have both := isName.1
    rw [empty] at both
    cases both
  isNameChar := by
    have both := isName.1
    rw [LoopHeader.isName, Bool.and_eq_true] at both
    exact List.all_eq_true.mp both.2

end IsLoopName

namespace LoopHeader

/-- The names of a loop that is read may be variables. -/
theorem isLoopName_of_ofStatement {statement : Statement} {inner : List Char} {header : LoopHeader}
    (read : ofStatement statement inner = .ok header) :
    IsLoopName header.item ∧ ∀ index ∈ header.index, IsLoopName index := by
  have isLoopName {names : List (List Char)}
      (unreserved : names.find? (fun name => reservedWords.contains (String.ofList name)) = none)
      (areNames : names.all isName = true) :
      ∀ name ∈ names, IsLoopName (String.ofList name) := fun name isMember =>
    ⟨by simpa using List.all_eq_true.mp areNames name isMember,
      by simpa using List.find?_eq_none.mp unreserved name isMember⟩
  unfold ofStatement at read
  extract_lets malformed at read
  split at read
  next => cases read
  next before after _ =>
    extract_lets names at read
    -- Which text the names come from does not matter from here on.
    clear_value names
    split at read
    next => cases read
    next unreserved =>
      split at read
      next => cases read
      next wellFormed =>
        have areNames : names.all isName = true := by simpa using (not_or.mp wellFormed).1
        have all := isLoopName unreserved areNames
        split at read
        next item =>
          cases read
          exact ⟨all item (.head _), by simp⟩
        next item index =>
          cases read
          exact ⟨all item (.head _), by simpa using all index (.tail _ (.head _))⟩
        next => cases read

/-- A run without separators is passed over. -/
theorem splitAtIn?_append {run : List Char} (solid : ∀ c ∈ run, isSeparator c = false)
    (rest : List Char) :
    splitAtIn? (run ++ rest) =
      (splitAtIn? rest).map fun (before, after) => (run ++ before, after) := by
  induction run with
  | nil => simp
  | cons c run ih =>
      obtain ⟨first, others⟩ := List.forall_mem_cons.mp solid
      rw [List.cons_append, splitAtIn?, if_neg (by simp [first]), ih others, Option.map_map]
      rfl

/-- The word that divides a header is found at its start. -/
theorem splitAtIn?_in (rest : List Char) :
    splitAtIn? (" in ".toList ++ rest) = some ([' '], ' ' :: rest) := rfl

/-- A loop's variable is not the word `in`. -/
theorem startsWithIn_of_isLoopName {name : String} (isName : IsLoopName name) (rest : List Char) :
    startsWithIn (name.toList ++ ' ' :: rest) = false := by
  rw [Bool.eq_false_iff]
  intro starts
  unfold startsWithIn at starts
  split at starts
  next more same =>
    -- Behind `in` there is a separator. The third character of a name is none, and a name of just
    -- these two would be reserved.
    match text : name.toList with
    | [] => exact isName.isWord.ne_nil text
    | [c] =>
        rw [text] at same
        cases same
    | [c, d] =>
        rw [text] at same
        cases same
        have isIn : name = "in" := String.toList_inj.mp text
        exact isName.2 (by simp [isIn, reservedWords])
    | first :: second :: third :: others =>
        rw [text] at same
        cases same
        have third := isName.isWord.isNameChar third (by simp [text])
        simp [third] at starts
  next => cases starts

/-- A comma ends the first part of a header. -/
theorem splitAtCommas_append {run rest : List Char} (noComma : ',' ∉ run) :
    splitAtCommas (run ++ ',' :: rest) = run :: splitAtCommas rest := by
  induction run with
  | nil => rfl
  | cons c run ih =>
      rw [List.mem_cons, not_or] at noComma
      rw [List.cons_append, splitAtCommas, if_neg (Ne.symm noComma.1), ih noComma.2]

/-- Without commas there is one part. -/
theorem splitAtCommas_eq {run : List Char} (noComma : ',' ∉ run) :
    splitAtCommas run = [run] := by
  induction run with
  | nil => rfl
  | cons c run ih =>
      rw [List.mem_cons, not_or] at noComma
      rw [splitAtCommas, if_neg (Ne.symm noComma.1), ih noComma.2]

section Printed

variable {item : String} {index : Option String}

/-- The first word `in` after the names of a loop is the one that is printed. -/
theorem splitAtIn?_names (isItem : IsLoopName item) (isIndex : ∀ name ∈ index, IsLoopName name)
    (rest : List Char) :
    splitAtIn? (Node.printNames item index ++ (" in ".toList ++ rest)) =
      some (Node.printNames item index ++ [' '], ' ' :: rest) := by
  cases index with
  | none => rw [Node.printNames, splitAtIn?_append isItem.isWord.isSeparator, splitAtIn?_in, Option.map_some]
  | some index =>
      have isIndex := isIndex index rfl
      -- The blank behind the comma is the first place where the word `in` could stand.
      have behind : splitAtIn? (' ' :: (index.toList ++ (" in ".toList ++ rest))) =
          some (' ' :: (index.toList ++ [' ']), ' ' :: rest) := by
        have noIn : startsWithIn (index.toList ++ (" in ".toList ++ rest)) = false :=
          startsWithIn_of_isLoopName isIndex _
        rw [splitAtIn?, noIn, if_neg (by simp), splitAtIn?_append isIndex.isWord.isSeparator, splitAtIn?_in]
        rfl
      have names : ∀ c ∈ item.toList ++ [','], isSeparator c = false :=
        List.forall_mem_append.mpr ⟨isItem.isWord.isSeparator, List.forall_mem_singleton.mpr rfl⟩
      have whole := splitAtIn?_append names (' ' :: (index.toList ++ (" in ".toList ++ rest)))
      rw [behind] at whole
      simpa [Node.printNames] using whole

/-- The names of a loop stand between its commas. -/
theorem splitAtCommas_names (isItem : IsLoopName item) (isIndex : ∀ name ∈ index, IsLoopName name) :
    (splitAtCommas (Node.printNames item index ++ [' '])).map trim =
      item.toList :: index.toList.map String.toList := by
  cases index with
  | none =>
      rw [Node.printNames, splitAtCommas_eq (by simp [isItem.isWord.comma_notMem])]
      simp [isItem.isWord.isTrimmed.trim_blank]
  | some index =>
      have isIndex := isIndex index rfl
      have split : Node.printNames item (some index) ++ [' '] =
          item.toList ++ ',' :: ' ' :: (index.toList ++ [' ']) := by
        simp [Node.printNames]
      have second : trim (' ' :: (index.toList ++ [' '])) = index.toList := by
        rw [trim, trimStart_blank]
        exact isIndex.isWord.isTrimmed.trim_blank
      rw [split, splitAtCommas_append (isItem.isWord.comma_notMem),
        splitAtCommas_eq (by simp [isIndex.isWord.comma_notMem])]
      simp [isItem.isWord.isTrimmed.trim_eq, second]

/-- A printed loop starts and ends visibly. -/
theorem isTrimmed_header (isItem : IsLoopName item) (index : Option String) {source : List Char}
    (trimmed : IsTrimmed source) :
    IsTrimmed (Node.printNames item index ++ (" in ".toList ++ source)) := by
  cases index with
  | none => exact isItem.isWord.isTrimmed.between trimmed _
  | some index =>
      have whole := isItem.isWord.isTrimmed.between trimmed (", ".toList ++ (index.toList ++ " in ".toList))
      simpa [Node.printNames] using whole

/-- The names and the source of a loop close their own strings and no tag. -/
theorem isSealed_header (isItem : IsLoopName item) (isIndex : ∀ name ∈ index, IsLoopName name)
    {source : List Char} (isSealed : IsSealed source) :
    IsSealed (Node.printNames item index ++ (" in ".toList ++ source)) := by
  have word : IsSealed " in ".toList := isSealed_of_inert (by simp [IsInert])
  have names : IsSealed (Node.printNames item index) := by
    cases index with
    | none => exact isItem.isWord.isSealed
    | some index =>
        have comma : IsSealed ", ".toList := isSealed_of_inert (by simp [IsInert])
        exact (isItem.isWord.isSealed.append comma).append (isIndex index rfl).isWord.isSealed
  exact names.append (word.append isSealed)

/-- The header of a loop is read with the names and the source that are written in it. -/
theorem ofStatement_names (isItem : IsLoopName item) (isIndex : ∀ name ∈ index, IsLoopName name)
    {rest source : List Char} (start : trimStart rest = source) (nonempty : source ≠ [])
    (statement : Statement)
    (arguments : statement.arguments = Node.printNames item index ++ (" in ".toList ++ rest))
    (inner : List Char) :
    ∃ start, ofStatement statement inner = .ok ⟨item, index, source, start⟩ := by
  have areNames : ∀ name ∈ item.toList :: index.toList.map String.toList,
      reservedWords.contains (String.ofList name) = false ∧ isName name = true := by
    simp only [List.mem_cons, List.mem_map, Option.mem_toList, forall_eq_or_imp,
      forall_exists_index, and_imp, forall_apply_eq_imp_iff₂, String.ofList_toList,
      List.contains_eq_mem, decide_eq_false_iff_not]
    exact ⟨isItem.symm, fun name isMember => (isIndex name isMember).symm⟩
  have unreserved : (item.toList :: index.toList.map String.toList).find?
      (fun name => reservedWords.contains (String.ofList name)) = none :=
    List.find?_eq_none.mpr fun name isMember => by rw [(areNames name isMember).1]; decide
  have allNames : (item.toList :: index.toList.map String.toList).all isName = true :=
    List.all_eq_true.mpr fun name isMember => (areNames name isMember).2
  unfold ofStatement
  simp only [arguments, splitAtIn?_names isItem isIndex, splitAtCommas_names isItem isIndex,
    unreserved, allNames, trimStart_blank, start]
  rw [if_neg (by simpa using nonempty)]
  refine ⟨statement.stop - byteLength source, ?_⟩
  cases index <;> simp

/-- The header of a printed loop is read with the same names and the same source. -/
theorem ofStatement_print (isItem : IsLoopName item) (isIndex : ∀ name ∈ index, IsLoopName name)
    {source : List Char} (trimmed : IsTrimmed source) (statement : Statement)
    (arguments : statement.arguments =
      Node.printNames item index ++ (" in ".toList ++ source)) (inner : List Char) :
    ∃ start, ofStatement statement inner = .ok ⟨item, index, source, start⟩ :=
  ofStatement_names isItem isIndex (by simpa using trimmed.trimStart_append []) trimmed.ne_nil
    statement arguments inner

end Printed

end LoopHeader

end TextTemplate
