import TextTemplate.Proofs.Json.Strings

/-! # JSON trees are read back

Writing a tree and cutting the text into lexemes gives the lexemes of the tree, and one pass over
those builds the tree again. -/

namespace TextTemplate.Json

/-! ### Lexemes of a tree -/

mutual

/-- The lexemes of a tree, in order. -/
def tokens : Json → List Lexeme
  | .array items => .openArray :: tokensOfItems items ++ [.closeArray]
  | .object fields => .openObject :: tokensOfFields fields ++ [.closeObject]
  | .null => [.scalar .null]
  | .boolean value => [.scalar (.boolean value)]
  | .number spelling => [.scalar (.number spelling)]
  | .string value => [.scalar (.string value)]
  | .unreadable => [.scalar .unreadable]

/-- The lexemes of the items of an array. -/
def tokensOfItems : List Json → List Lexeme
  | [] => []
  | [item] => tokens item
  | item :: rest => tokens item ++ .comma :: tokensOfItems rest

/-- The lexemes of the fields of an object. -/
def tokensOfFields : List (String × Json) → List Lexeme
  | [] => []
  | [(name, value)] => .scalar (.string name) :: .colon :: tokens value
  | (name, value) :: rest =>
      .scalar (.string name) :: .colon :: tokens value ++ .comma :: tokensOfFields rest

end

mutual

/-- Whether a tree has a text: every number is spelled as JSON spells numbers, and nothing is
unreadable. -/
def Writable : Json → Prop
  | .number spelling => IsNumber spelling.toList
  | .unreadable => False
  | .array items => AllWritable items
  | .object fields => FieldsWritable fields
  | .null | .boolean _ | .string _ => True

/-- Whether all values of a list have texts. -/
def AllWritable : List Json → Prop
  | [] => True
  | item :: rest => Writable item ∧ AllWritable rest

/-- Whether all values of some fields have texts. -/
def FieldsWritable : List (String × Json) → Prop
  | [] => True
  | (_, value) :: rest => Writable value ∧ FieldsWritable rest

end

/-! ### Cutting -/

/-- What a lexeme has taken is passed over. -/
theorem lexemes_skip (taken rest : List Char) :
    lexemes taken.length (taken ++ rest) = lexemes 0 rest := by
  induction taken with
  | nil => rfl
  | cons c taken ih => rw [List.length_cons, List.cons_append, lexemes, ih]

/-- A written string is one lexeme. -/
theorem lexemes_quoted (text : String) (rest : List Char) :
    lexemes 0 (quoted text ++ rest) = .scalar (.string text) :: lexemes 0 rest := by
  have skipped := lexemes_skip (text.toList.flatMap escape ++ ['"']) rest
  have first : lexeme '"' (text.toList.flatMap escape ++ '"' :: rest) =
      (.scalar (.string text), (text.toList.flatMap escape ++ ['"']).length) := by
    simp [lexeme, stringPieces?_quoted, decodePieces?_pieceOf]
  rw [List.append_assoc, List.singleton_append] at skipped
  have split : quoted text ++ rest = '"' :: (text.toList.flatMap escape ++ '"' :: rest) := by
    simp [quoted]
  rw [split, lexemes, if_neg (by decide), first, skipped]

/-- A character that may start a number starts no other lexeme. -/
theorem lexeme_number {c : Char} {rest : List Char} {length : Nat}
    (isFirst : c = '-' ∨ c.isDigit = true) (numbered : numberLength? (c :: rest) = some length) :
    isBlank c = false ∧ lexeme c rest =
      (.scalar (.number (String.ofList ((c :: rest).take length))), length - 1) := by
  -- A number is looked for after everything else, so all that comes before has to be ruled out.
  have others : c ≠ '[' ∧ c ≠ ']' ∧ c ≠ '\x7b' ∧ c ≠ '\x7d' ∧ c ≠ ',' ∧ c ≠ ':' ∧ c ≠ '"' ∧
      c ≠ ' ' ∧ c ≠ '\t' ∧ c ≠ '\n' ∧ c ≠ '\r' := by
    refine ⟨?_, ?_, ?_, ?_, ?_, ?_, ?_, ?_, ?_, ?_, ?_⟩ <;>
      (rintro rfl; exact absurd isFirst (by decide))
  obtain ⟨h1, h2, h3, h4, h5, h6, h7, h8, h9, h10, h11⟩ := others
  constructor
  · simp [isBlank, h8, h9, h10, h11]
  · simp only [lexeme, h1, h2, h3, h4, h5, h6, h7, if_false, if_pos isFirst, numbered]

/-- A number is one lexeme. -/
theorem lexemes_number {spelling : String} {rest : List Char}
    (writable : Writable (.number spelling)) (stops : StopsRun continuesNumber rest) :
    lexemes 0 (spelling.toList ++ rest) = .scalar (.number spelling) :: lexemes 0 rest := by
  obtain ⟨sign, whole, fraction, exponent, spelled, same⟩ := writable
  -- A lexeme is chosen by its first character: the sign, or the first digit when there is none.
  have starts : ∃ c others, spelling.toList = c :: others ∧ (c = '-' ∨ c.isDigit = true) := by
    rw [same]
    rcases spelled.sign with rfl | rfl
    · cases whole with
      | nil => exact absurd rfl spelled.nonempty
      | cons c others => exact ⟨c, _, rfl, .inr (spelled.digits c (.head _))⟩
    · exact ⟨'-', _, rfl, .inl rfl⟩
  obtain ⟨c, others, text, isFirst⟩ := starts
  have numbered : numberLength? (c :: (others ++ rest)) = some (c :: others).length := by
    have length := numberLength?_append spelled stops
    have shape : sign ++ (whole ++ (fraction ++ (exponent ++ rest))) = c :: (others ++ rest) := by
      rw [← List.cons_append, ← text, same]
      simp
    rwa [shape, ← same, text] at length
  obtain ⟨notBlank, first⟩ := lexeme_number isFirst numbered
  have taken : String.ofList ((c :: (others ++ rest)).take (c :: others).length) = spelling := by
    rw [← List.cons_append, List.take_left, ← text, String.ofList_toList]
  rw [text, List.cons_append, lexemes, if_neg (by simp [notBlank]), first, taken]
  simp [lexemes_skip]

/-- A bracket, comma or colon is one lexeme. -/
@[simp] theorem lexemes_openArray (rest : List Char) :
    lexemes 0 ('[' :: rest) = .openArray :: lexemes 0 rest := by
  simp [lexemes, isBlank, lexeme]

@[simp] theorem lexemes_closeArray (rest : List Char) :
    lexemes 0 (']' :: rest) = .closeArray :: lexemes 0 rest := by
  simp [lexemes, isBlank, lexeme]

@[simp] theorem lexemes_openObject (rest : List Char) :
    lexemes 0 ('\x7b' :: rest) = .openObject :: lexemes 0 rest := by
  simp [lexemes, isBlank, lexeme]

@[simp] theorem lexemes_closeObject (rest : List Char) :
    lexemes 0 ('\x7d' :: rest) = .closeObject :: lexemes 0 rest := by
  simp [lexemes, isBlank, lexeme]

@[simp] theorem lexemes_comma (rest : List Char) :
    lexemes 0 (',' :: rest) = .comma :: lexemes 0 rest := by
  simp [lexemes, isBlank, lexeme]

@[simp] theorem lexemes_colon (rest : List Char) :
    lexemes 0 (':' :: rest) = .colon :: lexemes 0 rest := by
  simp [lexemes, isBlank, lexeme]

mutual

/-- A written tree is cut into its lexemes. -/
theorem lexemes_write : {json : Json} → json.Writable → ∀ (rest : List Char),
    StopsRun continuesNumber rest →
    lexemes 0 (json.write ++ rest) = json.tokens ++ lexemes 0 rest
  | .null, _, rest, _ => by
      simp [write, tokens, lexemes, isBlank, lexeme, word?]
  | .boolean true, _, rest, _ => by
      simp [write, tokens, lexemes, isBlank, lexeme, word?]
  | .boolean false, _, rest, _ => by
      simp [write, tokens, lexemes, isBlank, lexeme, word?]
  | .number _, writable, _, stops => lexemes_number writable stops
  | .string value, _, _, _ => lexemes_quoted value _
  | .unreadable, writable, _, _ => writable.elim
  | .array items, writable, rest, _ => by
      have inside := lexemes_writeItems writable (']' :: rest) (stopsRun_cons.mpr rfl)
      simp [write, tokens, inside]
  | .object fields, writable, rest, _ => by
      have inside := lexemes_writeFields writable ('\x7d' :: rest) (stopsRun_cons.mpr rfl)
      simp [write, tokens, inside]

/-- The text of items is cut into their tokens and commas. -/
theorem lexemes_writeItems : {items : List Json} → AllWritable items → ∀ (rest : List Char),
    StopsRun continuesNumber rest →
    lexemes 0 (writeItems items ++ rest) = tokensOfItems items ++ lexemes 0 rest
  | [], _, _, _ => rfl
  | [_], writable, rest, stops => lexemes_write writable.1 rest stops
  | item :: next :: others, writable, rest, stops => by
      have first := lexemes_write writable.1 (',' :: (writeItems (next :: others) ++ rest))
        (stopsRun_cons.mpr rfl)
      have tail := lexemes_writeItems writable.2 rest stops
      simp [writeItems, tokensOfItems, first, tail]

/-- The text of fields is cut into their names, colons, tokens and commas. -/
theorem lexemes_writeFields : {fields : List (String × Json)} → FieldsWritable fields →
    ∀ (rest : List Char), StopsRun continuesNumber rest →
    lexemes 0 (writeFields fields ++ rest) = tokensOfFields fields ++ lexemes 0 rest
  | [], _, _, _ => rfl
  | [(name, value)], writable, rest, stops => by
      have first := lexemes_write writable.1 rest stops
      simp [writeFields, tokensOfFields, lexemes_quoted, first]
  | (name, value) :: next :: others, writable, rest, stops => by
      have first := lexemes_write writable.1 (',' :: (writeFields (next :: others) ++ rest))
        (stopsRun_cons.mpr rfl)
      have tail := lexemes_writeFields writable.2 rest stops
      simp [writeFields, tokensOfFields, lexemes_quoted, first, tail]

end

/-! ### Building -/

/-- Reading goes on with the lexemes after a step. -/
def proceed (rest : List Lexeme) : Progress → Option (Json × List Lexeme)
  | .more stack expecting => readLexemes? stack expecting rest
  | .done value => some (value, rest)
  | .failed => none

/-- One lexeme is one step. -/
theorem readLexemes?_cons (stack : List Frame) (expecting : Expecting) (lexeme : Lexeme)
    (rest : List Lexeme) :
    readLexemes? stack expecting (lexeme :: rest) =
      proceed rest (advance stack expecting lexeme) := by
  rw [readLexemes?]
  cases advance stack expecting lexeme <;> rfl

/-- Where an array may still be closed, a tree is read as an item. -/
theorem readLexemes?_itemOrClose (json : Json) (stack : List Frame) (rest : List Lexeme) :
    readLexemes? stack .itemOrClose (json.tokens ++ rest) =
      readLexemes? stack .value (json.tokens ++ rest) := by
  cases json <;> rfl

/-- Fields whose names have been read. -/
def named (fields : List (String × Json)) : List (Option String × Json) :=
  fields.map fun (name, value) => (some name, value)

/-- Names that have all been read make an object. -/
theorem ofFields_named (fields : List (String × Json)) : ofFields (named fields) = .object fields := by
  rw [ofFields]
  suffices all : List.mapM _ (named fields) = some fields by rw [all]
  induction fields with
  | nil => rfl
  | cons field fields ih =>
      rw [named, List.map_cons, List.mapM_cons, ← named, ih]
      rfl

/-- A name and its colon are read before the value of a field. -/
theorem readLexemes?_name {expecting : Expecting}
    (isName : expecting = .name ∨ expecting = .nameOrClose) (name : String) (stack : List Frame)
    (before : List (Option String × Json)) (rest : List Lexeme) :
    readLexemes? (.object before none :: stack) expecting
        (.scalar (.string name) :: .colon :: rest) =
      readLexemes? (.object before (some name) :: stack) .value rest := by
  rcases isName with rfl | rfl <;> rfl

mutual

/-- The lexemes of a tree build the tree, wherever a value is expected. -/
theorem readLexemes?_tokens : {json : Json} → json.Writable → ∀ (stack : List Frame)
    (rest : List Lexeme),
    readLexemes? stack .value (json.tokens ++ rest) = proceed rest (complete json stack)
  | .null, _, stack, rest => readLexemes?_cons stack .value _ rest
  | .boolean _, _, stack, rest => readLexemes?_cons stack .value _ rest
  | .number _, _, stack, rest => readLexemes?_cons stack .value _ rest
  | .string _, _, stack, rest => readLexemes?_cons stack .value _ rest
  | .unreadable, writable, _, _ => writable.elim
  | .array items, writable, stack, rest => by
      have inside := readLexemes?_items writable stack [] rest
      simpa [tokens, readLexemes?_cons, advance, startValue, proceed] using inside
  | .object fields, writable, stack, rest => by
      have inside := readLexemes?_fields writable (.inr rfl) stack [] rest
      simpa [tokens, readLexemes?_cons, advance, startValue, proceed, named] using inside

/-- The lexemes of some items, and the bracket behind them, complete the open array. -/
theorem readLexemes?_items : {items : List Json} → AllWritable items →
    ∀ (stack : List Frame) (before : List Json) (rest : List Lexeme),
    readLexemes? (.array before :: stack) .itemOrClose
        (tokensOfItems items ++ .closeArray :: rest) =
      proceed rest (complete (.array (before.reverse ++ items)) stack)
  | [], _, stack, before, rest => by
      simp [tokensOfItems, readLexemes?_cons, advance, closeFrame]
  | [item], writable, stack, before, rest => by
      rw [tokensOfItems, readLexemes?_itemOrClose, readLexemes?_tokens writable.1, complete,
        proceed, readLexemes?_cons]
      simp [advance, separate, closeFrame]
  | item :: next :: items, writable, stack, before, rest => by
      have tail := readLexemes?_items writable.2 stack (item :: before) rest
      -- Behind a comma the array may no longer be closed. That makes no difference, as an item
      -- follows.
      have again : readLexemes? (.array (item :: before) :: stack) .value
          (tokensOfItems (next :: items) ++ .closeArray :: rest) =
          readLexemes? (.array (item :: before) :: stack) .itemOrClose
            (tokensOfItems (next :: items) ++ .closeArray :: rest) := by
        cases items with
        | nil => exact (readLexemes?_itemOrClose next _ _).symm
        | cons other items =>
            rw [tokensOfItems, List.append_assoc, readLexemes?_itemOrClose]
            simp
      rw [tokensOfItems, List.append_assoc, readLexemes?_itemOrClose,
        readLexemes?_tokens writable.1, complete, proceed, List.cons_append, readLexemes?_cons,
        advance, separate, proceed, again, tail]
      · simp
      · simp

/-- The lexemes of some fields, and the brace behind them, complete the open object. -/
theorem readLexemes?_fields : {fields : List (String × Json)} → FieldsWritable fields →
    {expecting : Expecting} → (expecting = .name ∧ fields ≠ [] ∨ expecting = .nameOrClose) →
    ∀ (stack : List Frame) (before : List (String × Json)) (rest : List Lexeme),
    readLexemes? (.object (named before) none :: stack) expecting
        (tokensOfFields fields ++ .closeObject :: rest) =
      proceed rest (complete (.object (before.reverse ++ fields)) stack)
  -- Behind a comma a name must come, so only an object that has no field yet may be closed at once.
  | [], _, _, expected, stack, before, rest => by
      obtain ⟨-, nonempty⟩ | rfl := expected
      · exact absurd rfl nonempty
      · have closed := ofFields_named before.reverse
        simp [named] at closed
        simp [tokensOfFields, readLexemes?_cons, advance, closeFrame, named, closed]
  | [(name, value)], writable, _, expected, stack, before, rest => by
      have closed := ofFields_named (before.reverse ++ [(name, value)])
      simp [named] at closed
      rw [tokensOfFields, List.cons_append, List.cons_append,
        readLexemes?_name (expected.imp_left And.left), readLexemes?_tokens writable.1, complete,
        proceed, readLexemes?_cons]
      simp [advance, separate, closeFrame, named, closed]
  | (name, value) :: next :: fields, writable, _, expected, stack, before, rest => by
      have tail := readLexemes?_fields writable.2 (.inl ⟨rfl, List.cons_ne_nil _ _⟩) stack
        ((name, value) :: before) rest
      rw [tokensOfFields, List.append_assoc, List.cons_append, List.cons_append,
        readLexemes?_name (expected.imp_left And.left), readLexemes?_tokens writable.1, complete,
        proceed, List.cons_append, readLexemes?_cons, advance, separate, proceed]
      · simpa [named] using tail
      · simp

end

/-- What is written is read back. -/
theorem read?_write {json : Json} (writable : json.Writable) : read? json.write = some json := by
  have cut := lexemes_write writable [] (stopsRun_nil _)
  have built := readLexemes?_tokens writable [] []
  rw [List.append_nil] at cut built
  rw [read?, readFirst?, cut, lexemes, List.append_nil, built]
  rfl

end TextTemplate.Json
