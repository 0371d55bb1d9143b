import TextTemplate.Proofs.Numeric.Spelling
import TextTemplate.Proofs.Token.Strings

/-! # Texts of tokens

What a token at the front of a text is depends on whether an operand is expected there. A text that
is put together from tokens and blanks is cut into these tokens. -/

namespace TextTemplate.Token

/-! ### Cutting -/

/-- Whether a token is cut off the front of a text that goes on with `rest`, at a place where an
operand is expected or not. -/
def IsCut (expecting : Bool) (token rest : List Char) (kind : TokenKind) : Prop :=
  ∃ c more, token = c :: more ∧ isSeparator c = false ∧
    ∀ previous offset stop, expectsOperand previous = expecting →
      lexToken previous c (more ++ rest) offset stop = .ok (kind, more.length)

/-- Whether a text consists of tokens with blanks between them. -/
inductive Lexed : Bool → List Char → List TokenKind → Prop where
  | nil {expecting : Bool} : Lexed expecting [] []
  | blank {expecting : Bool} {text : List Char} {kinds : List TokenKind} :
      Lexed expecting text kinds → Lexed expecting (' ' :: text) kinds
  | token {expecting : Bool} {token rest : List Char} {kind : TokenKind} {kinds : List TokenKind} :
      IsCut expecting token rest kind → Lexed (expectsOperand (some kind)) rest kinds →
      Lexed expecting (token ++ rest) (kind :: kinds)

/-- Characters of a token that has been cut off are passed over. -/
theorem lexFrom_skip (stop : Nat) (previous : Option TokenKind) (offset : Nat)
    (run rest : List Char) :
    lexFrom stop previous offset run.length (run ++ rest) =
      lexFrom stop previous (offset + byteLength run) 0 rest := by
  induction run generalizing offset with
  | nil => rfl
  | cons c run ih =>
      rw [List.cons_append, List.length_cons, lexFrom, ih, byteLength, Nat.add_assoc]

/-- A text of tokens is cut into them. -/
theorem lexFrom_of_lexed {expecting : Bool} {text : List Char} {kinds : List TokenKind}
    (lexed : Lexed expecting text kinds) (stop : Nat) (previous : Option TokenKind) (offset : Nat)
    (expects : expectsOperand previous = expecting) :
    ∃ found, lexFrom stop previous offset 0 text = .ok found ∧
      found.map (·.item) = kinds := by
  induction lexed generalizing previous offset with
  | nil => exact ⟨[], rfl, rfl⟩
  | blank _ ih => exact ih previous _ expects
  | @token expecting token rest kind kinds isCut _ ih =>
      obtain ⟨c, more, rfl, noSeparator, cut⟩ := isCut
      obtain ⟨found, others, items⟩ :=
        ih (some kind) (offset + c.utf8Size + byteLength more) rfl
      refine ⟨⟨kind, offset, offset + byteLength (c :: (more ++ rest).take more.length)⟩ :: found, ?_,
        congrArg (kind :: ·) items⟩
      rw [List.cons_append, lexFrom]
      simp only [noSeparator, Bool.false_eq_true, if_false, cut previous offset stop expects,
        lexFrom_skip, others]

/-- The tokens of a text of tokens. -/
theorem lex_of_lexed {text : List Char} {kinds : List TokenKind} (lexed : Lexed true text kinds)
    (source : Source) (start stop : Nat) :
    ∃ tokens, lex source text start stop = .ok tokens ∧ tokens.map Token.kind = kinds := by
  obtain ⟨found, cut, items⟩ := lexFrom_of_lexed lexed stop none start rfl
  refine ⟨_, by rw [lex, cut], ?_⟩
  rw [← items, List.map_map]
  rfl

/-- There are five separators. -/
theorem of_isSeparator {c : Char} (h : isSeparator c = true) :
    c = ' ' ∨ c = '\t' ∨ c = '\n' ∨ c = '\x0c' ∨ c = '\r' := by
  simpa [isSeparator, or_assoc] using h

/-! ### What may follow an operand -/

/-- The characters that end an operand: separators, closing brackets, commas, and what opens a
key. -/
def operandEnds : List Char := [' ', '\t', '\n', '\x0c', '\r', ')', ']', ',', '[']

/-- Whether a text may follow an operand without being taken for a part of it. -/
structure EndsOperand (rest : List Char) : Prop where
  head : ∀ c, rest.head? = some c → c ∈ operandEnds
  noCall : callFollows rest = false

/-- The end of a text ends an operand. -/
theorem endsOperand_nil : EndsOperand [] where
  head := nofun
  noCall := rfl

/-- Closing brackets, commas and opening square brackets end an operand. -/
theorem endsOperand_cons {c : Char} (isEnd : c ∈ [')', ']', ',', '[']) (rest : List Char) :
    EndsOperand (c :: rest) where
  head := by
    intro first same
    cases same
    exact List.mem_append_right [' ', '\t', '\n', '\x0c', '\r'] isEnd
  noCall := by
    simp only [List.mem_cons, List.not_mem_nil, or_false] at isEnd
    rcases isEnd with rfl | rfl | rfl | rfl <;> rfl

/-- Separators end an operand when nothing follows them. -/
theorem endsOperand_of_separators {blanks : List Char}
    (areSeparators : ∀ c ∈ blanks, isSeparator c = true) : EndsOperand blanks where
  head := by
    intro c isHead
    rcases of_isSeparator (areSeparators c (List.mem_of_mem_head? isHead)) with
      rfl | rfl | rfl | rfl | rfl <;> decide
  noCall := by
    have gone : blanks.dropWhile isSeparator = [] := List.dropWhile_eq_nil_iff.mpr areSeparators
    rw [callFollows, gone]
    rfl

/-- A blank ends an operand when no parenthesis follows it. -/
theorem endsOperand_blank {rest : List Char} (noCall : callFollows rest = false) :
    EndsOperand (' ' :: rest) where
  head := by
    intro first same
    cases same
    exact List.mem_cons_self ..
  noCall := noCall

/-- A run of characters that may not follow an operand stops where the operand does. -/
theorem EndsOperand.stopsRun {rest : List Char} (ends : EndsOperand rest) {kind : Char → Bool}
    (others : operandEnds.any kind = false) : StopsRun kind rest := by
  cases rest with
  | nil => exact stopsRun_nil _
  | cons c rest =>
      refine stopsRun_cons.mpr (Bool.eq_false_iff.mpr ?_)
      exact List.any_eq_false.mp others c (ends.head c rfl)

/-! ### Numbers -/

/-- The fraction that comes first is the one that is written there. -/
theorem fractionPart_append {fraction rest : List Char} (ends : EndsOperand rest)
    (isFraction : Numeric.IsFraction fraction) :
    fractionPart (fraction ++ rest) = fraction := by
  rcases isFraction with rfl | ⟨digits, rfl, areDigits, nonempty⟩
  · rw [List.nil_append, fractionPart, if_neg]
    rintro ⟨point, -⟩
    exact absurd (ends.head _ point) (by decide)
  · have stops : StopsRun Char.isDigit rest := ends.stopsRun (by decide)
    have run := takeWhile_run areDigits stops
    obtain ⟨first, more, rfl⟩ := List.exists_cons_of_ne_nil nonempty
    have isDigit := areDigits first (List.mem_cons_self ..)
    simp only [List.cons_append] at run ⊢
    rw [fractionPart, if_pos ⟨rfl, by simpa [startsWithDigit] using isDigit⟩]
    simp only [List.drop_succ_cons, List.drop_zero, run]

/-- What ends an operand has no exponent in front. -/
theorem exponentPart_eq_nil {rest : List Char} (ends : EndsOperand rest) :
    exponentPart rest = [] := by
  rw [exponentPart, if_neg]
  rintro (mark | mark) <;> exact absurd (ends.head _ mark) (by decide)

/-- The number that comes first is the one that is written there. -/
theorem numberPart_append {text rest : List Char} (isPlain : Numeric.IsPlain text)
    (ends : EndsOperand rest) : numberPart (text ++ rest) = (text, text.length) := by
  obtain ⟨negative, whole, fraction, rfl, areDigits, nonempty, isFraction⟩ := isPlain
  -- The sign stands in front of a digit, so neither a second sign nor a point is mistaken for a
  -- part of it.
  have noPoint : (whole ++ (fraction ++ rest)).head? ≠ some '.' ∧
      (whole ++ (fraction ++ rest)).head? ≠ some '-' := by
    obtain ⟨first, more, rfl⟩ := List.exists_cons_of_ne_nil nonempty
    have isDigit := areDigits first (List.mem_cons_self ..)
    constructor <;>
    · intro same
      cases same
      cases isDigit
  have sign : (Numeric.signText negative ++ (whole ++ (fraction ++ rest))).takeWhile (· == '-') =
      Numeric.signText negative := by
    refine takeWhile_run ?_ ?_
    · cases negative <;> simp [Numeric.signText]
    · generalize whole ++ (fraction ++ rest) = text at noPoint
      cases text with
      | nil => exact stopsRun_nil _
      | cons c more => exact stopsRun_cons.mpr (beq_eq_false_iff_ne.mpr (by simpa using noPoint.2))
  have once : (Numeric.signText negative).take 1 = Numeric.signText negative := by
    cases negative <;> rfl
  have wholeStops : StopsRun Char.isDigit (fraction ++ rest) := by
    rcases isFraction with rfl | ⟨digits, rfl, -, -⟩
    · exact ends.stopsRun (by decide)
    · exact stopsRun_cons.mpr (by decide)
  have run := takeWhile_run areDigits wholeStops
  have after : (whole ++ (fraction ++ rest)).drop (whole.length + fraction.length) = rest := by
    rw [← List.append_assoc, ← List.length_append, List.drop_left]
  simp only [numberPart, List.append_assoc, sign, once, List.drop_left, run,
    fractionPart_append ends isFraction, after, exponentPart_eq_nil ends, if_neg noPoint.1,
    List.append_nil, List.length_append, List.length_nil, Nat.add_zero, Nat.add_assoc]

/-- The spelling of a number is cut off as what it is read as. -/
theorem isCut_number {value again : Numeric} (respelled : value.Respelled again)
    {rest : List Char} (ends : EndsOperand rest) :
    IsCut true value.spelling rest (.number again) := by
  have part := numberPart_append respelled.plain ends
  obtain ⟨negative, whole, fraction, text, areDigits, nonempty, -⟩ := respelled.plain
  obtain ⟨first, more, rfl⟩ := List.exists_cons_of_ne_nil nonempty
  have isDigit := areDigits first (List.mem_cons_self ..)
  have startsHere (rest : List Char) : startsWithNumber (first :: rest) = true := by
    simp [startsWithNumber, startsWithDigit, isDigit]
  have noName : rest.head?.filter isNameChar = none := by
    rw [Option.filter_eq_none_iff]
    intro c isHead
    exact List.any_eq_false.mp (by decide) c (ends.head c isHead)
  have number (offset : Nat) : lexNumber (value.spelling ++ rest) offset =
      .ok (.number again, value.spelling.length - 1) := by
    simp only [lexNumber, part, List.drop_left, noName, respelled.parsed, respelled.finite, if_true]
  rw [text] at number ⊢
  cases negative with
  | true =>
      refine ⟨'-', (first :: more) ++ fraction, rfl, by decide, fun previous offset stop expects => ?_⟩
      -- The sign belongs to the number because an operand is expected here.
      have sign : startsWithNumber ('-' :: ((first :: more) ++ fraction ++ rest)) = false := by rfl
      rw [lexToken, if_neg (by rw [sign]; exact Bool.false_ne_true), if_pos ⟨rfl, expects⟩]
      simp only [List.cons_append, startsHere, if_true]
      exact number offset
  | false =>
      refine ⟨first, more ++ fraction, rfl, ?_, fun previous offset stop _ => ?_⟩
      · rw [Bool.eq_false_iff]
        intro isSeparator
        rcases of_isSeparator isSeparator with rfl | rfl | rfl | rfl | rfl <;> cases isDigit
      · rw [lexToken, if_pos (startsHere _)]
        exact number offset

/-! ### Names -/

/-- The codes of letters. -/
theorem of_isAlpha {c : Char} (isAlpha : c.isAlpha = true) :
    (0x41 ≤ c.toNat ∧ c.toNat ≤ 0x5A) ∨ (0x61 ≤ c.toNat ∧ c.toNat ≤ 0x7A) := by
  have bounds : (decide ('A'.val ≤ c.val ∧ c.val ≤ 'Z'.val) ||
      decide ('a'.val ≤ c.val) && decide (c.val ≤ 'z'.val)) = true := isAlpha
  simpa [UInt32.le_iff_toNat_le] using bounds

/-- What starts a name starts nothing else. -/
theorem other_of_isNameStart {c : Char} (starts : isNameStart c = true) :
    isSeparator c = false ∧ c ≠ '-' ∧ c ≠ '"' ∧ c ≠ '\'' ∧
      ∀ rest, startsWithNumber (c :: rest) = false := by
  have other (d : Char) (isOther : isNameStart d = false) : c ≠ d := by
    rintro rfl
    rw [starts] at isOther
    cases isOther
  have noDigit : c.isDigit = false := by
    rw [Bool.eq_false_iff]
    intro isDigit
    simp only [isNameStart, Char.isDigit, Bool.or_eq_true, Bool.and_eq_true, decide_eq_true_eq,
      beq_iff_eq, UInt32.le_iff_toNat_le] at starts isDigit
    rcases starts with isAlpha | rfl
    · rcases of_isAlpha isAlpha with upper | lower
      · exact absurd (Nat.le_trans upper.1 isDigit.2) (by decide)
      · exact absurd (Nat.le_trans lower.1 isDigit.2) (by decide)
    · exact absurd isDigit.2 (by decide)
  refine ⟨?_, other _ (by decide), other _ (by decide), other _ (by decide), fun rest => ?_⟩
  · rw [Bool.eq_false_iff]
    intro isSeparator
    rcases of_isSeparator isSeparator with rfl | rfl | rfl | rfl | rfl <;> cases starts
  · have noPoint := other '.' (by decide)
    simp [startsWithNumber, startsWithDigit, noDigit, noPoint]

/-- A path is cut off as far as it goes. -/
theorem isCut_path (expecting : Bool) {path rest : List Char} (isPath : IsPath path)
    (stops : StopsRun isPathChar rest) : IsCut expecting path rest (nameToken path rest) := by
  cases path with
  | nil => exact isPath.elim
  | cons c more =>
      obtain ⟨starts, others⟩ := isPath
      obtain ⟨noSeparator, noSign, noQuote, noApostrophe, noNumber⟩ := other_of_isNameStart starts
      have run : (c :: (more ++ rest)).takeWhile isPathChar = c :: more :=
        takeWhile_run
          (List.forall_mem_cons.mpr ⟨isPathChar_of_isNameStart starts, others⟩) stops
      refine ⟨c, more, rfl, noSeparator, fun previous offset stop _ => ?_⟩
      rw [lexToken, if_neg (by simp [noNumber]), if_neg (fun both => noSign both.1),
        if_neg (not_or.mpr ⟨noQuote, noApostrophe⟩), if_pos starts]
      simp only [run, List.length_cons, List.drop_succ_cons, List.drop_left, Nat.add_sub_cancel]

/-- The path of a variable is cut off where no parenthesis follows. -/
theorem isCut_identifier (expecting : Bool) {path : String} {rest : List Char}
    (spelled : (TokenKind.identifier path).IsSpelled) (ends : EndsOperand rest) :
    IsCut expecting path.toList rest (.identifier path) := by
  obtain ⟨isPath, notTrue, notFalse⟩ := spelled
  have cut := isCut_path expecting isPath (ends.stopsRun (by decide))
  rw [nameToken, if_neg (by simp [ends.noCall]), if_neg (by simpa [← String.toList_inj] using notTrue),
    if_neg (by simpa [← String.toList_inj] using notFalse), String.ofList_toList] at cut
  exact cut

/-- The name of a method is cut off in front of its parenthesis. -/
theorem isCut_method (expecting : Bool) {name : String} (rest : List Char)
    (spelled : (TokenKind.method name).IsSpelled) :
    IsCut expecting name.toList ('(' :: rest) (.method name) := by
  have cut := isCut_path expecting spelled
    (stopsRun_cons.mpr (by decide) : StopsRun isPathChar ('(' :: rest))
  have calls : callFollows ('(' :: rest) = true := rfl
  rw [nameToken, if_pos calls, String.ofList_toList] at cut
  exact cut

/-- A truth value is cut off as its word. -/
theorem isCut_boolean (expecting value : Bool) {rest : List Char} (ends : EndsOperand rest) :
    IsCut expecting (if value then "true".toList else "false".toList) rest (.boolean value) := by
  have isPath : IsPath (if value then "true".toList else "false".toList) := by
    cases value <;> simp [IsPath] <;> decide
  have cut := isCut_path expecting isPath (ends.stopsRun (by decide))
  rw [nameToken, ends.noCall] at cut
  cases value <;> exact cut

/-! ### Strings -/

/-- A string is cut off from its quote to the other one. -/
theorem isCut_text (expecting : Bool) (value : String) (rest : List Char) :
    IsCut expecting (Expr.quoted value) rest (.text value) := by
  refine ⟨'"', value.toList.flatMap Expr.escape ++ ['"'], rfl, by decide,
    fun previous offset stop _ => ?_⟩
  have noNumber (text : List Char) : startsWithNumber ('"' :: text) = false := rfl
  have closes : closingQuote? '"' 0 (value.toList.flatMap Expr.escape ++ '"' :: rest) = _ :=
    (Expr.escaped_flatMap value.toList).closingQuote? rfl
  rw [lexToken, if_neg (by simp [noNumber]), if_neg (fun both => absurd both.1 (by decide)),
    if_pos (.inl rfl), lexString, List.append_assoc, List.singleton_append, closes]
  simp only [List.take_left, decodeEscapes_flatMap, String.ofList_toList, List.length_append,
    List.length_cons, List.length_nil]

/-! ### Symbols -/

/-- Brackets and commas are cut off wherever they stand. -/
theorem isCut_opening (expecting : Bool) (bracket : Bracket) (rest : List Char) :
    IsCut expecting [bracket.opening] rest (.opening bracket) := by
  cases bracket <;> exact ⟨_, [], rfl, by decide, fun _ _ _ _ => by rfl⟩

/-- So are closing brackets. -/
theorem isCut_closing (expecting : Bool) (bracket : Bracket) (rest : List Char) :
    IsCut expecting [bracket.closing] rest (.closing bracket) := by
  cases bracket <;> exact ⟨_, [], rfl, by decide, fun _ _ _ _ => by rfl⟩

/-- So are commas. -/
theorem isCut_comma (expecting : Bool) (rest : List Char) :
    IsCut expecting [','] rest .comma :=
  ⟨',', [], rfl, by decide, fun _ _ _ _ => by rfl⟩

/-! ### Operators -/

/-- The longest symbol is looked for first. -/
theorem operatorAt?_eq (text : List Char) :
    operatorAt? text =
      (BinaryOperator.ofSymbol? (text.take 3)).or
        ((BinaryOperator.ofSymbol? (text.take 2)).or (BinaryOperator.ofSymbol? (text.take 1))) := by
  simp only [operatorAt?, BinaryOperator.maxSymbolLength, List.range_succ, List.range_zero,
    List.nil_append, List.cons_append, List.reverse_cons, List.reverse_nil, List.map_cons,
    List.map_nil, List.findSome?_cons, List.findSome?_nil]
  cases BinaryOperator.ofSymbol? (text.take 3) <;>
    cases BinaryOperator.ofSymbol? (text.take 2) <;>
      cases BinaryOperator.ofSymbol? (text.take 1) <;> rfl

/-- A symbol that a blank follows is no part of a longer one. -/
theorem operatorAt?_symbol (operator : BinaryOperator) (rest : List Char) :
    operatorAt? (operator.symbol.toList ++ ' ' :: rest) = some operator := by
  rw [operatorAt?_eq]
  cases operator
  all_goals cases rest <;> rfl

/-- The characters that symbols start with. -/
def symbolStarts : List Char :=
  ['|', '&', '^', '=', '!', '<', '>', '+', '-', '*', '/', '%', '~']

/-- A character that symbols start with starts nothing else, except for a sign where an operand is
expected. -/
theorem lexToken_symbol {previous : Option TokenKind} {c : Char} {rest : List Char}
    {offset stop : Nat} (isSymbol : c ∈ symbolStarts)
    (noSign : c = '-' → expectsOperand previous = false) :
    lexToken previous c rest offset stop = lexOperator c rest offset := by
  have signed (rest : List Char) : startsWithNumber ('-' :: rest) = false := rfl
  simp only [symbolStarts, List.mem_cons, List.not_mem_nil, or_false] at isSymbol
  rcases isSymbol with rfl | rfl | rfl | rfl | rfl | rfl | rfl | rfl | rfl | rfl | rfl | rfl | rfl
  case inr.inr.inr.inr.inr.inr.inr.inr.inl =>
    rw [lexToken, if_neg (by simp [signed]), if_neg (by simp [noSign rfl])]
    rfl
  all_goals rfl

/-- A binary operator is cut off where an operand has ended, if a blank follows it. -/
theorem isCut_operator (operator : BinaryOperator) (rest : List Char) :
    IsCut false operator.symbol.toList (' ' :: rest) (.operator operator) := by
  have found := operatorAt?_symbol operator rest
  have starts : ∃ c more, operator.symbol.toList = c :: more ∧ c ∈ symbolStarts ∧
      isSeparator c = false := by
    cases operator <;> simp [BinaryOperator.symbol, symbolStarts, isSeparator]
  obtain ⟨c, more, symbol, isSymbol, noSeparator⟩ := starts
  have length : operator.symbol.length - 1 = more.length := by
    rw [← String.length_toList, symbol, List.length_cons, Nat.add_sub_cancel]
  refine ⟨c, more, symbol, noSeparator, fun previous offset stop expects => ?_⟩
  rw [symbol, List.cons_append] at found
  rw [lexToken_symbol isSymbol (fun _ => expects), lexOperator, found]
  simp only [length]

/-- No symbol of a binary operator is found where none could stand. -/
theorem operatorAt?_eq_none {text : List Char}
    (none : ∀ operator : BinaryOperator, ∀ count ≤ 3, operator.symbol.toList ≠ text.take count) :
    operatorAt? text = .none := by
  have unknown (count : Nat) (le : count ≤ 3) :
      BinaryOperator.ofSymbol? (text.take count) = .none :=
    List.find?_eq_none.mpr fun operator _ => by simpa using none operator count le
  rw [operatorAt?_eq, unknown 3 (by decide), unknown 2 (by decide), unknown 1 (by decide)]
  rfl

/-- A unary operator is cut off where an operand is expected, unless what follows it makes a longer
symbol or a number of it. -/
theorem isCut_unary (operator : UnaryOperator) {rest : List Char}
    (noSymbol : operator = .not → rest.head? ≠ some '=')
    (noNumber : operator = .negate → startsWithNumber rest = false) :
    IsCut true operator.symbol.toList rest (.unary operator) := by
  cases operator with
  | not =>
      refine ⟨'!', [], rfl, by decide, fun previous offset stop _ => ?_⟩
      have none : operatorAt? ('!' :: rest) = none := by
        refine operatorAt?_eq_none fun operator count _ same => noSymbol rfl ?_
        -- A longer symbol that starts with an exclamation mark has an equals sign next.
        cases count with
        | zero => cases operator <;> simp [BinaryOperator.symbol] at same
        | succ count =>
            have next : (rest.take count).head? = some '=' := by
              cases operator <;> simp [BinaryOperator.symbol] at same <;> simp [← same]
            rw [List.head?_take] at next
            split at next
            next => cases next
            next => exact next
      rw [List.nil_append, lexToken_symbol (by decide) (fun same => absurd same (by decide)), lexOperator, none]
      rfl
  | bitNot =>
      refine ⟨'~', [], rfl, by decide, fun previous offset stop _ => ?_⟩
      have none : operatorAt? ('~' :: rest) = none := by
        refine operatorAt?_eq_none fun operator count _ same => ?_
        cases count <;> cases operator <;> simp [BinaryOperator.symbol] at same
      rw [List.nil_append, lexToken_symbol (by decide) (fun same => absurd same (by decide)), lexOperator, none]
      rfl
  | negate =>
      refine ⟨'-', [], rfl, by decide, fun previous offset stop expects => ?_⟩
      have signed : startsWithNumber ('-' :: rest) = false := rfl
      rw [List.nil_append, lexToken, if_neg (by simp [signed]), if_pos ⟨rfl, expects⟩,
        if_neg (by simp [noNumber rfl])]
      rfl

end TextTemplate.Token
