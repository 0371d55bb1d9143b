import TextTemplate.Proofs.Checked.Scanners

/-! # Cutting tokens by offsets

The tokens between two offsets of a source, one after the other. Operators are found by cuts of
three lengths, the longest one first; a cut that is not in place only means that there is no such
operator. The tokens are those of the text between the offsets. -/

namespace TextTemplate.Checked

open Token Node.Parser

variable (overflow : Overflow) (source : Source) (stop : Nat)

/-! ### Operators -/

/-- The operator of a length at an offset, if its symbol ends before the end. Here a cut out of
place only means that there is no such operator. -/
def operatorOf (start length : Nat) : Option BinaryOperator :=
  (cut? source.text start (start + length)).bind fun symbol =>
    if stop < start + length then none else BinaryOperator.ofSymbol? symbol

/-- The operator at an offset with a byte, and the offset behind it. -/
def scanOperator (start : Nat) (byte : Char) : Reading (TokenKind × Nat) := do
  match [3, 2, 1].findSome? fun length =>
      (operatorOf source stop start length).map fun operator => (operator, length) with
  | some (operator, length) => return (.operator operator, start + length)
  | none =>
      if byte = '!' then return (.unary .not, start + 1)
      else if byte = '~' then return (.unary .bitNot, start + 1)
      else
        let rest ← cut? source.text start source.size
        let shown := rest.headD '?'
        failAt overflow source (.unexpectedCharacter shown) start
          (max (start + shown.utf8Size) (start + 1))

/-! ### All tokens -/

/-- The token at an offset, and the offset behind it. -/
def scanToken (previous : Option TokenKind) (start : Nat) : Reading (TokenKind × Nat) :=
  let byte := (peek source stop start).getD ' '
  let next := peek source stop (start + 1)
  if byte.isDigit then scanNumber overflow source stop start
  else if byte = '.' ∧ next.any Char.isDigit then scanNumber overflow source stop start
  else if byte = '-' ∧ expectsOperand previous then
    if next.any Char.isDigit ∨
        next = some '.' ∧ (peek source stop (start + 2)).any Char.isDigit then
      scanNumber overflow source stop start
    else return (.unary .negate, start + 1)
  else if byte = '"' ∨ byte = '\'' then scanString overflow source stop byte start
  else if isNameStart byte then scanName source stop start
  else if byte = '.' ∧ isClosing previous ∧ next.any isNameStart then
    scanProperty source stop start
  else if byte = '(' then return (.opening .round, start + 1)
  else if byte = ')' then return (.closing .round, start + 1)
  else if byte = '[' then return (.opening .square, start + 1)
  else if byte = ']' then return (.closing .square, start + 1)
  else if byte = ',' then return (.comma, start + 1)
  else scanOperator overflow source stop start byte

/-- The tokens from an offset on, of which there are fewer than `rounds`. -/
def tokensFrom : Nat → Option TokenKind → Nat → Reading (List Token)
  | 0, _, _ => outOfPlace
  | rounds + 1, previous, offset => do
      let start := (takeRun source stop isSeparator offset).2
      if stop ≤ start then return []
      else
        let (kind, after) ← scanToken overflow source stop previous start
        let span ← span overflow source start after
        return ⟨kind, span⟩ :: (← tokensFrom rounds (some kind) after)

/-- The tokens between two offsets. -/
def lex (overflow : Overflow) (source : Source) (start stop : Nat) : Reading (List Token) :=
  let start := min start source.size
  let stop := min stop source.size
  tokensFrom overflow source stop (stop - start + 1) none start

/-! ### Operators in texts -/

section Operators

variable {source : Source} {start stop : Nat} {body : List Char}

/-- An operator is found by its symbol. -/
theorem ofSymbol?_eq_some_iff {symbol : List Char} {operator : BinaryOperator} :
    BinaryOperator.ofSymbol? symbol = some operator ↔ symbol = operator.symbol.toList := by
  constructor
  · intro isSymbol
    have same := List.find?_some isSymbol
    exact (eq_of_beq same).symm
  · rintro rfl
    cases operator <;> rfl

/-- The symbols of operators are bytes of their own. -/
theorem byteLength_symbol (operator : BinaryOperator) :
    byteLength operator.symbol.toList = operator.symbol.length := by
  cases operator <;> decide

/-- A shorter cut from the same offset is the start of a longer one. -/
theorem prefix_of_cut? {text part : List Char} {middle : Nat}
    (first : cut? text start middle = some part) (here : cut? text start stop = some body)
    (le : middle ≤ stop) : part <+: body := by
  obtain ⟨before, after, isText, isStart, isMiddle⟩ := cut?_eq_some_iff.mp first
  obtain ⟨before', after', isText', isStart', isStop⟩ := cut?_eq_some_iff.mp here
  have split : splitBytes? start text = some (before, part ++ after) :=
    splitBytes?_eq_some_iff.mpr ⟨isText, isStart⟩
  rw [splitBytes?_eq_some_iff.mpr ⟨isText', isStart'⟩] at split
  obtain ⟨rfl, same⟩ := Prod.mk.inj (Option.some.inj split)
  rcases List.append_eq_append_iff.mp same with ⟨more, rfl, -⟩ | ⟨more, rfl, -⟩
  · rw [byteLength_append] at isMiddle
    obtain rfl : more = [] := byteLength_eq_zero_iff.mp (by omega)
    rw [List.append_nil]
  · exact List.prefix_append _ _

/-- The operator of a length at an offset is the one whose symbol the text starts with. -/
theorem operatorOf_eq_some_iff (here : cut? source.text start stop = some body) {length : Nat}
    {operator : BinaryOperator} : operatorOf source stop start length = some operator ↔
      body.take length = operator.symbol.toList ∧ operator.symbol.length = length := by
  rw [operatorOf, Option.bind_eq_some_iff]
  constructor
  · rintro ⟨symbol, isCut, isOperator⟩
    rw [Option.ite_none_left_eq_some, ofSymbol?_eq_some_iff] at isOperator
    obtain ⟨inside, rfl⟩ := isOperator
    have size := stop_of_cut? isCut
    rw [byteLength_symbol] at size
    obtain ⟨more, rfl⟩ := prefix_of_cut? isCut here (Nat.le_of_not_lt inside)
    have isLength : operator.symbol.length = length := by omega
    exact ⟨by rw [← isLength, List.take_left' String.length_toList], isLength⟩
  · rintro ⟨isSymbol, isLength⟩
    have isCut := cut?_left (body.take length)
      (here.trans (congrArg some (List.take_append_drop length body).symm))
    rw [isSymbol, byteLength_symbol, isLength] at isCut
    refine ⟨_, isCut, Option.ite_none_left_eq_some.mpr ⟨?_, ofSymbol?_eq_some_iff.mpr rfl⟩⟩
    have size := congrArg byteLength (List.take_append_drop length body)
    rw [byteLength_append, isSymbol, byteLength_symbol, isLength] at size
    have isStop := stop_of_cut? here
    omega

/-- So it is read from that many characters of the text, if there are so many. -/
theorem map_operatorOf (here : cut? source.text start stop = some body) (length : Nat) :
    (operatorOf source stop start length).map (fun operator => (operator, length)) =
      if length ≤ body.length then
        (BinaryOperator.ofSymbol? (body.take length)).map fun operator =>
          (operator, operator.symbol.length)
      else none := by
  -- An operator is found by its length, and its symbol is as long as the characters taken.
  have taken (operator : BinaryOperator) (isSymbol : body.take length = operator.symbol.toList) :
      operator.symbol.length = min length body.length := by
    rw [← String.length_toList, ← isSymbol, List.length_take]
  split
  next fits =>
    cases isOperator : BinaryOperator.ofSymbol? (body.take length) with
    | some operator =>
        have isSymbol := ofSymbol?_eq_some_iff.mp isOperator
        have isLength : operator.symbol.length = length := by
          rw [taken operator isSymbol, Nat.min_eq_left fits]
        rw [(operatorOf_eq_some_iff here).mpr ⟨isSymbol, isLength⟩, Option.map_some,
          Option.map_some, isLength]
    | none =>
        rw [Option.map_none, Option.map_eq_none_iff, Option.eq_none_iff_forall_ne_some]
        intro operator isOperator'
        obtain ⟨isSymbol, -⟩ := (operatorOf_eq_some_iff here).mp isOperator'
        rw [ofSymbol?_eq_some_iff.mpr isSymbol] at isOperator
        cases isOperator
  next short =>
    rw [Option.map_eq_none_iff, Option.eq_none_iff_forall_ne_some]
    intro operator isOperator
    obtain ⟨isSymbol, isLength⟩ := (operatorOf_eq_some_iff here).mp isOperator
    have := taken operator isSymbol
    omega

/-- The operator at an offset is the longest one that the text starts with. -/
theorem findSome?_operatorOf {c : Char} {rest : List Char}
    (here : cut? source.text start stop = some (c :: rest)) :
    ([3, 2, 1].findSome? fun length =>
        (operatorOf source stop start length).map fun operator => (operator, length)) =
      (operatorAt? (c :: rest)).map fun operator => (operator, operator.symbol.length) := by
  simp only [List.findSome?_cons, List.findSome?_nil, map_operatorOf here, operatorAt?_eq]
  -- With fewer characters than the longest symbols have, all of them are looked at more than once.
  match rest with
  | [] =>
      simp only [List.length_cons, List.length_nil, List.take_succ_cons, List.take_nil,
        Nat.zero_add, Nat.reduceLeDiff, if_true, if_false]
      generalize BinaryOperator.ofSymbol? [c] = one
      cases one <;> rfl
  | [d] =>
      simp only [List.length_cons, List.length_nil, List.take_succ_cons, List.take_nil,
        List.take_zero, Nat.zero_add, Nat.reduceAdd, Nat.reduceLeDiff, if_true, if_false]
      generalize BinaryOperator.ofSymbol? [c, d] = two
      generalize BinaryOperator.ofSymbol? [c] = one
      cases two <;> cases one <;> rfl
  | d :: e :: more =>
      have fits : 3 ≤ (c :: d :: e :: more).length := by simp
      rw [if_pos fits, if_pos (Nat.le_of_succ_le fits), if_pos (by simp)]
      generalize BinaryOperator.ofSymbol? (List.take 3 _) = three
      generalize BinaryOperator.ofSymbol? (List.take 2 _) = two
      generalize BinaryOperator.ofSymbol? (List.take 1 _) = one
      cases three <;> cases two <;> cases one <;> rfl

end Operators

/-! ### Tokens in texts -/

section Tokens

variable {overflow : Overflow} {source : Source} [overflow.Fits source] {start stop : Nat}
  {c : Char} {rest : List Char}

/-- What a step at an offset finds, with the offset behind the characters that it takes. -/
def stepped (source : Source) (start : Nat) (c : Char) (rest : List Char) (step : Step) :
    Reading (TokenKind × Nat) :=
  found source ((locate source step).map fun token =>
    (token.1, start + byteLength (c :: rest.take token.2)))

/-- A solid start takes as many bytes as characters. -/
theorem stepped_solid {kind : TokenKind} {count : Nat}
    (starts : StartsSolid (count + 1) (c :: rest)) :
    stepped source start c rest (.ok (kind, count)) = pure (kind, start + (count + 1)) := by
  have size := byteLength_take starts
  rw [List.take_succ_cons] at size
  simp [stepped, locate, Except.map, size]

variable (overflow) in
/-- A number at an offset is that of the text. -/
theorem scanNumber_stepped (here : cut? source.text start stop = some (c :: rest))
    (isSolid : IsSolid c) (positive : 0 < (numberPart (c :: rest)).2) :
    scanNumber overflow source stop start =
      stepped source start c rest (lexNumber (c :: rest) start) := by
  rw [scanNumber_eq here positive]
  cases lexed : lexNumber (c :: rest) start with
  | error => rfl
  | ok token =>
      obtain ⟨kind, count⟩ := token
      rw [stepped_solid (startsSolid_lexNumber isSolid lexed)]
      rfl

/-- What starts like a number takes characters for it. -/
theorem numberPart_pos (starts : startsWithNumber (c :: rest) = true ∨ c = '-') :
    0 < (numberPart (c :: rest)).2 := by
  simp only [numberPart]
  rcases starts with starts | rfl
  · simp only [startsWithNumber, startsWithDigit, List.head?_cons, Option.any_some, Bool.or_eq_true,
      Bool.and_eq_true, beq_iff_eq, Option.some.injEq, List.drop_one, List.tail_cons] at starts
    rcases starts with isDigit | ⟨rfl, isDigit⟩
    · have noSign : (c == '-') = false := by
        rw [beq_eq_false_iff_ne]
        rintro rfl
        exact absurd isDigit (by decide)
      simp only [List.takeWhile_cons, noSign, Bool.false_eq_true, if_false, List.take_nil,
        List.length_nil, List.drop_zero, isDigit, if_true, List.length_cons]
      omega
    · have fraction : fractionPart ('.' :: rest) = '.' :: rest.takeWhile Char.isDigit := by
        simp [fractionPart, startsWithDigit, isDigit]
      simp only [List.takeWhile_cons, show ('.' == '-') = false by decide,
        show Char.isDigit '.' = false by decide, Bool.false_eq_true, if_false, List.take_nil,
        List.length_nil, List.drop_zero, fraction, List.length_cons]
      omega
  · simp only [List.takeWhile_cons, beq_self_eq_true, if_true, List.take_succ_cons,
      List.length_cons]
    omega

variable (overflow) in
/-- The operator at an offset is that of the text. -/
theorem scanOperator_eq (here : cut? source.text start stop = some (c :: rest)) :
    scanOperator overflow source stop start (lead c) =
      stepped source start c rest (lexOperator c rest start) := by
  -- What is unknown is reported at its character, for which the text goes on to the end of the
  -- source.
  obtain ⟨more, behind⟩ : ∃ more, cut? source.text start source.size = some (c :: more) := by
    obtain ⟨before, after, isText, isStart, -⟩ := cut?_eq_some_iff.mp here
    refine ⟨rest ++ after, cut?_eq_some_iff.mpr ⟨before, [], by simp [isText], isStart, ?_⟩⟩
    rw [Source.size, isText, byteLength_append, isStart, List.cons_append]
  have le : max c.utf8Size 1 = c.utf8Size := Nat.max_eq_left c.utf8Size_pos
  have lexed (kind : TokenKind) (count : Nat)
      (isStep : lexOperator c rest start = .ok (kind, count)) :
      stepped source start c rest (lexOperator c rest start) =
        pure (kind, start + (count + 1)) := by
    rw [isStep]
    exact stepped_solid (startsSolid_lexOperator isStep)
  simp only [scanOperator, findSome?_operatorOf here,
    lead_eq_iff (show Char.toNat '!' < 128 by decide),
    lead_eq_iff (show Char.toNat '~' < 128 by decide)]
  cases isOperator : operatorAt? (c :: rest) with
  | some operator =>
      have isStep : lexOperator c rest start =
          .ok (.operator operator, operator.symbol.length - 1) := by
        rw [lexOperator, isOperator]
      have positive : 0 < operator.symbol.length := by cases operator <;> decide
      rw [lexed _ _ isStep, Nat.sub_add_cancel positive]
      rfl
  | none =>
      by_cases isNot : c = '!'
      · rw [lexed (.unary .not) 0 (by rw [lexOperator, isOperator]; simp [isNot])]
        simp [isNot]
      · by_cases isBitNot : c = '~'
        · rw [lexed (.unary .bitNot) 0 (by rw [lexOperator, isOperator]; simp [isBitNot])]
          simp [isBitNot]
        · simp [lexOperator, isOperator, isNot, isBitNot, behind, stepped, locate, Except.map,
            Located.span, le]

/-- Looking ahead tells whether a number starts. -/
theorem startsWithNumber_iff {body : List Char} (here : cut? source.text start stop = some body) :
    ((peek source stop start).any Char.isDigit = true ∨ peek source stop start = some '.' ∧
        (peek source stop (start + 1)).any Char.isDigit = true) ↔
      startsWithNumber body = true := by
  rw [any_peek isNarrow_isDigit here, peek_eq_some_iff (by decide) here, startsWithNumber,
    Bool.or_eq_true, Bool.and_eq_true, beq_iff_eq, startsWithDigit]
  refine or_congr_right (and_congr_right fun isPoint => ?_)
  rw [any_peek isNarrow_isDigit (cut?_tail (by decide) isPoint here), startsWithDigit,
    List.drop_one]

/-- A token of one character below 128 takes one byte. -/
theorem stepped_one (ascii : c.toNat < 128) (kind : TokenKind) :
    stepped source start c rest (.ok (kind, 0)) = pure (kind, start + 1) := by
  simp [stepped, locate, Except.map, byteLength, utf8Size_ascii ascii]

/-- The name at an offset is the token of the text. -/
theorem scanName_stepped (here : cut? source.text start stop = some (c :: rest))
    (starts : isNameStart c = true) :
    scanName source stop start =
      stepped source start c rest
        (.ok (nameToken ((c :: rest).takeWhile isPathChar)
            ((c :: rest).drop ((c :: rest).takeWhile isPathChar).length),
          ((c :: rest).takeWhile isPathChar).length - 1)) := by
  have positive : 0 < ((c :: rest).takeWhile isPathChar).length := by
    rw [List.takeWhile_cons_of_pos (isPathChar_of_isNameStart starts)]
    exact Nat.succ_pos _
  have run := StartsSolid.takeWhile isPathChar (fun _ => isSolid_of_isPathChar) (c :: rest)
  have behind : (c :: rest).drop ((c :: rest).takeWhile isPathChar).length =
      (c :: rest).dropWhile isPathChar := by
    have split := @List.drop_left _ ((c :: rest).takeWhile isPathChar)
      ((c :: rest).dropWhile isPathChar)
    rwa [List.takeWhile_append_dropWhile] at split
  rw [scanName_eq here, behind, stepped_solid (by rwa [Nat.sub_add_cancel positive]),
    Nat.sub_add_cancel positive]

/-- The token at an offset is that of the text. -/
theorem scanToken_eq (here : cut? source.text start stop = some (c :: rest))
    (previous : Option TokenKind) :
    scanToken overflow source stop previous start =
      stepped source start c rest (lexToken previous c rest start stop) := by
  have isByte : peek source stop start = some (lead c) := peek_eq here
  have is (symbol : Char) (ascii : symbol.toNat < 128) : lead c = symbol ↔ c = symbol :=
    lead_eq_iff ascii
  simp only [scanToken, isByte, Option.getD_some, isNarrow_isDigit.lead, isNarrow_isNameStart.lead,
    is '.' (by decide), is '-' (by decide), is '"' (by decide), is '\'' (by decide),
    is '(' (by decide), is ')' (by decide), is '[' (by decide), is ']' (by decide),
    is ',' (by decide)]
  by_cases ascii : c.toNat < 128
  · have behind := cut?_cons ascii here
    have next {kind : Char → Bool} (narrow : IsNarrow kind) :
        (peek source stop (start + 1)).any kind = rest.head?.any kind := any_peek narrow behind
    have starts := startsWithNumber_iff here
    simp only [isByte, Option.any_some, isNarrow_isDigit.lead, Option.some.injEq,
      is '.' (by decide)] at starts
    rw [lead_ascii ascii, lexToken]
    by_cases isNumber : startsWithNumber (c :: rest) = true
    · have isSolid : IsSolid c := by
        rcases starts.mpr isNumber with isDigit | ⟨rfl, -⟩
        · exact isSolid_of_isDigit isDigit
        · decide
      rw [if_pos isNumber,
        ← scanNumber_stepped overflow here isSolid (numberPart_pos (.inl isNumber))]
      by_cases isDigit : c.isDigit = true
      · rw [if_pos isDigit]
      · rw [if_neg isDigit, if_pos ((starts.mpr isNumber).resolve_left isDigit)]
    · obtain ⟨noDigit, noPoint⟩ := not_or.mp (mt starts.mp isNumber)
      have operator := scanOperator_eq overflow here
      rw [lead_ascii ascii] at operator
      simp only [if_neg isNumber, if_neg noDigit, if_neg noPoint,
        apply_ite (stepped source start c rest), stepped_one ascii, ← operator]
      -- Both look at the same things in the same order, so the choices agree one by one.
      refine ite_congr rfl (fun isMinus => ?_) (fun _ => ?_)
      · obtain ⟨rfl, -⟩ := isMinus
        rw [← scanNumber_stepped overflow here (by decide) (numberPart_pos (.inr rfl))]
        exact ite_congr (propext (startsWithNumber_iff behind)) (fun _ => rfl) (fun _ => rfl)
      · refine ite_congr rfl (fun isQuote => scanString_eq isQuote here) (fun _ => ?_)
        refine ite_congr rfl (fun starts => scanName_stepped here starts) (fun _ => ?_)
        refine ite_congr (by rw [next isNarrow_isNameStart]) (fun isSuffix => ?_) (fun _ => rfl)
        obtain ⟨rfl, -⟩ := isSuffix
        have suffix := StartsSolid.cons (show IsSolid '.' by decide)
          (.takeWhile isPathChar (fun _ => isSolid_of_isPathChar) rest)
        rw [stepped_solid suffix, scanProperty, scanPath_eq behind]
        simp only [lift_some, pure_bind, Nat.add_assoc, Nat.add_comm 1]
  · -- No token but an operator is looked for at a wide character, and none starts with it.
    have noDigit := Bool.eq_false_iff.mpr (mt (isNarrow_isDigit c) ascii)
    have noName := Bool.eq_false_iff.mpr (mt (isNarrow_isNameStart c) ascii)
    have other (symbol : Char) (narrow : symbol.toNat < 128) : c ≠ symbol := by
      rintro rfl
      exact ascii narrow
    simp [lexToken, startsWithNumber, startsWithDigit, noDigit, noName,
      scanOperator_eq overflow here, other '.' (by decide), other '-' (by decide),
      other '"' (by decide), other '\'' (by decide), other '(' (by decide), other ')' (by decide),
      other '[' (by decide), other ']' (by decide), other ',' (by decide)]

end Tokens

/-! ### Tokens of texts -/

/-- After a token, its other characters are passed over. -/
theorem lexFrom_drop (stop : Nat) (previous : Option TokenKind) (offset count : Nat)
    (text : List Char) :
    lexFrom stop previous offset count text =
      lexFrom stop previous (offset + byteLength (text.take count)) 0 (text.drop count) := by
  induction text generalizing offset count with
  | nil => rw [List.drop_nil, lexFrom, lexFrom]
  | cons c rest ih =>
      cases count with
      | zero => rfl
      | succ count => rw [lexFrom, ih, List.take_succ_cons, List.drop_succ_cons, byteLength,
          Nat.add_assoc]

/-- The separators before a token are passed over. -/
theorem lexFrom_dropWhile (stop : Nat) (previous : Option TokenKind) (offset : Nat)
    (text : List Char) :
    lexFrom stop previous offset 0 text =
      lexFrom stop previous (offset + (text.takeWhile isSeparator).length) 0
        (text.dropWhile isSeparator) := by
  induction text generalizing offset with
  | nil => rfl
  | cons c rest ih =>
      by_cases separates : isSeparator c = true
      · have size := utf8Size_ascii (isNarrow_isSeparator c separates)
        rw [lexFrom, if_pos separates, ih, List.takeWhile_cons_of_pos separates,
          List.dropWhile_cons_of_pos separates, List.length_cons, size, Nat.add_assoc,
          Nat.add_comm 1]
      · rw [List.takeWhile_cons_of_neg separates, List.dropWhile_cons_of_neg separates]
        rfl

section Lexing

variable {overflow : Overflow} {source : Source} [overflow.Fits source] {stop : Nat}
  {previous : Option TokenKind}

/-- Tokens that have been found, with their spans. -/
def spanned (source : Source) (tokens : List (Located TokenKind)) : List Token :=
  tokens.map fun token => ⟨token.item, token.span source⟩

/-- The tokens from an offset on are those of the text. -/
theorem tokensFrom_eq {rounds offset : Nat} {body : List Char}
    (here : cut? source.text offset stop = some body) (enough : body.length < rounds) :
    tokensFrom overflow source stop rounds previous offset = found source
      ((locate source (lexFrom stop previous offset 0 body)).map (spanned source)) := by
  -- Every token takes a character at least, so there are enough rounds for all that is left.
  induction rounds generalizing offset body previous with
  | zero => cases enough
  | succ rounds ih =>
      have after := cut?_dropWhile isNarrow_isSeparator here
      have shorter := (List.dropWhile_suffix (l := body) isSeparator).length_le
      have isStop := stop_of_cut? after
      rw [tokensFrom, takeRun_eq isNarrow_isSeparator here, lexFrom_dropWhile]
      generalize offset + (body.takeWhile isSeparator).length = start at after isStop
      cases behind : body.dropWhile isSeparator with
      | nil =>
          rw [behind] at isStop
          rw [if_pos (by rw [isStop]; exact Nat.le_refl _)]
          rfl
      | cons c rest =>
          rw [behind, byteLength] at isStop
          have positive := c.utf8Size_pos
          -- What stops the run of separators is none, so a token starts here.
          have noSeparator : isSeparator c = false := by
            have head := List.head?_dropWhile_not isSeparator body
            rwa [behind] at head
          rw [behind] at after shorter
          rw [if_neg (by omega), scanToken_eq after, lexFrom, noSeparator]
          cases lexToken previous c rest start stop with
          | error fault => rfl
          | ok token =>
              obtain ⟨kind, count⟩ := token
              have next := cut?_right (c :: rest.take count)
                (after.trans (congrArg some (by rw [List.cons_append, List.take_append_drop])))
              have fewer : (rest.drop count).length < rounds := by
                rw [List.length_drop]
                rw [List.length_cons] at shorter
                omega
              rw [stepped, locate, Except.map, found_ok, pure_bind]
              simp only [span_eq, lift_some, pure_bind, Bool.false_eq_true, if_false]
              rw [ih next fewer, lexFrom_drop stop (some kind) (start + c.utf8Size) count rest,
                byteLength, Nat.add_assoc]
              generalize lexFrom stop (some kind) _ 0 (rest.drop count) = others
              cases others <;> rfl

/-- The tokens between two offsets are those of the text there. -/
theorem lex_eq {start : Nat} {body : List Char} (here : cut? source.text start stop = some body) :
    Checked.lex overflow source start stop = found source (Token.lex source body start stop) := by
  have isStop := stop_of_cut? here
  have le : stop ≤ source.size := le_of_cut? here
  have length := length_le_byteLength body
  rw [Checked.lex, Nat.min_eq_left le, Nat.min_eq_left (by omega),
    tokensFrom_eq here (by omega), Token.lex]
  cases lexFrom stop none start 0 body <;> rfl

end Lexing

end TextTemplate.Checked
