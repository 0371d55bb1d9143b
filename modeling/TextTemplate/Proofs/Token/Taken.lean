import Mathlib.Logic.Basic
import TextTemplate.Proofs.Expr.Lexed
import TextTemplate.Proofs.Outcome
import TextTemplate.Proofs.Text.Bytes

/-! # What one token takes

A token takes a run of visible characters, or a string with both of its quotes. Separators at the
end of the text never belong to it and do not change what it is, nor does its place in a source. -/

namespace TextTemplate.Token

/-! ### Solid characters -/

/-- Whether a character may stand in a token outside of strings: it is visible and a byte of its
own, and no quote, brace or number sign. -/
structure IsSolid (c : Char) : Prop where
  visible : IsVisible c
  ascii : c.toNat < 128
  quiet : c ∉ ['"', '\'', '\x7d', '#']

instance (c : Char) : Decidable (IsSolid c) :=
  decidable_of_iff (IsVisible c ∧ c.toNat < 128 ∧ c ∉ ['"', '\'', '\x7d', '#'])
    ⟨fun all => ⟨all.1, all.2.1, all.2.2⟩,
      fun isSolid => ⟨isSolid.visible, isSolid.ascii, isSolid.quiet⟩⟩

/-- The characters of paths are of one byte. -/
theorem isNarrow_isPathChar : IsNarrow isPathChar :=
  isNarrow_isNameChar.or (isNarrow_beq (by decide))

/-- They are solid. -/
theorem isSolid_of_isPathChar {c : Char} (isPath : isPathChar c = true) : IsSolid c where
  visible := isVisible_of_isPathChar isPath
  ascii := isNarrow_isPathChar c isPath
  quiet := by
    intro isMember
    simp only [List.mem_cons, List.not_mem_nil, or_false] at isMember
    rcases isMember with rfl | rfl | rfl | rfl <;> cases isPath

/-- Digits are solid. -/
theorem isSolid_of_isDigit {c : Char} (isDigit : c.isDigit = true) : IsSolid c :=
  isSolid_of_isPathChar (by simp [isPathChar, isNameChar, Char.isAlphanum, isDigit])

/-- The characters of the symbols of operators are solid. -/
theorem isSolid_of_symbol (operator : BinaryOperator) :
    ∀ c ∈ operator.symbol.toList, IsSolid c := by
  have all : operator.symbol.toList.all fun c => decide (IsSolid c) := by cases operator <;> decide
  exact fun c isMember => of_decide_eq_true (List.all_eq_true.mp all c isMember)

/-! ### The text of a token -/

/-- Whether a text may be taken by one token. -/
inductive Taken : List Char → Prop where
  | solid {text : List Char} : text ≠ [] → (∀ c ∈ text, IsSolid c) → Taken text
  /-- A string ends at the quote that closes it, whatever follows. -/
  | quoted {quote : Char} {inside : List Char} :
      quote = '"' ∨ quote = '\'' →
      (∀ rest, closingQuote? quote 0 (inside ++ quote :: rest) = some inside.length) →
      Taken (quote :: (inside ++ [quote]))

/-- A closing quote ends the inside of a string, whatever follows it. -/
theorem exists_of_closingQuote? {quote : Char} {run length : Nat} {text : List Char}
    (closes : closingQuote? quote run text = some length) :
    ∃ inside others, text = inside ++ quote :: others ∧ inside.length = length ∧
      ∀ rest, closingQuote? quote run (inside ++ quote :: rest) = some length := by
  induction text generalizing run length with
  | nil => cases closes
  | cons c more ih =>
      rw [closingQuote?] at closes
      split at closes
      next here =>
        cases closes
        exact ⟨[], more, by rw [here.1, List.nil_append], rfl, fun rest => by
          simp [closingQuote?, here.2]⟩
      next notHere =>
        obtain ⟨before, there, rfl⟩ := Option.map_eq_some_iff.mp closes
        obtain ⟨inside, others, rfl, rfl, always⟩ := ih there
        refine ⟨c :: inside, others, rfl, rfl, fun rest => ?_⟩
        rw [List.cons_append, closingQuote?, if_neg notHere, always]
        rfl

/-! ### Solid starts of texts -/

/-- Whether a text has some number of characters, and the first ones of that number are solid. -/
structure StartsSolid (count : Nat) (text : List Char) : Prop where
  le : count ≤ text.length
  solid : ∀ c ∈ text.take count, IsSolid c

namespace StartsSolid

variable {count more : Nat} {text : List Char}

/-- Every text starts solidly with no characters at all. -/
theorem zero (text : List Char) : StartsSolid 0 text := ⟨Nat.zero_le _, by simp⟩

/-- What is solid from where a solid start ends lengthens it. -/
theorem add (first : StartsSolid count text) (second : StartsSolid more (text.drop count)) :
    StartsSolid (count + more) text where
  le := by
    have length := second.le
    have le := first.le
    rw [List.length_drop] at length
    omega
  solid := by
    rw [List.take_add]
    exact List.forall_mem_append.mpr ⟨first.solid, second.solid⟩

/-- A character in front of a solid start. -/
theorem cons {c : Char} (first : IsSolid c) (others : StartsSolid count text) :
    StartsSolid (count + 1) (c :: text) where
  le := Nat.succ_le_succ others.le
  solid := List.forall_mem_cons.mpr ⟨first, others.solid⟩

/-- A run of solid characters is a solid start. -/
theorem takeWhile (kind : Char → Bool) (solid : ∀ c, kind c = true → IsSolid c)
    (text : List Char) : StartsSolid (text.takeWhile kind).length text where
  le := (List.takeWhile_prefix kind).length_le
  solid := by
    rw [← List.prefix_iff_eq_take.mp (List.takeWhile_prefix kind)]
    exact fun c isMember => solid c (List.all_eq_true.mp List.all_takeWhile c isMember)

/-- A single one of the characters of a run. -/
theorem takeOne (kind : Char → Bool) (solid : ∀ c, kind c = true → IsSolid c)
    (text : List Char) : StartsSolid ((text.takeWhile kind).take 1).length text where
  le := by
    rw [List.length_take]
    exact Nat.le_trans (Nat.min_le_right ..) (takeWhile kind solid text).le
  solid := by
    have isPrefix : (text.takeWhile kind).take 1 <+: text :=
      (List.take_prefix _ _).trans (List.takeWhile_prefix kind)
    rw [← List.prefix_iff_eq_take.mp isPrefix]
    exact fun c isMember =>
      solid c (List.all_eq_true.mp List.all_takeWhile c (List.mem_of_mem_take isMember))

/-- What starts solidly is taken by one token. -/
theorem exists_taken {c : Char} {rest : List Char} (starts : StartsSolid (count + 1) (c :: rest)) :
    ∃ taken others, rest = taken ++ others ∧ taken.length = count ∧ Taken (c :: taken) := by
  refine ⟨rest.take count, rest.drop count, (List.take_append_drop _ _).symm, ?_,
    .solid (List.cons_ne_nil _ _) starts.solid⟩
  have le := starts.le
  simp only [List.length_cons, List.length_take] at le ⊢
  omega

end StartsSolid

/-! ### Numbers -/

/-- A fraction is solid. -/
theorem startsSolid_fractionPart (text : List Char) :
    StartsSolid (fractionPart text).length text := by
  unfold fractionPart
  split
  next both =>
    cases text with
    | nil => simp at both
    | cons c rest =>
        obtain ⟨rfl, -⟩ := by simpa using both
        exact .cons (by decide) (.takeWhile Char.isDigit (fun _ => isSolid_of_isDigit) rest)
  next => exact .zero text

/-- An exponent is taken from solid characters. -/
theorem startsSolid_exponentPart (text : List Char) :
    StartsSolid (exponentPart text).length text := by
  unfold exponentPart
  split
  next marked =>
    cases text with
    | nil => simp at marked
    | cons c rest =>
        have isMark : IsSolid c := by
          rcases by simpa using marked with rfl | rfl <;> decide
        extract_lets sign
        split
        next =>
          have digits := StartsSolid.takeWhile Char.isDigit
            (fun _ => isSolid_of_isDigit) (rest.drop sign.length)
          have signed : StartsSolid sign.length rest :=
            .takeOne _ (fun c isSign => by
              rcases by simpa using isSign with rfl | rfl <;> decide) rest
          have whole := StartsSolid.cons isMark (signed.add digits)
          simpa [Nat.add_comm 1, Nat.add_assoc] using whole
        next => exact .zero _
  next => exact .zero text

/-- The characters that a number takes are solid. -/
theorem startsSolid_numberPart (text : List Char) : StartsSolid (numberPart text).2 text := by
  have sign : StartsSolid ((text.takeWhile (· == '-')).take 1).length text :=
    .takeOne _ (fun c isSign => by rw [beq_iff_eq.mp isSign]; decide) text
  simp only [numberPart]
  have whole := sign.add (.takeWhile Char.isDigit (fun _ => isSolid_of_isDigit) _)
  have fraction := whole.add (startsSolid_fractionPart _)
  have exponent := fraction.add (startsSolid_exponentPart _)
  simpa [List.drop_drop, Nat.add_assoc] using exponent

/-- A number takes what spells it, and its first character at least. -/
theorem startsSolid_lexNumber {c : Char} {rest : List Char} {offset count : Nat} {kind : TokenKind}
    (first : IsSolid c) (lexed : lexNumber (c :: rest) offset = .ok (kind, count)) :
    StartsSolid (count + 1) (c :: rest) := by
  have starts := startsSolid_numberPart (c :: rest)
  simp only [lexNumber] at lexed
  split at lexed
  next => cases lexed
  next =>
    split at lexed
    next =>
      split at lexed
      next =>
        cases lexed
        cases length : (numberPart (c :: rest)).2 with
        | zero => exact .cons first (.zero rest)
        | succ count => exact length ▸ starts
      next => cases lexed
    next => cases lexed

/-! ### Operators -/

/-- The symbol of an operator is what it takes. -/
theorem take_of_operatorAt? {text : List Char} {operator : BinaryOperator}
    (found : operatorAt? text = some operator) :
    text.take operator.symbol.length = operator.symbol.toList := by
  have symbol {count : Nat} (isSymbol : BinaryOperator.ofSymbol? (text.take count) = some operator) :
      text.take operator.symbol.length = operator.symbol.toList := by
    have same : operator.symbol.toList = text.take count := by
      simpa using List.find?_some isSymbol
    rw [← String.length_toList, same, List.length_take, List.take_eq_take_iff]
    omega
  rw [operatorAt?_eq] at found
  rcases Option.or_eq_some_iff.mp found with three | ⟨-, others⟩
  · exact symbol three
  · rcases Option.or_eq_some_iff.mp others with two | ⟨-, one⟩
    · exact symbol two
    · exact symbol one

/-- An operator is taken from solid characters. -/
theorem startsSolid_lexOperator {c : Char} {rest : List Char} {offset count : Nat}
    {kind : TokenKind} (lexed : lexOperator c rest offset = .ok (kind, count)) :
    StartsSolid (count + 1) (c :: rest) := by
  unfold lexOperator at lexed
  split at lexed
  next operator found =>
    cases lexed
    -- The count leaves out the first character, which every symbol has.
    have taken := take_of_operatorAt? found
    have positive : 0 < operator.symbol.length := by cases operator <;> decide
    rw [Nat.sub_add_cancel positive]
    have length := congrArg List.length taken
    rw [List.length_take, String.length_toList] at length
    refine ⟨by omega, ?_⟩
    rw [taken]
    exact isSolid_of_symbol operator
  next =>
    split at lexed
    next isNot =>
      cases lexed
      exact .cons (by rw [isNot]; decide) (.zero rest)
    next =>
      split at lexed
      next isNot =>
        cases lexed
        exact .cons (by rw [isNot]; decide) (.zero rest)
      next => cases lexed

/-! ### Tokens -/

/-- A token takes the first character and some after it, which are a run of solid characters or a
string. -/
theorem taken_of_lexToken {previous : Option TokenKind} {c : Char} {rest : List Char}
    {offset stop count : Nat} {kind : TokenKind}
    (lexed : lexToken previous c rest offset stop = .ok (kind, count)) :
    ∃ taken others, rest = taken ++ others ∧ taken.length = count ∧ Taken (c :: taken) := by
  -- The cases are those of `lexToken`, in its order; a single character is taken in the last ones.
  obtain ⟨starts, lexed⟩ | ⟨-, lexed⟩ := ite_eq_iff.mp lexed
  · refine (startsSolid_lexNumber ?_ lexed).exists_taken
    simp only [startsWithNumber, startsWithDigit, List.head?_cons, Option.any_some, Bool.or_eq_true,
      Bool.and_eq_true, beq_iff_eq, Option.some.injEq] at starts
    rcases starts with isDigit | ⟨rfl, -⟩
    · exact isSolid_of_isDigit isDigit
    · decide
  obtain ⟨isSign, lexed⟩ | ⟨-, lexed⟩ := ite_eq_iff.mp lexed
  · obtain ⟨rfl, -⟩ := isSign
    obtain ⟨-, lexed⟩ | ⟨-, lexed⟩ := ite_eq_iff.mp lexed
    · exact (startsSolid_lexNumber (by decide) lexed).exists_taken
    · cases lexed
      exact (StartsSolid.cons (by decide) (.zero rest)).exists_taken
  obtain ⟨isQuote, lexed⟩ | ⟨-, lexed⟩ := ite_eq_iff.mp lexed
  · unfold lexString at lexed
    split at lexed
    next length closes =>
      cases lexed
      obtain ⟨inside, others, rfl, rfl, always⟩ := exists_of_closingQuote? closes
      exact ⟨inside ++ [c], others, by simp, by simp, .quoted isQuote always⟩
    next => cases lexed
  obtain ⟨starts, lexed⟩ | ⟨-, lexed⟩ := ite_eq_iff.mp lexed
  · cases lexed
    have run := StartsSolid.takeWhile isPathChar
      (fun _ => isSolid_of_isPathChar) (c :: rest)
    refine StartsSolid.exists_taken (Nat.sub_add_cancel ?_ ▸ run)
    rw [List.takeWhile_cons_of_pos (isPathChar_of_isNameStart starts), List.length_cons]
    exact Nat.succ_pos _
  obtain ⟨isDot, lexed⟩ | ⟨-, lexed⟩ := ite_eq_iff.mp lexed
  · cases lexed
    have run := StartsSolid.takeWhile isPathChar (fun _ => isSolid_of_isPathChar) rest
    refine (StartsSolid.cons ?_ run).exists_taken
    rw [isDot.1]
    decide
  iterate 5
    obtain ⟨same, lexed⟩ | ⟨-, lexed⟩ := ite_eq_iff.mp lexed
    · cases lexed
      exact (StartsSolid.cons (by rw [same]; decide) (.zero rest)).exists_taken
  exact (startsSolid_lexOperator lexed).exists_taken

/-! ### Tokens one after the other -/

/-- How a text that starts at `offset` is cut into tokens, from one token to the next. -/
inductive CutFrom (stop : Nat) :
    Option TokenKind → Nat → List Char → List (Located TokenKind) → Prop where
  | nil {previous : Option TokenKind} {offset : Nat} : CutFrom stop previous offset [] []
  | separator {previous : Option TokenKind} {offset : Nat} {c : Char} {rest : List Char}
      {found : List (Located TokenKind)} : isSeparator c = true →
      CutFrom stop previous (offset + c.utf8Size) rest found →
      CutFrom stop previous offset (c :: rest) found
  | token {previous : Option TokenKind} {offset : Nat} {c : Char} {taken rest : List Char}
      {kind : TokenKind} {found : List (Located TokenKind)} : isSeparator c = false →
      Taken (c :: taken) →
      lexToken previous c (taken ++ rest) offset stop = .ok (kind, taken.length) →
      CutFrom stop (some kind) (offset + byteLength (c :: taken)) rest found →
      CutFrom stop previous offset (c :: (taken ++ rest))
        (⟨kind, offset, offset + byteLength (c :: taken)⟩ :: found)

/-- The tokens that are found in a text are those that it is cut into. -/
theorem cutFrom_of_lexFrom {stop offset : Nat} {previous : Option TokenKind} {text : List Char}
    {found : List (Located TokenKind)} (lexed : lexFrom stop previous offset 0 text = .ok found) :
    CutFrom stop previous offset text found := by
  -- The induction is on the length: a token takes several characters at once.
  induction isLength : text.length using Nat.strong_induction_on
    generalizing previous offset text found with
  | _ length ih =>
  subst isLength
  cases text with
  | nil =>
      cases lexed
      exact .nil
  | cons c rest =>
      rw [lexFrom] at lexed
      split at lexed
      next separates => exact .separator separates (ih _ (Nat.lt_succ_self _) lexed rfl)
      next noSeparator =>
        split at lexed
        next => cases lexed
        next kind count first =>
          split at lexed
          next => cases lexed
          next others lexed' =>
            cases lexed
            obtain ⟨taken, rest, rfl, rfl, isTaken⟩ := taken_of_lexToken first
            have shorter : rest.length < (c :: (taken ++ rest)).length := by
              rw [List.length_cons, List.length_append]
              omega
            rw [lexFrom_skip, Nat.add_assoc] at lexed'
            rw [List.take_left]
            exact .token (by simpa using noSeparator) isTaken first (ih _ shorter lexed' rfl)

/-! ### What stands behind a text -/

namespace EndsOperand

variable {after : List Char} (ends : EndsOperand after)

include ends

/-- The first character of a text, if it is of a kind that ends no operand. -/
theorem filter_head?_append (kind : Char → Bool) (others : operandEnds.any kind = false)
    (text : List Char) : (text ++ after).head?.filter kind = text.head?.filter kind := by
  cases text with
  | nil => exact Option.filter_eq_none_iff.mpr fun c isHead =>
      List.any_eq_false.mp others c (ends.head c isHead)
  | cons => rfl

/-- Whether a text starts with a character that ends no operand. -/
theorem head?_append {c : Char} (other : c ∉ operandEnds) (text : List Char) :
    (text ++ after).head? = some c ↔ text.head? = some c := by
  cases text with
  | nil => exact iff_of_false (fun isHead => other (ends.head c isHead)) (by simp)
  | cons => rfl

/-- A run of characters that end no operand ends with the text. -/
theorem takeWhile_append (kind : Char → Bool) (others : operandEnds.any kind = false)
    (text : List Char) : (text ++ after).takeWhile kind = text.takeWhile kind := by
  induction text with
  | nil => exact takeWhile_run (by simp) (ends.stopsRun others)
  | cons c rest ih => simp only [List.cons_append, List.takeWhile_cons, ih]

/-- Whether a text starts with a digit does not depend on what ends the operand. -/
theorem startsWithDigit_append (text : List Char) :
    startsWithDigit (text ++ after) = startsWithDigit text := by
  have first := ends.filter_head?_append Char.isDigit (by decide) text
  simpa [startsWithDigit] using congrArg Option.isSome first

/-- Neither does whether it starts with a number. -/
theorem startsWithNumber_append (text : List Char) :
    startsWithNumber (text ++ after) = startsWithNumber text := by
  have point : ((text ++ after).head? == some '.') = (text.head? == some '.') := by
    rw [Bool.eq_iff_iff, beq_iff_eq, beq_iff_eq]
    exact ends.head?_append (by decide) text
  rw [startsWithNumber, startsWithNumber, ends.startsWithDigit_append, point]
  cases text with
  | nil => simp
  | cons c rest =>
      rw [List.cons_append, List.drop_succ_cons, List.drop_zero, List.drop_succ_cons,
        List.drop_zero, ends.startsWithDigit_append]

/-- Neither does its fraction. -/
theorem fractionPart_append (text : List Char) :
    fractionPart (text ++ after) = fractionPart text := by
  have point := ends.head?_append (c := '.') (by decide) text
  have digits := ends.takeWhile_append Char.isDigit (by decide)
  simp only [fractionPart, point]
  cases text with
  | nil => simp
  | cons c rest =>
      simp only [List.cons_append, List.drop_succ_cons, List.drop_zero, digits,
        ends.startsWithDigit_append]

/-- Neither does its exponent. -/
theorem exponentPart_append (text : List Char) :
    exponentPart (text ++ after) = exponentPart text := by
  have small := ends.head?_append (c := 'e') (by decide) text
  have capital := ends.head?_append (c := 'E') (by decide) text
  have signs := ends.takeWhile_append (fun c => c == '+' || c == '-') (by decide)
  have digits := ends.takeWhile_append Char.isDigit (by decide)
  simp only [exponentPart, small, capital]
  cases text with
  | nil => simp
  | cons c rest =>
      have length := (StartsSolid.takeOne (fun c => c == '+' || c == '-') (fun c isSign => by
        rcases by simpa using isSign with rfl | rfl <;> decide) rest).le
      simp only [List.cons_append, List.drop_succ_cons, List.drop_zero, signs, Nat.add_comm 1,
        List.drop_append_of_le_length length, ends.startsWithDigit_append, digits]

/-- What ends an operand does not belong to the number in front of it. -/
theorem numberPart_append (text : List Char) : numberPart (text ++ after) = numberPart text := by
  have signs := ends.takeWhile_append (fun c => c == '-') (by decide) text
  have digits := ends.takeWhile_append Char.isDigit (by decide)
  have length := (StartsSolid.takeOne (· == '-')
    (fun c isSign => by rw [beq_iff_eq.mp isSign]; decide) text).le
  simp only [numberPart, signs, List.drop_append_of_le_length length]
  generalize text.drop ((text.takeWhile (· == '-')).take 1).length = unsigned
  have point := ends.head?_append (c := '.') (by decide) unsigned
  have whole := StartsSolid.takeWhile Char.isDigit (fun _ => isSolid_of_isDigit) unsigned
  have fraction := whole.add (startsSolid_fractionPart _)
  simp only [digits, List.drop_append_of_le_length whole.le, ends.fractionPart_append,
    List.drop_append_of_le_length fraction.le, ends.exponentPart_append, point]

/-- The token of a number does not depend on what ends it or on its place. -/
theorem lexNumber_append (text : List Char) (offset offset' : Nat) :
    (lexNumber (text ++ after) offset').toOption = (lexNumber text offset).toOption := by
  simp only [lexNumber, ends.numberPart_append,
    List.drop_append_of_le_length (startsSolid_numberPart text).le,
    ends.filter_head?_append isNameChar (by decide)]
  split
  next => rfl
  next =>
    split
    next => split <;> rfl
    next => rfl

/-- Neither does whether it starts with the parenthesis of a call. -/
theorem callFollows_append (text : List Char) : callFollows (text ++ after) = callFollows text := by
  rw [callFollows, List.dropWhile_append, callFollows]
  split
  next none =>
    rw [List.isEmpty_iff.mp none]
    exact ends.noCall
  next =>
    rw [Bool.eq_iff_iff, beq_iff_eq, beq_iff_eq]
    exact ends.head?_append (by decide) _

/-- No symbol of an operator has a character in it that ends an operand. -/
theorem operatorAt?_append (text : List Char) : operatorAt? (text ++ after) = operatorAt? text := by
  cases after with
  | nil => rw [List.append_nil]
  | cons c more =>
      have unknown (before after : List Char) :
          BinaryOperator.ofSymbol? (before ++ c :: after) = none := by
        refine List.find?_eq_none.mpr fun operator _ same => ?_
        have isMember : c ∈ operator.symbol.toList := by
          rw [beq_iff_eq.mp same]
          simp
        have apart : operator.symbol.toList.all (· ∉ operandEnds) := by
          cases operator <;> decide
        exact of_decide_eq_true (List.all_eq_true.mp apart c isMember) (ends.head c rfl)
      -- Longer starts of the text than the text itself reach the character behind it.
      rw [operatorAt?_eq, operatorAt?_eq]
      rcases text with _ | ⟨first, _ | ⟨second, _ | ⟨third, rest⟩⟩⟩
      · have alone (after : List Char) := unknown [] after
        simp only [List.nil_append] at alone
        simp [alone]
        rfl
      · have one (after : List Char) := unknown [first] after
        simp only [List.singleton_append] at one
        simp [one]
      · have two (after : List Char) := unknown [first, second] after
        simp only [List.cons_append, List.nil_append] at two
        cases both : BinaryOperator.ofSymbol? [first, second] <;> simp [two, both]
      · simp

/-- The token at the start of a text does not depend on what ends the text as it ends an operand, or
on its place, if that is so for a string. -/
theorem lexToken_append (previous : Option TokenKind) (c : Char) (rest : List Char)
    (offset stop offset' stop' : Nat)
    (strings : c = '"' ∨ c = '\'' → (lexString c (rest ++ after) offset' stop').toOption =
      (lexString c rest offset stop).toOption) :
    (lexToken previous c (rest ++ after) offset' stop').toOption =
      (lexToken previous c rest offset stop).toOption := by
  have number := ends.startsWithNumber_append
  have name := ends.takeWhile_append isPathChar (by decide)
  have starts : (rest ++ after).head?.any isNameStart = rest.head?.any isNameStart := by
    have first := ends.filter_head?_append isNameStart (by decide) rest
    simpa using congrArg Option.isSome first
  unfold lexToken
  rw [← List.cons_append, number, number, name, name, starts]
  refine toOption_ite (fun _ => ends.lexNumber_append _ _ _) fun _ => ?_
  refine toOption_ite
    (fun _ => toOption_ite (fun _ => ends.lexNumber_append _ _ _) fun _ => rfl) fun _ => ?_
  refine toOption_ite strings fun _ => ?_
  refine toOption_ite (fun _ => ?_) fun _ => ?_
  · have length :=
      (StartsSolid.takeWhile isPathChar (fun _ => isSolid_of_isPathChar) (c :: rest)).le
    simp only [List.drop_append_of_le_length length, nameToken, ends.callFollows_append]
  -- A dotted suffix, whose name has been rewritten, and the five characters that stand alone.
  iterate 6 refine toOption_ite (fun _ => rfl) fun _ => ?_
  simp only [lexOperator, ← List.cons_append, ends.operatorAt?_append]
  split
  next => rfl
  next =>
    iterate 2
      split
      next => rfl
    rfl

end EndsOperand

/-! ### Strings in front of other texts -/

variable {quote : Char} {text : List Char}

/-- A string that is closed stays so, whatever stands behind the text. -/
theorem lexString_append {offset stop : Nat} {result : TokenKind × Nat}
    (lexed : lexString quote text offset stop = .ok result) (after : List Char)
    (offset' stop' : Nat) : lexString quote (text ++ after) offset' stop' = .ok result := by
  rw [lexString] at lexed ⊢
  split at lexed
  next length closes =>
    cases lexed
    obtain ⟨inside, others, rfl, rfl, always⟩ := exists_of_closingQuote? closes
    rw [List.append_assoc, List.cons_append, always, List.take_left]
    simp only [List.take_left]
  next => cases lexed

section Blanks

variable {blanks : List Char} (areSeparators : ∀ c ∈ blanks, isSeparator c = true)

include areSeparators

/-- No string ends among separators. -/
theorem closingQuote?_blanks (isQuote : quote = '"' ∨ quote = '\'') (run : Nat) :
    closingQuote? quote run blanks = none := by
  induction blanks generalizing run with
  | nil => rfl
  | cons c rest ih =>
      obtain ⟨first, others⟩ := List.forall_mem_cons.mp areSeparators
      have noQuote : c ≠ quote := by
        rintro rfl
        rcases isQuote with rfl | rfl <;> cases first
      rw [closingQuote?, if_neg (fun both => noQuote both.1), ih others]
      rfl

/-- Blanks behind a text have no closing quote. -/
theorem closingQuote?_append_blanks (isQuote : quote = '"' ∨ quote = '\'') (run : Nat)
    (text : List Char) :
    closingQuote? quote run (text ++ blanks) = closingQuote? quote run text := by
  induction text generalizing run with
  | nil => exact closingQuote?_blanks areSeparators isQuote run
  | cons c rest ih => rw [List.cons_append, closingQuote?, closingQuote?, ih]

/-- The token of a string does not depend on separators behind it or on its place. -/
theorem lexString_append_blanks (isQuote : quote = '"' ∨ quote = '\'') (text : List Char)
    (offset stop offset' stop' : Nat) :
    (lexString quote (text ++ blanks) offset' stop').toOption =
      (lexString quote text offset stop).toOption := by
  cases lexed : lexString quote text offset stop with
  | ok result => rw [lexString_append lexed]
  | error fault =>
      rw [lexString] at lexed ⊢
      rw [closingQuote?_append_blanks areSeparators isQuote]
      split at lexed
      next => cases lexed
      next => rfl

end Blanks

end TextTemplate.Token
