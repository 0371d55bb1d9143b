import TextTemplate.Json.Reader
import TextTemplate.Json.Writer
import TextTemplate.Proofs.Text.Runs

/-! # JSON strings and numbers are read back

A written string ends at its closing quote and its escapes stand for what was escaped. A number is
read as far as its spelling goes when nothing behind it could continue it. -/

namespace TextTemplate.Json

attribute [local simp] stringPieces? decodePieces?

/-! ### Strings -/

/-- What reading finds where a character was written. -/
def pieceOf (c : Char) : StringPiece :=
  if c.toNat < 0x20 ∧ c ≠ '\x08' ∧ c ≠ '\x0c' ∧ c ≠ '\n' ∧ c ≠ '\r' ∧ c ≠ '\t' then .code c.toNat
  else .plain c

/-- The two digits of a small number in base sixteen are read back. -/
theorem readHex?_small {number : Nat} (small : number < 0x20) :
    Digits.readHex? ['0', '0', hexDigit (number / 16), hexDigit number] = some number := by
  have all : ∀ n, n < 0x20 →
      Digits.readHex? ['0', '0', hexDigit (n / 16), hexDigit n] = some n := by decide
  exact all number small

/-- A character that stands for itself is read as it stands. -/
theorem stringPieces?_plain {c : Char} (rest : List Char) (notQuote : c ≠ '"')
    (notEscape : c ≠ '\\') (visible : ¬c.toNat < 0x20) :
    stringPieces? (c :: rest) =
      (stringPieces? rest).map fun (pieces, count) => (.plain c :: pieces, count + 1) := by
  rw [stringPieces?]
  · cases stringPieces? rest <;> simp [notEscape, visible]
  all_goals simp_all

/-- The characters that have an escape of their own. -/
def shortEscapes : List Char := ['"', '\\', '\x08', '\x0c', '\n', '\r', '\t']

/-- A character with an escape of its own is read as it is. -/
theorem stringPieces?_short {c : Char} (short : c ∈ shortEscapes) (rest : List Char) :
    stringPieces? (escape c ++ rest) =
      (stringPieces? rest).map fun (pieces, count) =>
        (pieceOf c :: pieces, count + (escape c).length) := by
  simp only [shortEscapes, List.mem_cons, List.not_mem_nil, or_false] at short
  rcases short with rfl | rfl | rfl | rfl | rfl | rfl | rfl <;>
    cases h : stringPieces? rest <;> simp [escape, pieceOf, stringPieces?, escapedChar?, h]

/-- A written character is read as one piece. -/
theorem stringPieces?_escape (c : Char) (rest : List Char) :
    stringPieces? (escape c ++ rest) =
      (stringPieces? rest).map fun (pieces, count) =>
        (pieceOf c :: pieces, count + (escape c).length) := by
  by_cases short : c ∈ shortEscapes
  · exact stringPieces?_short short rest
  simp only [shortEscapes, List.mem_cons, List.not_mem_nil, or_false, not_or] at short
  obtain ⟨quote, backslash, others⟩ := short
  by_cases control : c.toNat < 0x20
  · have hex := readHex?_small control
    cases h : stringPieces? rest <;>
      simp [escape, pieceOf, stringPieces?, h, hex, quote, backslash, others, control]
  · have plain := stringPieces?_plain rest quote backslash control
    simp [escape, pieceOf, plain, quote, backslash, others, control]

/-- A written string is read up to its closing quote. -/
theorem stringPieces?_quoted (text rest : List Char) :
    stringPieces? (text.flatMap escape ++ '"' :: rest) =
      some (text.map pieceOf, (text.flatMap escape).length + 1) := by
  induction text with
  | nil => simp [stringPieces?]
  | cons c text ih =>
      rw [List.flatMap_cons, List.append_assoc, stringPieces?_escape, ih]
      simp only [Option.map_some, List.map_cons, List.length_append]
      congr 2
      omega

/-- The number of a character that is no half of a surrogate pair stands for the character. -/
theorem decodePieces?_code {unit : Nat} (rest : List StringPiece)
    (notHigh : isHighSurrogate unit = false) (notLow : isLowSurrogate unit = false) :
    decodePieces? (.code unit :: rest) = (decodePieces? rest).map (Char.ofNat unit :: ·) := by
  cases rest with
  | nil => simp [decodePieces?, notHigh, notLow]
  | cons next rest => cases next <;> simp [decodePieces?, notHigh, notLow]

/-- Only control characters are read as numbers, so no two of them make a surrogate pair. -/
theorem decodePieces?_pieceOf (text : List Char) :
    decodePieces? (text.map pieceOf) = some text := by
  induction text with
  | nil => rfl
  | cons c text ih =>
      by_cases control : c.toNat < 0x20 ∧ c ≠ '\x08' ∧ c ≠ '\x0c' ∧ c ≠ '\n' ∧ c ≠ '\r' ∧
          c ≠ '\t'
      · have notHigh : isHighSurrogate c.toNat = false := by
          simp only [isHighSurrogate, Bool.and_eq_false_imp, decide_eq_true_eq]
          omega
        have notLow : isLowSurrogate c.toNat = false := by
          simp only [isLowSurrogate, Bool.and_eq_false_imp, decide_eq_true_eq]
          omega
        rw [List.map_cons, pieceOf, if_pos control, decodePieces?_code _ notHigh notLow, ih]
        simp [Char.ofNat_toNat]
      · rw [List.map_cons, pieceOf, if_neg control, decodePieces?, ih]
        rfl

/-! ### Numbers -/

/-- Whether a character may go on with a number. -/
def continuesNumber (c : Char) : Bool := c.isDigit || c == '.' || c == 'e' || c == 'E'

/-- A part of a number: nothing, or a mark with digits behind it. -/
inductive IsFraction : List Char → Prop where
  | none : IsFraction []
  | digits {digits : List Char} :
      Digits.AreDigits digits → digits ≠ [] → IsFraction ('.' :: digits)

/-- An exponent: nothing, or a mark with a sign, if any, and digits behind it. -/
inductive IsExponent : List Char → Prop where
  | none : IsExponent []
  | digits {digits : List Char} :
      Digits.AreDigits digits → digits ≠ [] → IsExponent ('e' :: digits)
  | plus {digits : List Char} :
      Digits.AreDigits digits → digits ≠ [] → IsExponent ('e' :: '+' :: digits)
  | minus {digits : List Char} :
      Digits.AreDigits digits → digits ≠ [] → IsExponent ('e' :: '-' :: digits)

/-- The parts of a number as JSON spells it: a sign, digits without a needless zero in front, a
fraction and an exponent. -/
structure IsSpelling (sign whole fraction exponent : List Char) : Prop where
  sign : sign = [] ∨ sign = ['-']
  digits : Digits.AreDigits whole
  nonempty : whole ≠ []
  leading : whole.head? = some '0' → whole.length = 1
  fraction : IsFraction fraction
  exponent : IsExponent exponent

/-- Whether a text is a number. -/
def IsNumber (text : List Char) : Prop :=
  ∃ sign whole fraction exponent, IsSpelling sign whole fraction exponent ∧
    text = sign ++ (whole ++ (fraction ++ exponent))

/-- Whether a text is a number without a sign. -/
def IsUnsigned (text : List Char) : Prop :=
  ∃ whole fraction exponent, IsSpelling [] whole fraction exponent ∧
    text = whole ++ (fraction ++ exponent)

/-- Digits without a sign are a number. -/
theorem IsUnsigned.isNumber {text : List Char} (unsigned : IsUnsigned text) : IsNumber text := by
  obtain ⟨whole, fraction, exponent, spelled, rfl⟩ := unsigned
  exact ⟨[], whole, fraction, exponent, spelled, rfl⟩

/-- A sign may stand in front of a number without one. -/
theorem IsUnsigned.minus {text : List Char} (unsigned : IsUnsigned text) :
    IsNumber ('-' :: text) := by
  obtain ⟨whole, fraction, exponent, spelled, rfl⟩ := unsigned
  exact ⟨['-'], whole, fraction, exponent, { spelled with sign := .inr rfl }, rfl⟩

/-- Digits alone are a number if they have no needless zero in front. -/
theorem isUnsigned_ofNat (number : Nat) : IsUnsigned (Digits.ofNat number) :=
  ⟨Digits.ofNat number, [], [],
    { sign := .inl rfl
      digits := Digits.areDigits_ofNat number
      nonempty := Digits.ofNat_ne_nil number
      leading := Digits.length_of_leading_zero
      fraction := .none
      exponent := .none }, by simp⟩

/-- Digits are counted up to what stops them. -/
theorem digitRun_append {digits rest : List Char} (areDigits : Digits.AreDigits digits)
    (stops : StopsRun Char.isDigit rest) : digitRun (digits ++ rest) = digits.length := by
  rw [digitRun, takeWhile_run areDigits stops]

/-- What does not go on with a number stops its digits. -/
theorem digits_of_stops {rest : List Char} (stops : StopsRun continuesNumber rest) :
    StopsRun Char.isDigit rest := by
  cases rest with
  | nil => exact stopsRun_nil _
  | cons c rest =>
      have := stopsRun_cons.mp stops
      simp only [continuesNumber, Bool.or_eq_false_iff] at this
      exact stopsRun_cons.mpr this.1.1.1

/-- Digits are not empty when they are counted. -/
theorem digitRun_ne_zero {digits rest : List Char} (areDigits : Digits.AreDigits digits)
    (nonempty : digits ≠ []) (stops : StopsRun Char.isDigit rest) :
    digitRun (digits ++ rest) ≠ 0 := by
  rw [digitRun_append areDigits stops]
  exact fun zero => nonempty (List.eq_nil_of_length_eq_zero zero)

/-- An exponent is taken whole. -/
theorem exponentLength?_append {exponent rest : List Char} (isExponent : IsExponent exponent)
    (stops : StopsRun continuesNumber rest) :
    exponentLength? (exponent ++ rest) = some exponent.length := by
  cases isExponent with
  | none =>
      cases rest with
      | nil => rfl
      | cons c rest =>
          have other := stopsRun_cons.mp stops
          simp only [continuesNumber, Bool.or_eq_false_iff, beq_eq_false_iff_ne] at other
          simp [exponentLength?, other.1.2, other.2]
  | @digits digits areDigits nonempty =>
      have counted := digitRun_ne_zero areDigits nonempty (digits_of_stops stops)
      have run := digitRun_append areDigits (digits_of_stops stops)
      cases digits with
      | nil => exact absurd rfl nonempty
      | cons d others =>
          have isDigit := areDigits d (.head _)
          simp only [List.cons_append, exponentLength?, true_or, if_true]
          -- A digit is none of the signs that the exponent could start with.
          split
          next same => cases same; cases isDigit
          next same => cases same; cases isDigit
          next =>
            rw [← List.cons_append, if_neg counted, run]
            simp
  | plus areDigits nonempty | minus areDigits nonempty =>
      have counted := digitRun_ne_zero areDigits nonempty (digits_of_stops stops)
      have run := digitRun_append areDigits (digits_of_stops stops)
      simp only [List.cons_append, exponentLength?, true_or, if_true]
      rw [if_neg counted, run]
      simp

/-- A fraction is taken whole, and the exponent behind it stops it. -/
theorem fractionLength?_append {fraction rest : List Char} (isFraction : IsFraction fraction)
    (stops : StopsRun Char.isDigit rest) (notPoint : rest.head? ≠ some '.') :
    fractionLength? (fraction ++ rest) = some fraction.length := by
  cases isFraction with
  | none =>
      rw [List.nil_append, fractionLength?.eq_def]
      split
      next => exact absurd rfl notPoint
      next => rfl
  | digits areDigits nonempty =>
      have counted := digitRun_ne_zero areDigits nonempty stops
      have run := digitRun_append areDigits stops
      rw [List.cons_append, fractionLength?, if_neg counted, run]
      simp

/-- An exponent starts with its mark. -/
theorem IsExponent.stops {exponent rest : List Char} (isExponent : IsExponent exponent)
    (stops : StopsRun continuesNumber rest) :
    StopsRun Char.isDigit (exponent ++ rest) ∧ (exponent ++ rest).head? ≠ some '.' := by
  cases isExponent with
  | none =>
      refine ⟨digits_of_stops stops, ?_⟩
      cases rest with
      | nil => simp
      | cons c rest =>
          have other := stopsRun_cons.mp stops
          simp only [continuesNumber, Bool.or_eq_false_iff, beq_eq_false_iff_ne] at other
          simpa using other.1.1.2
  | digits | plus | minus => exact ⟨stopsRun_cons.mpr rfl, by simp⟩

/-- A fraction starts with its point. -/
theorem IsFraction.stops {fraction rest : List Char} (isFraction : IsFraction fraction)
    (stops : StopsRun Char.isDigit rest) : StopsRun Char.isDigit (fraction ++ rest) := by
  cases isFraction with
  | none => exact stops
  | digits => exact stopsRun_cons.mpr rfl

/-- The whole part of a number is taken whole. -/
theorem wholeLength?_append {sign whole fraction exponent rest : List Char}
    (spelled : IsSpelling sign whole fraction exponent) (stops : StopsRun Char.isDigit rest) :
    wholeLength? (whole ++ rest) = some whole.length := by
  have counted := digitRun_ne_zero spelled.digits spelled.nonempty stops
  have leading : ¬(1 < whole.length ∧ (whole ++ rest).head? = some '0') := by
    rintro ⟨long, zero⟩
    cases whole with
    | nil => simp at long
    | cons c others => exact absurd (spelled.leading zero) (by omega)
  rw [digitRun_append spelled.digits stops] at counted
  simp only [wholeLength?, digitRun_append spelled.digits stops, if_neg counted, if_neg leading]

/-- A number is taken whole when nothing behind it could continue it. -/
theorem numberLength?_append {sign whole fraction exponent rest : List Char}
    (spelled : IsSpelling sign whole fraction exponent) (stops : StopsRun continuesNumber rest) :
    numberLength? (sign ++ (whole ++ (fraction ++ (exponent ++ rest)))) =
      some (sign ++ (whole ++ (fraction ++ exponent))).length := by
  obtain ⟨exponentStops, notPoint⟩ := spelled.exponent.stops stops
  have wholeLength := wholeLength?_append spelled (spelled.fraction.stops exponentStops)
  have fractionLength := fractionLength?_append spelled.fraction exponentStops notPoint
  have exponentLength := exponentLength?_append spelled.exponent stops
  have signLength : (if (sign ++ (whole ++ (fraction ++ (exponent ++ rest)))).head? = some '-'
      then 1 else 0) = sign.length := by
    rcases spelled.sign with rfl | rfl
    · rw [if_neg]
      · rfl
      · cases whole with
        | nil => exact absurd rfl spelled.nonempty
        | cons c others =>
            intro isSign
            cases isSign
            exact absurd (spelled.digits '-' (.head _)) (by decide)
    · simp
  -- Each part is measured from where the one before it ends.
  have dropWhole : (sign ++ (whole ++ (fraction ++ (exponent ++ rest)))).drop
      (sign.length + whole.length) = fraction ++ (exponent ++ rest) := by
    rw [← List.append_assoc, ← List.length_append, List.drop_left]
  have dropFraction : (sign ++ (whole ++ (fraction ++ (exponent ++ rest)))).drop
      (sign.length + whole.length + fraction.length) = exponent ++ rest := by
    rw [← List.append_assoc, ← List.append_assoc, ← List.length_append, ← List.length_append,
      List.drop_left]
  simp only [numberLength?, signLength, List.drop_left, wholeLength, dropWhole, fractionLength,
    dropFraction, exponentLength, bind, Option.bind, pure, List.length_append]
  congr 1
  omega

end TextTemplate.Json
