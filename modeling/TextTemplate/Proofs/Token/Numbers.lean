import TextTemplate.Proofs.Numeric.Accepted
import TextTemplate.Proofs.Numeric.Exact
import TextTemplate.Proofs.Token.Spans

/-! # Numbers in a source

A number token is cut off a source as a numeral. Its spelling is put together anew on the way, with
a zero in front of a leading point and a small exponent mark, and is read as the number that the
numeral in the source stands for. -/

namespace TextTemplate

/-! ### Numerals put together anew -/

/-- An exponent with a small mark. -/
def Numeral.Exponent.small (exponent : Exponent) : Exponent :=
  { exponent with mark := 'e', isMark := rfl }

namespace Numeral

variable (n : Numeral)

/-- The numeral with a zero in front of a leading point, and with a small exponent mark. -/
def rebuilt : Numeral where
  sign := n.sign
  whole := if n.whole = [] then ['0'] else n.whole
  fraction := n.fraction
  exponent := n.exponent.map Exponent.small
  areDigits := by
    have areDigits := n.areDigits
    split
    next empty =>
      rw [empty, List.nil_append] at areDigits
      exact Digits.areDigits_append.mpr ⟨Digits.areDigits_replicate_zero 1, areDigits⟩
    next => exact areDigits
  nonempty := by
    split
    next => exact List.cons_ne_nil _ _
    next nonempty => simp [nonempty]

/-- The digits are those of the numeral, with a zero in front of a point that has none. -/
theorem digits_rebuilt :
    n.rebuilt.digits = if n.whole = [] then '0' :: n.digits else n.digits := by
  simp only [digits, rebuilt]
  split
  next empty => simp [empty]
  next => rfl

/-- The numeral that is put together anew is read as the same number. -/
theorem number?_rebuilt : n.rebuilt.number? = n.number? := by
  have exponent : n.rebuilt.exponentValue = n.exponentValue := by
    rw [exponentValue, exponentValue, rebuilt]
    cases n.exponent <;> rfl
  have scale : n.rebuilt.scale = n.scale := by
    rw [Numeral.scale, Numeral.scale, exponent]
    rfl
  have value : Digits.value n.rebuilt.digits = Digits.value n.digits := by
    rw [digits_rebuilt]
    split
    next => exact Decimal.value_zeros_append n.digits 1
    next => rfl
  have whole : n.rebuilt.isWhole = n.isWhole := by simp [isWhole, rebuilt]
  -- Digits are counted only where no point leads.
  have counted (isWhole : n.isWhole = true) : n.rebuilt.digits = n.digits := by
    have nonempty := n.nonempty
    simp only [Numeral.isWhole, Bool.and_eq_true, Option.isNone_iff_eq_none] at isWhole
    rw [isWhole.1, Option.getD_none, List.append_nil] at nonempty
    rw [digits_rebuilt, if_neg nonempty]
  have decimal : n.rebuilt.decimal = n.decimal := by
    rw [Numeral.decimal, Numeral.decimal, scale, value]
    rfl
  have sign : n.rebuilt.sign = n.sign := rfl
  rw [number?, number?, whole, scale, decimal, value, sign]
  split
  next isWhole => rw [counted isWhole]
  next => rfl

/-! ### The number that is spelled -/

/-- Whether a number has the value that a numeral spells, and the representation that its spelling
asks for: a decimal with a point or an exponent, and otherwise an integer or a double, depending on
how many digits there are. -/
structure Spells (number : Numeric) : Prop where
  value : number.value? = some n.decimal.value
  decimal : n.isWhole = false → ∃ d, number = .decimal d
  integer : n.isWhole = true → Numeric.maxDoubleDigits < n.digits.length → ∃ i, number = .integer i
  double : n.isWhole = true → n.digits.length ≤ Numeric.maxDoubleDigits → ∃ x, number = .double x

variable {n} {value : Numeric}

/-- Without a point and an exponent, the decimal of a numeral is the integer of its digits. -/
theorem decimal_of_isWhole (whole : n.isWhole = true) :
    n.decimal = .ofInt (Double.signed n.sign.isNegative (Digits.value n.digits)) := by
  rw [Numeral.decimal, scale_of_isWhole whole]
  rfl

/-- A short run of digits is a double of its value. -/
theorem spells_double (whole : n.isWhole = true)
    (short : n.digits.length ≤ Numeric.maxDoubleDigits) :
    n.Spells (.double (Double.ofDecimal n.sign.isNegative (Digits.value n.digits) 0)) where
  value := by
    have small : Digits.value n.digits < 10 ^ 15 :=
      lt_of_lt_of_le (Digits.value_lt n.areDigits) (Nat.pow_le_pow_right (by decide) short)
    obtain ⟨place, nearest, -, exact⟩ :=
      Decimal.exists_ofDouble n.sign.isNegative (lt_trans small (by decide))
    have scale : n.decimal.value = Double.signed n.sign.isNegative (Digits.value n.digits) := by
      rw [decimal_of_isWhole whole, Decimal.value_ofInt]
    rw [Numeric.ofDecimal_of_small _ small, nearest, scale, ← exact]
    rfl
  decimal part := absurd whole (by simp [part])
  integer _ long := absurd short (Nat.not_le.mpr long)
  double _ _ := ⟨_, rfl⟩

/-- What a numeral with a scale within bounds is read as is the number that it spells. -/
theorem spells_of_number? (number : n.number? = some value)
    (bounded : n.scale.natAbs ≤ Numeric.maxExactDigits) : n.Spells value := by
  rw [number?] at number
  split at number
  next whole =>
    split at number
    next long =>
      cases number
      refine ⟨?_, fun part => absurd whole (by simp [part]), fun _ _ => ⟨_, rfl⟩,
        fun _ short => absurd short (Nat.not_le.mpr long)⟩
      rw [decimal_of_isWhole whole]
      rfl
    next short =>
      cases number
      exact spells_double whole (Nat.not_lt.mp short)
  next part =>
    have withinBounds : Numeric.scaleWithinBounds n.decimal = true := decide_eq_true bounded
    rw [if_pos withinBounds, if_pos (Decimal.fitsWord_of_bounded bounded)] at number
    cases number
    exact ⟨rfl, fun _ => ⟨_, rfl⟩, fun whole => absurd whole part, fun whole => absurd whole part⟩

end Numeral

namespace Token

open Numeral (Sign Exponent)
open Numeric (signText)

/-! ### The parts of a number -/

/-- The digits that come first. -/
theorem exists_digits (text : List Char) :
    ∃ digits others : List Char, text = digits ++ others ∧ Digits.AreDigits digits ∧
      text.takeWhile Char.isDigit = digits ∧ (startsWithDigit text = true → digits ≠ []) := by
  obtain ⟨digits, others, rfl, areDigits, stops⟩ := exists_run Char.isDigit text
  refine ⟨digits, others, rfl, areDigits, takeWhile_run areDigits stops, ?_⟩
  rintro starts rfl
  cases others with
  | nil => cases starts
  | cons c rest =>
      have isDigit : c.isDigit = true := by simpa [startsWithDigit] using starts
      exact absurd (stopsRun_cons.mp stops) (by simp [isDigit])

/-- One sign is taken from a run of signs. -/
theorem exists_sign (text : List Char) :
    ∃ (sign : Sign) (others : List Char), text = sign.text ++ others ∧
      (text.takeWhile (fun c => c == '+' || c == '-')).take 1 = sign.text := by
  cases text with
  | nil => exact ⟨.none, [], rfl, rfl⟩
  | cons c others =>
      by_cases isPlus : c = '+'
      · subst isPlus
        exact ⟨.plus, others, rfl, by simp [Sign.text]⟩
      by_cases isMinus : c = '-'
      · subst isMinus
        exact ⟨.minus, others, rfl, by simp [Sign.text]⟩
      · exact ⟨.none, c :: others, rfl, by simp [isPlus, isMinus, Sign.text]⟩

/-- The exponent that comes first, which is kept but for its mark. -/
theorem exists_exponentPart (text : List Char) :
    ∃ (exponent : Option Exponent) (others : List Char),
      text = exponent.elim [] Exponent.text ++ others ∧
        exponentPart text = (exponent.map Exponent.small).elim [] Exponent.text := by
  rw [exponentPart]
  split
  next marked =>
    cases text with
    | nil => simp at marked
    | cons mark rest =>
        obtain ⟨sign, rest, rfl, taken⟩ := exists_sign rest
        have isMark : Decimal.isExponentMark mark = true := by
          simpa [Decimal.isExponentMark] using marked
        simp only [List.drop_succ_cons, List.drop_zero, taken, Nat.add_comm 1, List.drop_left]
        split
        next starts =>
          obtain ⟨digits, others, rfl, areDigits, run, nonempty⟩ := exists_digits rest
          rw [run]
          refine ⟨some ⟨mark, sign, digits, isMark, areDigits, nonempty starts⟩, others, ?_, rfl⟩
          simp [Exponent.text]
        next => exact ⟨none, _, rfl, rfl⟩
  next => exact ⟨none, text, rfl, rfl⟩

/-- The fraction that comes first, which has digits. -/
theorem exists_fractionPart (text : List Char) :
    ∃ (fraction : Option (List Char)) (others : List Char),
      text = fraction.elim [] ('.' :: ·) ++ others ∧
        fractionPart text = fraction.elim [] ('.' :: ·) ∧
        Digits.AreDigits (fraction.getD []) ∧
        (text.head? = some '.' → startsWithDigit (text.drop 1) = true → fraction.getD [] ≠ []) := by
  rw [fractionPart]
  split
  next both =>
    obtain ⟨rest, rfl⟩ := List.head?_eq_some_iff.mp both.1
    obtain ⟨digits, others, rfl, areDigits, run, nonempty⟩ := exists_digits rest
    refine ⟨some digits, others, rfl, ?_, areDigits, fun _ starts => nonempty starts⟩
    simp only [List.drop_succ_cons, List.drop_zero, run]
    rfl
  next other =>
    refine ⟨none, text, rfl, rfl, Digits.areDigits_nil, ?_⟩
    intro point starts
    exact absurd ⟨point, starts⟩ other

/-- What starts with a number starts with digits, or with a point in front of digits. -/
theorem of_startsWithNumber {text : List Char} (starts : startsWithNumber text = true) :
    startsWithDigit text = true ∨ text.head? = some '.' ∧ startsWithDigit (text.drop 1) = true := by
  simpa [startsWithNumber] using starts

/-- The sign in front of a number. -/
theorem takeWhile_sign (negative : Bool) {text : List Char}
    (starts : startsWithNumber text = true) :
    ((signText negative ++ text).takeWhile (· == '-')).take 1 = signText negative := by
  have stops : StopsRun (· == '-') text := by
    cases text with
    | nil => exact stopsRun_nil _
    | cons c rest =>
        refine stopsRun_cons.mpr (beq_eq_false_iff_ne.mpr ?_)
        rintro rfl
        cases starts
  have isRun : ∀ c ∈ signText negative, (c == '-') = true := by
    cases negative <;> simp [signText]
  rw [takeWhile_run isRun stops]
  cases negative <;> rfl

/-- The number that comes first is a numeral, which is put together anew. -/
theorem exists_numberPart (negative : Bool) {text : List Char}
    (starts : startsWithNumber text = true) :
    ∃ (n : Numeral) (others : List Char), signText negative ++ text = n.text ++ others ∧
      numberPart (signText negative ++ text) = (n.rebuilt.text, n.text.length) := by
  have sign := takeWhile_sign negative starts
  have starts := of_startsWithNumber starts
  obtain ⟨whole, rest, rfl, wholeDigits, wholeTaken, wholeNonempty⟩ := exists_digits text
  obtain ⟨fraction, rest, rfl, fractionTaken, fractionDigits, fractionNonempty⟩ :=
    exists_fractionPart rest
  obtain ⟨exponent, others, rfl, exponentTaken⟩ := exists_exponentPart rest
  -- Without digits in front of it, the point has some behind it.
  have leading (empty : whole = []) : fraction.getD [] ≠ [] := by
    subst empty
    rcases starts with isDigit | ⟨point, isDigit⟩
    · exact absurd rfl (wholeNonempty isDigit)
    · exact fractionNonempty point isDigit
  have nonempty : whole ++ fraction.getD [] ≠ [] := fun empty =>
    leading (List.append_eq_nil_iff.mp empty).1 (List.append_eq_nil_iff.mp empty).2
  let n : Numeral := ⟨if negative then .minus else .none, whole, fraction, exponent,
    Digits.areDigits_append.mpr ⟨wholeDigits, fractionDigits⟩, nonempty⟩
  have signed : n.sign.text = signText negative := by cases negative <;> rfl
  refine ⟨n, others, ?_, ?_⟩
  · simp [Numeral.text, Numeral.unsigned, Numeral.mantissa, Numeral.exponentText, signed, n]
  have zero : (if (whole ++ (fraction.elim [] ('.' :: ·) ++
      (exponent.elim [] Exponent.text ++ others))).head? = some '.' then ['0'] else []) ++ whole =
      if whole = [] then ['0'] else whole := by
    cases whole with
    | nil =>
        cases fraction with
        | none => exact absurd rfl (leading rfl)
        | some fraction => rfl
    | cons c whole =>
        have noPoint : c ≠ '.' := by
          rintro rfl
          exact absurd (wholeDigits '.' (.head _)) (by decide)
        simp [noPoint]
  have behind (fraction : List Char) (rest : List Char) :
      (whole ++ (fraction ++ rest)).drop (whole.length + fraction.length) = rest := by
    rw [← List.append_assoc, ← List.length_append, List.drop_left]
  have length : ((exponent.map Exponent.small).elim [] Exponent.text).length =
      (exponent.elim [] Exponent.text).length := by
    cases exponent <;> rfl
  simp only [numberPart, sign, List.drop_left, wholeTaken, fractionTaken, behind, exponentTaken,
    List.append_assoc, length]
  refine Prod.ext ?_ ?_
  · rw [← List.append_assoc _ whole, zero]
    simp [Numeral.text, Numeral.unsigned, Numeral.mantissa, Numeral.exponentText, Numeral.rebuilt,
      signed, n]
  · simp [Numeral.text, Numeral.unsigned, Numeral.mantissa, Numeral.exponentText, signed, n,
      Nat.add_assoc]

/-! ### Number tokens -/

variable {n : Numeral} {value : Numeric}

/-- A number at the start of a text is the number of a numeral there. -/
theorem exists_of_lexNumber (negative : Bool) {text : List Char} {offset count : Nat}
    {kind : TokenKind} (starts : startsWithNumber text = true)
    (lexed : lexNumber (signText negative ++ text) offset = .ok (kind, count)) :
    ∃ (n : Numeral) (others : List Char) (value : Numeric),
      signText negative ++ text = n.text ++ others ∧ n.text.length = count + 1 ∧
        kind = .number value ∧ n.number? = some value := by
  obtain ⟨n, others, same, part⟩ := exists_numberPart negative starts
  have positive : 0 < n.text.length := by
    obtain ⟨first, rest, unsigned, -⟩ := n.exists_start
    rw [Numeral.text, unsigned, List.length_append, List.length_cons]
    omega
  simp only [lexNumber, part, Numeral.parse?_text, Numeral.number?_rebuilt] at lexed
  split at lexed
  next => cases lexed
  next =>
    split at lexed
    next value number =>
      split at lexed
      next =>
        cases lexed
        exact ⟨n, others, value, same, by omega, rfl, number⟩
      next => cases lexed
    next => cases lexed

/-- Names are no numbers. -/
theorem nameToken_ne_number (name rest : List Char) (value : Numeric) :
    nameToken name rest ≠ .number value := by
  unfold nameToken
  split
  next => exact nofun
  next =>
    split
    next => exact nofun
    next => split <;> exact nofun

/-- A number token is cut off a text as a numeral. -/
theorem exists_of_lexToken {previous : Option TokenKind} {c : Char} {rest : List Char}
    {offset stop count : Nat}
    (lexed : lexToken previous c rest offset stop = .ok (.number value, count)) :
    ∃ (n : Numeral) (others : List Char), c :: rest = n.text ++ others ∧
      n.text.length = count + 1 ∧ n.number? = some value := by
  have ofSign (negative : Bool) {text : List Char} (same : c :: rest = signText negative ++ text)
      (starts : startsWithNumber text = true)
      (lexed : lexNumber (c :: rest) offset = .ok (.number value, count)) :
      ∃ (n : Numeral) (others : List Char), c :: rest = n.text ++ others ∧
        n.text.length = count + 1 ∧ n.number? = some value := by
    rw [same] at lexed ⊢
    obtain ⟨n, others, value, text, length, kind, number⟩ :=
      exists_of_lexNumber negative starts lexed
    cases kind
    exact ⟨n, others, text, length, number⟩
  -- The cases are those of `lexToken`, in its order; only the first two give numbers.
  obtain ⟨starts, lexed⟩ | ⟨-, lexed⟩ := ite_eq_iff.mp lexed
  · exact ofSign false rfl starts lexed
  obtain ⟨⟨rfl, -⟩, lexed⟩ | ⟨-, lexed⟩ := ite_eq_iff.mp lexed
  · obtain ⟨starts, lexed⟩ | ⟨-, lexed⟩ := ite_eq_iff.mp lexed
    · exact ofSign true rfl starts lexed
    · cases lexed
  obtain ⟨-, lexed⟩ | ⟨-, lexed⟩ := ite_eq_iff.mp lexed
  · unfold lexString at lexed
    split at lexed <;> cases lexed
  obtain ⟨-, lexed⟩ | ⟨-, lexed⟩ := ite_eq_iff.mp lexed
  · exact absurd (Prod.mk.inj (Except.ok.inj lexed)).1 (nameToken_ne_number _ _ _)
  iterate 6
    obtain ⟨-, lexed⟩ | ⟨-, lexed⟩ := ite_eq_iff.mp lexed
    · cases lexed
  unfold lexOperator at lexed
  split at lexed
  next => cases lexed
  repeat
    split at lexed
    next => cases lexed
  cases lexed

/-- The number tokens of a part of a source stand there as numerals. -/
theorem CutFrom.exists_numeral {source : Source} {text : List Char} {start stop : Nat}
    {previous : Option TokenKind} {found : List (Located TokenKind)}
    (cut : CutFrom stop previous start text found)
    (here : cut? source.text start stop = some text) :
    ∀ token ∈ found, ∀ value, token.item = .number value →
      ∃ n : Numeral, cut? source.text token.start token.stop = some n.text ∧
        n.number? = some value := by
  induction cut with
  | nil => exact nofun
  | separator _ _ ih => exact ih (cut?_next here)
  | @token _ start c taken rest kind _ _ _ first _ ih =>
      refine List.forall_mem_cons.mpr ⟨?_, ih (cut?_right (c :: taken) here)⟩
      rintro value rfl
      obtain ⟨n, others, same, length, number⟩ := exists_of_lexToken first
      have isText : c :: taken = n.text := by
        rw [← List.cons_append] at same
        exact (List.append_inj same (by rw [List.length_cons, length])).1
      exact ⟨n, isText ▸ cut?_left (c :: taken) here, number⟩

/-- A number token of a part of a source has exactly the value that its text spells. -/
theorem spells_of_lex {source : Source} {text : List Char} {start stop : Nat} {tokens : List Token}
    (here : cut? source.text start stop = some text)
    (lexed : lex source text start stop = .ok tokens) :
    ∀ token ∈ tokens, ∀ number, token.kind = .number number →
      ∃ (start stop : Nat) (n : Numeral), token.span = source.span start stop ∧
        cut? source.text start stop = some n.text ∧
        (n.scale.natAbs ≤ Numeric.maxExactDigits → n.Spells number) := by
  unfold lex at lexed
  split at lexed
  next found cut =>
    cases lexed
    intro token isMember number isNumber
    obtain ⟨token, isFound, rfl⟩ := List.mem_map.mp isMember
    obtain ⟨n, text, read⟩ :=
      (cutFrom_of_lexFrom cut).exists_numeral here token isFound number isNumber
    exact ⟨token.start, token.stop, n, rfl, text, Numeral.spells_of_number? read⟩
  next => cases lexed

end Token

/-- A number token has exactly the value that its text in the source spells, in the representation
that the spelling asks for, if the scale is within the bound for exact numbers. -/
theorem Source.spells_of_tokens {source : Source} {tokens : List Token}
    (lexed : source.tokens = .ok tokens) :
    ∀ token ∈ tokens, ∀ number, token.kind = .number number →
      ∃ (start stop : Nat) (n : Numeral), token.span = source.span start stop ∧
        cut? source.text start stop = some n.text ∧
        (n.scale.natAbs ≤ Numeric.maxExactDigits → n.Spells number) := by
  have whole : cut? source.text 0 source.size = some source.text :=
    cut?_eq_some_iff.mpr ⟨[], [], by simp, rfl, by simp [Source.size]⟩
  exact Token.spells_of_lex whole lexed

/-- A sign belongs to the number where an operand is expected, and a leading point has a zero in
front of it. -/
theorem Source.spells_of_tokens_of_negative :
    let source : Source := .ofString "page" "-1.50E2 * .5"
    ∃ tokens, source.tokens = .ok tokens ∧
      tokens.map Token.kind = [.number (.decimal ⟨-150, 0⟩), .operator .multiply,
        .number (.decimal ⟨5, 1⟩)] ∧
      ∀ token ∈ tokens, ∀ number, token.kind = .number number →
        ∃ (start stop : Nat) (n : Numeral), token.span = source.span start stop ∧
          cut? source.text start stop = some n.text ∧
          (n.scale.natAbs ≤ Numeric.maxExactDigits → n.Spells number) := by
  intro source
  have lexed : source.tokens = .ok [
      ⟨.number (.decimal ⟨-150, 0⟩), ⟨⟨1, 1⟩, ⟨1, 8⟩⟩⟩,
      ⟨.operator .multiply, ⟨⟨1, 9⟩, ⟨1, 10⟩⟩⟩,
      ⟨.number (.decimal ⟨5, 1⟩), ⟨⟨1, 11⟩, ⟨1, 13⟩⟩⟩] := rfl
  exact ⟨_, lexed, rfl, Source.spells_of_tokens lexed⟩

end TextTemplate
