import TextTemplate.Proofs.Numeric.Grouped

/-! # Texts that are numbers

A numeral is read as the number that its spelling and its scale ask for. Other texts are read as
numbers as well, because a plus sign is passed over in front of any number, and because the reader
of decimals is content with underscores among the digits and with a sign behind a leading point. -/

namespace TextTemplate.Numeral

/-! ### Numbers -/

variable (n : Numeral)

/-- One plus sign in front of a text is passed over. -/
theorem parse?_plus {text : List Char} (single : text.head? ≠ some '+') :
    Numeric.parse? ('+' :: text) = Numeric.parse? text := by
  cases text with
  | nil => rfl
  | cons first rest =>
      have noPlus : first ≠ '+' := by simpa using single
      have other (rest' : List Char) (same : first :: rest = '+' :: rest') : False :=
        noPlus (List.cons.inj same).1
      by_cases negative : first = '-'
      · subst negative
        rfl
      · have positive (rest' : List Char) (same : first :: rest = '-' :: rest') : False :=
          negative (List.cons.inj same).1
        rw [Numeric.parse?, Numeric.parse?]
        all_goals assumption

/-- A point or an exponent shows in the spelling. -/
theorem any_unsigned :
    n.unsigned.any (fun c => c == '.' || Decimal.isExponentMark c) = !n.isWhole := by
  have areDigits := n.areDigits
  rw [unsigned, mantissa, exponentText, isWhole]
  generalize n.fraction = point at *
  cases point with
  | some fraction => simp
  | none =>
      rw [Option.getD_none, List.append_nil] at areDigits
      cases n.exponent with
      | some exponent => simp [Exponent.text, exponent.isMark]
      | none =>
          have noMark : ∀ c ∈ n.whole, (c == '.' || Decimal.isExponentMark c) = false := by
            intro c isMember
            simp [of_isDigit (areDigits c isMember)]
          simpa using noMark

/-- Underscores are neither points nor exponents. -/
theorem any_spaced {n : Numeral} {spaced : List Char} (isSpaced : IsSpaced n.mantissa spaced) :
    (spaced ++ n.exponentText).any (fun c => c == '.' || Decimal.isExponentMark c) =
      !n.isWhole := by
  have noUnderscore (c : Char) : (decide (c ≠ '_') && (c == '.' || Decimal.isExponentMark c)) =
      (c == '.' || Decimal.isExponentMark c) := by
    by_cases underscore : c = '_'
    · subst underscore
      rfl
    · simp [underscore]
  rw [← n.any_unsigned, unsigned, List.any_append, List.any_append, ← isSpaced.kept, ungrouped,
    List.any_filter]
  simp only [noUnderscore]

/-- A numeral without a point and an exponent is its digits. -/
theorem unsigned_of_isWhole (whole : n.isWhole = true) : n.unsigned = n.digits := by
  simp only [isWhole, Bool.and_eq_true, Option.isNone_iff_eq_none] at whole
  simp [unsigned, mantissa, exponentText, digits, whole.1, whole.2]

/-- What a numeral without a plus sign is read as. -/
theorem parse?_of_noPlus (noPlus : n.sign ≠ .plus) : Numeric.parse? n.text = n.number? := by
  obtain ⟨first, rest, same, starts⟩ := n.exists_start
  have double := n.read?_double
  have decimal := n.read?_decimal
  rw [text, Sign.text_eq noPlus] at double decimal ⊢
  have marked := n.any_unsigned
  rw [same] at double decimal marked ⊢
  rw [Numeric.parse?_of_start _ starts, marked, number?]
  -- A point or an exponent makes the numeral a decimal; else it is an integer, which is short
  -- enough for a double or not.
  cases whole : n.isWhole with
  | true =>
      have digits : first :: rest = n.digits := same ▸ n.unsigned_of_isWhole whole
      have all : (first :: rest).all Char.isDigit = true := by
        rw [digits]
        exact List.all_eq_true.mpr n.areDigits
      have integer := Numeric.readInt?_signed n.sign.isNegative n.areDigits n.nonempty
      rw [scale_of_isWhole whole, Int.neg_zero] at double
      rw [if_neg (by simp), if_pos all, double, digits, if_pos rfl]
      split
      · exact congrArg _ integer
      · rfl
  | false =>
      rw [Bool.not_false, if_pos rfl, decimal, if_neg Bool.false_ne_true, double]
      split
      · rfl
      · rfl

/-- A numeral is read as the number that its spelling and its scale ask for. -/
theorem parse?_text : Numeric.parse? n.text = n.number? := by
  by_cases isPlus : n.sign = .plus
  · obtain ⟨first, rest, same, starts⟩ := n.exists_start
    have single : n.unsigned.head? ≠ some '+' := by
      rw [same]
      rintro ⟨⟩
      exact absurd starts (by decide)
    have number : Numeral.number? { n with sign := .none } = n.number? := by
      obtain ⟨sign, whole, fraction, exponent, areDigits, nonempty⟩ := n
      cases isPlus
      rfl
    have unsigned := parse?_of_noPlus { n with sign := .none } (by simp)
    rw [text, isPlus, Sign.text, List.singleton_append, parse?_plus single, ← number, ← unsigned]
    rfl
  · exact n.parse?_of_noPlus isPlus

/-! ### From texts to numerals -/

/-- An integer is digits after an optional sign. -/
theorem exists_of_readInt? {text : List Char} {value : Int}
    (read : Digits.readInt? text = some value) :
    ∃ (sign : Sign) (digits : List Char),
      text = sign.text ++ digits ∧ Digits.AreDigits digits ∧ digits ≠ [] := by
  have inspect {digits : List Char} {magnitude : Nat}
      (found : (if digits ≠ [] ∧ digits.all Char.isDigit then some (Digits.value digits)
        else none) = some magnitude) : Digits.AreDigits digits ∧ digits ≠ [] := by
    split at found
    next isRun => exact ⟨List.all_eq_true.mp isRun.2, isRun.1⟩
    next => cases found
  unfold Digits.readInt? at read
  split at read
  next digits =>
    obtain ⟨magnitude, found, -⟩ := Option.map_eq_some_iff.mp read
    obtain ⟨magnitude, found, -⟩ := Option.bind_eq_some_iff.mp found
    exact ⟨.minus, digits, rfl, inspect found⟩
  next digits =>
    obtain ⟨magnitude, found, -⟩ := Option.map_eq_some_iff.mp read
    exact ⟨.plus, digits, rfl, inspect found⟩
  next =>
    obtain ⟨magnitude, found, -⟩ := Option.map_eq_some_iff.mp read
    exact ⟨.none, _, rfl, inspect found⟩

/-- A mark and an integer are an exponent. -/
theorem exists_exponent {mark : Char} {rest : List Char} {value : Int}
    (isMark : Decimal.isExponentMark mark = true) (read : Digits.readInt? rest = some value) :
    ∃ exponent : Exponent, mark :: rest = exponent.text := by
  obtain ⟨sign, digits, rfl, areDigits, nonempty⟩ := exists_of_readInt? read
  exact ⟨⟨mark, sign, digits, isMark, areDigits, nonempty⟩, rfl⟩

/-- What is read as the exponent of a double is nothing, or a mark and an integer. -/
theorem exists_of_readExponent?_double {rest : List Char} {value : Int}
    (read : Double.readExponent? rest = some value) :
    ∃ exponent : Option Exponent, rest = exponent.elim [] Exponent.text := by
  cases rest with
  | nil => exact ⟨none, rfl⟩
  | cons mark rest =>
      rw [Double.readExponent?] at read
      split at read
      next isMark =>
        obtain ⟨exponent, text⟩ :=
          exists_exponent (by simpa [Decimal.isExponentMark] using isMark) read
        exact ⟨some exponent, text⟩
      next => cases read

/-- What is read as the exponent of a decimal is nothing, or a mark and an integer. -/
theorem exists_of_readExponent?_decimal {rest : List Char} {value : Int}
    (stops : StopsRun (fun c => !Decimal.isExponentMark c) rest)
    (read : Decimal.readExponent? rest = some value) :
    ∃ exponent : Option Exponent, rest = exponent.elim [] Exponent.text := by
  cases rest with
  | nil => exact ⟨none, rfl⟩
  | cons mark rest =>
      obtain ⟨exponent, text⟩ := exists_exponent (by simpa using stopsRun_cons.mp stops) read
      exact ⟨some exponent, text⟩

/-- Digits are a numeral in front of an exponent, with or without a point. -/
theorem exists_of_mantissa (sign : Sign) {whole rest : List Char} {fraction : Option (List Char)}
    {value : Int} (areDigits : Digits.AreDigits (whole ++ fraction.getD []))
    (nonempty : whole ++ fraction.getD [] ≠ []) (read : Double.readExponent? rest = some value) :
    ∃ n : Numeral, n.sign = sign ∧
      n.unsigned = whole ++ (fraction.elim [] ('.' :: ·) ++ rest) := by
  obtain ⟨exponent, rfl⟩ := exists_of_readExponent?_double read
  exact ⟨⟨sign, whole, fraction, exponent, areDigits, nonempty⟩, rfl, List.append_assoc ..⟩

/-- Without their signs, the decimal numbers that are read as doubles are numerals. -/
theorem exists_of_readUnsigned? {negative : Bool} {text : List Char} {x : Double} (sign : Sign)
    (read : Double.readUnsigned? negative text = some x) :
    ∃ n : Numeral, n.sign = sign ∧ n.unsigned = text := by
  -- The text is taken apart as the reading does it: digits, a point with more of them, and the
  -- exponent.
  obtain ⟨whole, behind, rfl, areDigits, stops⟩ := exists_run Char.isDigit text
  simp only [Double.readUnsigned?, takeWhile_run areDigits stops,
    dropWhile_run areDigits stops] at read
  split at read
  next tail =>
    obtain ⟨fraction, rest, rfl, fractionDigits, stops⟩ := exists_run Char.isDigit tail
    simp only [takeWhile_run fractionDigits stops, dropWhile_run fractionDigits stops] at read
    split at read
    next => cases read
    next nonempty =>
      obtain ⟨value, found, -⟩ := Option.bind_eq_some_iff.mp read
      have allDigits : Digits.AreDigits (whole ++ (some fraction).getD []) :=
        Digits.areDigits_append.mpr ⟨areDigits, fractionDigits⟩
      exact exists_of_mantissa sign allDigits (by simpa using nonempty) found
  next rest _ =>
    split at read
    next => cases read
    next nonempty =>
      obtain ⟨value, found, -⟩ := Option.bind_eq_some_iff.mp read
      have allDigits : Digits.AreDigits (whole ++ none.getD []) :=
        Digits.areDigits_append.mpr ⟨areDigits, Digits.areDigits_nil⟩
      exact exists_of_mantissa sign allDigits (by simpa using nonempty) found

/-- What is read as an integer is grouped digits after its sign. -/
theorem isGrouped_of_readGroupedInt? {sign : Sign} {text : List Char} {value : Int}
    (read : Digits.readGroupedInt? (sign.text ++ text) = some value)
    (unsigned : sign = .none → ∀ c ∈ text.head?, c ≠ '+' ∧ c ≠ '-') : IsGrouped text := by
  cases sign with
  | none =>
      obtain ⟨sign, digits, same, grouped⟩ := exists_of_readGroupedInt? read
      rw [Sign.text, List.nil_append] at same
      subst same
      cases sign with
      | none => exact grouped
      | plus => exact absurd rfl (unsigned rfl '+' rfl).1
      | minus => exact absurd rfl (unsigned rfl '-' rfl).2
  | plus =>
      obtain ⟨magnitude, found, -⟩ := Option.map_eq_some_iff.mp read
      exact isGrouped_of_readGrouped? found
  | minus =>
      obtain ⟨magnitude, found, -⟩ := Option.map_eq_some_iff.mp read
      obtain ⟨magnitude, found, -⟩ := Option.bind_eq_some_iff.mp found
      exact isGrouped_of_readGrouped? found

/-- Grouped digits are not underscores only. -/
theorem IsGrouped.ungrouped_ne_nil {text : List Char} (grouped : IsGrouped text) :
    ungrouped text ≠ [] := by
  obtain ⟨first, rest, rfl⟩ := List.exists_cons_of_ne_nil grouped.nonempty
  have noUnderscore : first ≠ '_' := by simpa using grouped.starts
  simp [ungrouped, noUnderscore]

section Spaced

variable {text whole fraction : List Char} (sign : Sign) (exponent : Option Exponent)

/-- Grouped digits are spelled like a numeral without a point. -/
theorem exists_of_isGrouped (grouped : IsGrouped text) :
    ∃ n : Numeral, n.sign = sign ∧ n.exponent = exponent ∧ IsSpaced n.mantissa text := by
  refine ⟨⟨sign, ungrouped text, none, exponent, by simpa using grouped.areDigits,
    by simpa using grouped.ungrouped_ne_nil⟩, rfl, rfl, (List.append_nil _).symm, ?_⟩
  rw [filter_point grouped.areDigits]
  exact grouped.starts

/-- Grouped digits with a point among them are spelled like a numeral with a point. -/
theorem exists_of_isGrouped_pointed (grouped : IsGrouped (whole ++ fraction)) :
    ∃ n : Numeral, n.sign = sign ∧ n.exponent = exponent ∧
      IsSpaced n.mantissa (whole ++ '.' :: fraction) := by
  refine ⟨⟨sign, ungrouped whole, some (ungrouped fraction), exponent,
    by simpa using grouped.areDigits, by simpa using grouped.ungrouped_ne_nil⟩, rfl, rfl, ?_, ?_⟩
  · simp [mantissa, ungrouped]
  · have withoutPoint : (whole ++ '.' :: fraction).filter (· ≠ '.') =
        (whole ++ fraction).filter (· ≠ '.') := by simp
    rw [withoutPoint, filter_point grouped.areDigits]
    exact grouped.starts

/-- Grouped digits behind a point are the digits of a numeral that starts with a point. -/
theorem exists_of_isGrouped_fraction (grouped : IsGrouped text) :
    ∃ n : Numeral, n.sign = sign ∧ n.exponent = exponent ∧ n.whole = [] ∧
      IsSpaced n.digits text := by
  refine ⟨⟨sign, [], some (ungrouped text), exponent, by simpa using grouped.areDigits,
    by simpa using grouped.ungrouped_ne_nil⟩, rfl, rfl, rfl, rfl, ?_⟩
  rw [filter_point grouped.areDigits]
  exact grouped.starts

end Spaced

/-- A sign has no point. -/
theorem Sign.point_notMem (sign : Sign) : '.' ∉ sign.text := by
  cases sign <;> decide

/-- What is read as a decimal is an integer without its point, in front of an exponent. -/
theorem exists_of_readDecimal {sign : Sign} {text : List Char} {d : Decimal}
    (read : Decimal.read? (sign.text ++ text) = some d) :
    ∃ (body : List Char) (exponent : Option Exponent) (unscaled : Int),
      text = body ++ exponent.elim [] Exponent.text ∧
      Digits.readGroupedInt? (Decimal.splitPoint (sign.text ++ body)).1 = some unscaled := by
  obtain ⟨body, behind, rfl, isRun, stops⟩ :=
    exists_run (fun c => !Decimal.isExponentMark c) text
  have plain : ∀ c ∈ sign.text ++ body, Decimal.isExponentMark c = false := by
    intro c isMember
    rcases List.mem_append.mp isMember with isSign | isBody
    · rcases Sign.of_mem isSign with rfl | rfl <;> rfl
    · simpa using isRun c isBody
  obtain ⟨taken, dropped⟩ := Decimal.cut_exponent (sign.text ++ body) plain stops
  rw [← List.append_assoc, Decimal.read?, taken, dropped] at read
  obtain ⟨value, found, read⟩ := Option.bind_eq_some_iff.mp read
  obtain ⟨exponent, text⟩ := exists_of_readExponent?_decimal stops found
  obtain ⟨unscaled, found, -⟩ := Option.bind_eq_some_iff.mp read
  exact ⟨body, exponent, unscaled, congrArg (body ++ ·) text, found⟩

/-- What is read as a decimal is a numeral, with or without underscores among its digits, but that
the sign may stand behind a point at the start. -/
theorem exists_numeral_of_readDecimal {sign : Sign} {first : Char} {rest : List Char} {d : Decimal}
    (starts : first.isDigit = true ∨ first = '.')
    (read : Decimal.read? (sign.text ++ first :: rest) = some d) :
    ∃ (n : Numeral) (spaced : List Char),
      n.sign = sign ∧ IsSpaced n.mantissa spaced ∧ first :: rest = spaced ++ n.exponentText ∨
      sign = .none ∧ n.sign ≠ .none ∧ n.whole = [] ∧ IsSpaced n.digits spaced ∧
        first :: rest = '.' :: (n.sign.text ++ (spaced ++ n.exponentText)) := by
  obtain ⟨body, exponent, unscaled, text, integer⟩ := exists_of_readDecimal read
  have ofHead : ∀ c ∈ body.head?, c = first := by
    intro c isFirst
    obtain ⟨others, rfl⟩ := List.head?_eq_some_iff.mp isFirst
    exact (List.cons.inj text).1.symm
  have noSign : ∀ c ∈ body.head?, c ≠ '+' ∧ c ≠ '-' := by
    intro c isFirst
    rw [ofHead c isFirst]
    constructor <;> rintro rfl <;> exact absurd starts (by decide)
  rw [text]
  by_cases pointed : '.' ∈ body
  · obtain ⟨whole, fraction, rfl, noPoint⟩ := List.eq_append_cons_of_mem pointed
    rw [← List.append_assoc, splitPoint_pointed (by simp [noPoint, sign.point_notMem]),
      List.append_assoc] at integer
    have inPlace (grouped : IsGrouped (whole ++ fraction)) : ∃ n : Numeral, n.sign = sign ∧
        n.exponent = exponent ∧ IsSpaced n.mantissa (whole ++ '.' :: fraction) :=
      exists_of_isGrouped_pointed sign exponent grouped
    by_cases bare : sign = .none ∧ whole = []
    · obtain ⟨rfl, rfl⟩ := bare
      obtain ⟨behind, digits, rfl, grouped⟩ := exists_of_readGroupedInt? integer
      -- With the point taken out, a sign behind it is in front of the digits.
      by_cases signed : behind = .none
      · subst signed
        obtain ⟨n, same, rfl, isSpaced⟩ := inPlace grouped
        exact ⟨n, _, .inl ⟨same, isSpaced, rfl⟩⟩
      · obtain ⟨n, rfl, rfl, empty, isSpaced⟩ := exists_of_isGrouped_fraction behind exponent grouped
        exact ⟨n, digits, .inr ⟨rfl, signed, empty, isSpaced, by simp [exponentText]⟩⟩
    · have grouped : IsGrouped (whole ++ fraction) := by
        refine isGrouped_of_readGroupedInt? integer fun unsigned => ?_
        have nonempty : whole ≠ [] := fun empty => bare ⟨unsigned, empty⟩
        obtain ⟨c, others, rfl⟩ := List.exists_cons_of_ne_nil nonempty
        exact noSign
      obtain ⟨n, same, rfl, isSpaced⟩ := inPlace grouped
      exact ⟨n, _, .inl ⟨same, isSpaced, rfl⟩⟩
  · rw [splitPoint_of_notMem (by simp [pointed, sign.point_notMem])] at integer
    have grouped := isGrouped_of_readGroupedInt? integer fun _ => noSign
    obtain ⟨n, same, rfl, isSpaced⟩ := exists_of_isGrouped sign exponent grouped
    exact ⟨n, body, .inl ⟨same, isSpaced, rfl⟩⟩

end TextTemplate.Numeral

/-! ### The texts that are numbers -/

namespace TextTemplate.Numeric

open Numeral (IsSpaced Sign)

/-- The texts that are read as numbers. -/
inductive IsReadable : List Char → Prop where
  /-- A numeral, if its scale is a word. -/
  | numeral (n : Numeral) (fits : Digits.fitsWord n.scale = true) : IsReadable n.text
  /-- A numeral with a point or an exponent and with underscores among its digits, if its scale is
  within the bound for reading. -/
  | spaced (n : Numeral) (spaced : List Char) (isSpaced : IsSpaced n.mantissa spaced)
      (noPlus : n.sign ≠ .plus) (pointed : n.isWhole = false)
      (bounded : n.scale.natAbs ≤ maxExactDigits) :
      IsReadable (n.sign.text ++ (spaced ++ n.exponentText))
  /-- A numeral that starts with a point, its sign behind the point, which adds to its scale. -/
  | displaced (n : Numeral) (spaced : List Char) (isSpaced : IsSpaced n.digits spaced)
      (signed : n.sign ≠ .none) (empty : n.whole = [])
      (bounded : (n.scale + 1).natAbs ≤ maxExactDigits) :
      IsReadable ('.' :: (n.sign.text ++ (spaced ++ n.exponentText)))
  /-- Any of these behind a plus sign, if there is none in it already. -/
  | plus (text : List Char) (readable : IsReadable text) (single : text.head? ≠ some '+') :
      IsReadable ('+' :: text)

/-- A numeral is a number exactly if its scale is a word. -/
theorem isSome_number?_iff (n : Numeral) :
    n.number?.isSome = true ↔ Digits.fitsWord n.scale = true := by
  rw [Numeral.number?]
  cases whole : n.isWhole with
  | true =>
      rw [Numeral.scale_of_isWhole whole, if_pos rfl]
      split <;> simp [Digits.fitsWord]
  | false =>
      rw [if_neg Bool.false_ne_true]
      split
      next fits => split <;> simp [fits]
      next large => simp [large]

/-- What is read as a decimal with a scale within bounds stays a decimal. -/
theorem parse?_of_decimal {negative : Bool} {first : Char} {rest : List Char} {d : Decimal}
    (starts : first.isDigit = true ∨ first = '.')
    (marked : (first :: rest).any (fun c => c == '.' || Decimal.isExponentMark c) = true)
    (read : Decimal.read? (signText negative ++ first :: rest) = some d)
    (bounded : d.scale.natAbs ≤ maxExactDigits) :
    parse? (signText negative ++ first :: rest) = some (.decimal d) := by
  have withinBounds : scaleWithinBounds d = true := decide_eq_true bounded
  rw [parse?_of_start negative starts, if_pos marked, read]
  simp [withinBounds]

/-- A numeral with underscores starts as one without. -/
theorem exists_start_of_isSpaced {n : Numeral} {spaced : List Char}
    (isSpaced : IsSpaced n.mantissa spaced) :
    ∃ first rest, spaced = first :: rest ∧ (first.isDigit = true ∨ first = '.') := by
  obtain ⟨kept, starts⟩ := isSpaced
  cases spaced with
  | nil =>
      obtain ⟨first, rest, same, -⟩ := n.exists_mantissa_start
      exact absurd (kept.trans same) (List.cons_ne_nil first rest).symm
  | cons first rest =>
      refine ⟨first, rest, rfl, ?_⟩
      by_cases isPoint : first = '.'
      · exact .inr isPoint
      · have noUnderscore : first ≠ '_' := by simpa [isPoint] using starts
        refine Numeral.of_mem_mantissa (n := n) ?_
        simp [← kept, Numeral.ungrouped, noUnderscore]

/-- Every readable text is read as a number. -/
theorem isSome_of_isReadable {text : List Char} (readable : IsReadable text) :
    (parse? text).isSome = true := by
  induction readable with
  | numeral n fits => rwa [Numeral.parse?_text, isSome_number?_iff]
  | spaced n spaced isSpaced noPlus pointed bounded =>
      have read := Numeral.read?_spaced isSpaced
      rw [Sign.text_eq noPlus, if_pos (Decimal.fitsWord_of_bounded bounded)] at read
      have marked := Numeral.any_spaced isSpaced
      rw [pointed, Bool.not_false] at marked
      obtain ⟨first, rest, rfl, starts⟩ := exists_start_of_isSpaced isSpaced
      rw [Sign.text_eq noPlus]
      exact Option.isSome_of_eq_some (parse?_of_decimal starts marked read bounded)
  | displaced n spaced isSpaced signed empty bounded =>
      have read := Numeral.read?_displaced isSpaced signed empty
      rw [if_pos (Decimal.fitsWord_of_bounded bounded)] at read
      have known : parse? (signText false ++ '.' :: _) = some (.decimal _) :=
        parse?_of_decimal (.inr rfl) (by simp) read bounded
      exact Option.isSome_of_eq_some known
  | plus text readable single ih => rwa [Numeral.parse?_plus single]

/-- A text that is read as a number starts with a digit or a point, after a sign. -/
theorem exists_start_of_isSome {text : List Char} (single : text.head? ≠ some '+')
    (isSome : (parse? text).isSome = true) :
    ∃ (sign : Sign) (first : Char) (rest : List Char), sign ≠ .plus ∧
      text = sign.text ++ first :: rest ∧ (first.isDigit = true ∨ first = '.') := by
  -- Reading looks at the first character behind the sign before anything else.
  have start {unsigned : List Char}
      (starts : unsigned.head?.any (fun c => c.isDigit || c == '.') = true) :
      ∃ first rest, unsigned = first :: rest ∧ (first.isDigit = true ∨ first = '.') := by
    cases unsigned with
    | nil => cases starts
    | cons first rest => exact ⟨first, rest, rfl, by simpa using starts⟩
  by_cases negative : text.head? = some '-'
  · obtain ⟨unsigned, rfl⟩ := List.head?_eq_some_iff.mp negative
    have starts : unsigned.head?.any (fun c => c.isDigit || c == '.') = true := by
      by_contra other
      rw [parse?, if_pos (by simpa using other)] at isSome
      cases isSome
    obtain ⟨first, rest, rfl, isStart⟩ := start starts
    exact ⟨.minus, first, rest, by decide, rfl, isStart⟩
  · have starts : text.head?.any (fun c => c.isDigit || c == '.') = true := by
      by_contra other
      rw [parse?, if_pos (by simpa using other)] at isSome
      · cases isSome
      · rintro rest rfl
        exact single rfl
      · rintro rest rfl
        exact negative rfl
    obtain ⟨first, rest, rfl, isStart⟩ := start starts
    exact ⟨.none, first, rest, by decide, rfl, isStart⟩

/-- The scale of a numeral that is read as a decimal is a word. -/
theorem fitsWord_of_read? {n : Numeral} {d : Decimal} (read : Decimal.read? n.text = some d) :
    Digits.fitsWord n.scale = true := by
  by_contra large
  rw [Numeral.read?_decimal, if_neg large] at read
  cases read

/-- What is read as a decimal with a scale within bounds is readable. -/
theorem isReadable_of_readDecimal {sign : Sign} {first : Char} {rest : List Char} {d : Decimal}
    (noPlus : sign ≠ .plus) (starts : first.isDigit = true ∨ first = '.')
    (marked : (first :: rest).any (fun c => c == '.' || Decimal.isExponentMark c) = true)
    (read : Decimal.read? (sign.text ++ first :: rest) = some d)
    (bounded : d.scale.natAbs ≤ maxExactDigits) : IsReadable (sign.text ++ first :: rest) := by
  obtain ⟨n, spaced, ⟨rfl, isSpaced, same⟩ | ⟨rfl, signed, empty, isSpaced, same⟩⟩ :=
    Numeral.exists_numeral_of_readDecimal starts read
  · rw [same] at read marked ⊢
    rw [Numeral.read?_spaced isSpaced] at read
    split at read
    next fits =>
      cases read
      rw [Numeral.any_spaced isSpaced, Bool.not_eq_true'] at marked
      exact .spaced n spaced isSpaced noPlus marked bounded
    next => cases read
  · rw [same, Sign.text, List.nil_append] at read ⊢
    rw [Numeral.read?_displaced isSpaced signed empty] at read
    split at read
    next fits =>
      cases read
      exact .displaced n spaced isSpaced signed empty bounded
    next => cases read

/-- Every text that is read as a number is readable, apart from plus signs in front. -/
theorem isReadable_of_noPlus {text : List Char} (single : text.head? ≠ some '+')
    (isSome : (parse? text).isSome = true) : IsReadable text := by
  obtain ⟨sign, first, rest, noPlus, rfl, starts⟩ := exists_start_of_isSome single isSome
  rw [Sign.text_eq noPlus, parse?_of_start _ starts] at isSome
  split at isSome
  next marked =>
    cases read : Decimal.read? (signText sign.isNegative ++ first :: rest) with
    | none => simp [read] at isSome
    | some d =>
        by_cases bounded : d.scale.natAbs ≤ maxExactDigits
        · rw [← Sign.text_eq noPlus] at read
          exact isReadable_of_readDecimal noPlus starts marked read bounded
        · have withinBounds : scaleWithinBounds d = false := decide_eq_false bounded
          -- What is no decimal within bounds is read as a double, where nothing but numerals is.
          have isDouble :
              (Double.read? (signText sign.isNegative ++ first :: rest)).isSome = true := by
            simpa [read, withinBounds] using isSome
          obtain ⟨x, double⟩ := Option.isSome_iff_exists.mp isDouble
          rw [← Sign.text_eq noPlus] at read double
          rw [Numeral.read?_of_start sign starts] at double
          obtain ⟨n, rfl, unsigned⟩ := Numeral.exists_of_readUnsigned? sign double
          rw [← unsigned] at read ⊢
          exact .numeral n (fitsWord_of_read? read)
  next =>
    split at isSome
    next allDigits =>
      have areDigits : Digits.AreDigits (first :: rest) := List.all_eq_true.mp allDigits
      have numeral := IsReadable.numeral ⟨sign, first :: rest, none, none, by simpa using areDigits,
        by simp⟩ (by simp [Numeral.scale, Numeral.exponentValue, Digits.fitsWord])
      simpa [Numeral.text, Numeral.unsigned, Numeral.mantissa, Numeral.exponentText] using numeral
    next => cases isSome

/-- Every text that is read as a number is readable. -/
theorem isReadable_of_isSome {text : List Char} (isSome : (parse? text).isSome = true) :
    IsReadable text := by
  by_cases single : text.head? = some '+'
  · obtain ⟨text, rfl⟩ := List.head?_eq_some_iff.mp single
    have single : text.head? ≠ some '+' := by
      intro another
      obtain ⟨text, rfl⟩ := List.head?_eq_some_iff.mp another
      cases isSome
    rw [Numeral.parse?_plus single] at isSome
    exact .plus text (isReadable_of_noPlus single isSome) single
  · exact isReadable_of_noPlus single isSome

/-- The texts that are read as numbers are the readable ones. -/
theorem parse?_isSome_iff (text : List Char) : (parse? text).isSome = true ↔ IsReadable text :=
  ⟨isReadable_of_isSome, isSome_of_isReadable⟩

end TextTemplate.Numeric
