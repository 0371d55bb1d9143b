import TextTemplate.Proofs.Numeric.Numerals

/-! # Grouped digits

The reader of decimals lets underscores stand among the digits, and takes the point out before it
looks for a sign. This module says what it makes of such texts, and of numerals, which have neither
underscores nor a point in front of the sign. -/

namespace TextTemplate.Numeral

/-! ### Grouped digits -/

/-- A text without its underscores. -/
def ungrouped (text : List Char) : List Char := text.filter (· ≠ '_')

/-- Whether a text is digits, with or without underscores behind the first of them. -/
structure IsGrouped (text : List Char) : Prop where
  areDigits : Digits.AreDigits (ungrouped text)
  nonempty : text ≠ []
  starts : text.head? ≠ some '_'

/-- Whether a text is the digits given, with their point, and underscores among them. No underscore
stands in front of the first digit. -/
structure IsSpaced (digits spaced : List Char) : Prop where
  kept : ungrouped spaced = digits
  starts : (spaced.filter (· ≠ '.')).head? ≠ some '_'

/-- What is left without underscores is digits when nothing but digits and underscores is there. -/
theorem areDigits_ungrouped {text : List Char} :
    Digits.AreDigits (ungrouped text) ↔ ∀ c ∈ text, c.isDigit = true ∨ c = '_' := by
  simp only [Digits.AreDigits, ungrouped, List.mem_filter, decide_eq_true_eq, and_imp]
  exact forall₂_congr fun c _ => by rw [or_comm, Decidable.or_iff_not_imp_left]

/-- Grouped digits are read as the digits that they are without underscores. -/
theorem readGrouped?_of_isGrouped {text : List Char} (grouped : IsGrouped text) :
    Digits.readGrouped? text = some (Digits.value (ungrouped text)) := by
  obtain ⟨areDigits, nonempty, starts⟩ := grouped
  rw [areDigits_ungrouped] at areDigits
  obtain ⟨first, rest, rfl⟩ := List.exists_cons_of_ne_nil nonempty
  have noUnderscore : first ≠ '_' := by simpa using starts
  have isDigit := (areDigits first (.head _)).resolve_right noUnderscore
  have others : rest.all (fun c => c.isDigit || c == '_') = true :=
    List.all_eq_true.mpr fun c isRest => by simpa using areDigits c (.tail _ isRest)
  exact if_pos ⟨isDigit, others⟩

/-- Nothing but grouped digits is read as such. -/
theorem isGrouped_of_readGrouped? {text : List Char} {value : Nat}
    (read : Digits.readGrouped? text = some value) : IsGrouped text := by
  cases text with
  | nil => cases read
  | cons first rest =>
      rw [Digits.readGrouped?] at read
      split at read
      next grouped =>
        obtain ⟨isDigit, others⟩ := grouped
        refine ⟨areDigits_ungrouped.mpr ?_, List.cons_ne_nil _ _, ?_⟩
        · intro c isMember
          rcases List.mem_cons.mp isMember with rfl | isRest
          · exact .inl isDigit
          · simpa using List.all_eq_true.mp others c isRest
        · rintro ⟨⟩
          exact absurd isDigit (by decide)
      next => cases read

/-- Grouped digits after a sign are an integer of that sign. -/
theorem readGroupedInt?_signed (sign : Sign) {text : List Char} (grouped : IsGrouped text) :
    Digits.readGroupedInt? (sign.text ++ text) =
      some (Double.signed sign.isNegative (Digits.value (ungrouped text))) := by
  have read := readGrouped?_of_isGrouped grouped
  cases sign with
  | none =>
      have isDigit (c : Char) (isFirst : text.head? = some c) : c.isDigit = true ∨ c = '_' :=
        areDigits_ungrouped.mp grouped.areDigits c (List.mem_of_head? isFirst)
      rw [Sign.text, List.nil_append, Digits.readGroupedInt?]
      · rw [read]
        rfl
      all_goals
        rintro rest rfl
        exact absurd (isDigit _ rfl) (by decide)
  | plus =>
      rw [Sign.text, List.singleton_append, Digits.readGroupedInt?, read]
      rfl
  | minus =>
      rw [Sign.text, List.singleton_append, Digits.readGroupedInt?, read]
      rfl

/-- Nothing but grouped digits after an optional sign is read as an integer. -/
theorem exists_of_readGroupedInt? {text : List Char} {value : Int}
    (read : Digits.readGroupedInt? text = some value) :
    ∃ (sign : Sign) (digits : List Char), text = sign.text ++ digits ∧ IsGrouped digits := by
  unfold Digits.readGroupedInt? at read
  split at read
  next digits =>
    obtain ⟨magnitude, read, -⟩ := Option.map_eq_some_iff.mp read
    obtain ⟨magnitude, read, -⟩ := Option.bind_eq_some_iff.mp read
    exact ⟨.minus, digits, rfl, isGrouped_of_readGrouped? read⟩
  next digits =>
    obtain ⟨magnitude, read, -⟩ := Option.map_eq_some_iff.mp read
    exact ⟨.plus, digits, rfl, isGrouped_of_readGrouped? read⟩
  next =>
    obtain ⟨magnitude, read, -⟩ := Option.map_eq_some_iff.mp read
    exact ⟨.none, _, rfl, isGrouped_of_readGrouped? read⟩

/-! ### Decimals -/

/-- A text without a point has nothing after it. -/
theorem splitPoint_of_notMem {text : List Char} (noPoint : '.' ∉ text) :
    Decimal.splitPoint text = (text, 0) := by
  have nothing : text.dropWhile (· ≠ '.') = [] := by
    rw [List.dropWhile_eq_nil_iff]
    intro c isMember
    rw [decide_eq_true_eq]
    rintro rfl
    exact noPoint isMember
  rw [Decimal.splitPoint, nothing]

/-- The first point is taken out, and the digits after it are counted. -/
theorem splitPoint_pointed {whole : List Char} (noPoint : '.' ∉ whole) (fraction : List Char) :
    Decimal.splitPoint (whole ++ '.' :: fraction) =
      (whole ++ fraction, (ungrouped fraction).length) := by
  have isRun : ∀ c ∈ whole, decide (c ≠ '.') = true := by
    intro c isMember
    rw [decide_eq_true_eq]
    rintro rfl
    exact noPoint isMember
  have stops : StopsRun (fun c => decide (c ≠ '.')) ('.' :: fraction) := stopsRun_cons.mpr rfl
  rw [Decimal.splitPoint, dropWhile_run isRun stops, takeWhile_run isRun stops]
  rfl

/-- What is read in front of an exponent. -/
theorem read?_of_exponent {body rest : List Char} {exponent : Int}
    (plain : ∀ c ∈ body, Decimal.isExponentMark c = false)
    (stops : StopsRun (fun c => !Decimal.isExponentMark c) rest)
    (read : Decimal.readExponent? rest = some exponent) :
    Decimal.read? (body ++ rest) =
      (Digits.readGroupedInt? (Decimal.splitPoint body).1).bind fun unscaled =>
        let scale := ((Decimal.splitPoint body).2 : Int) - exponent
        if Digits.fitsWord scale then some ⟨unscaled, scale⟩ else none := by
  obtain ⟨taken, dropped⟩ := Decimal.cut_exponent body plain stops
  rw [Decimal.read?, taken, dropped, read]
  rfl

/-- A sign is a plus or a minus. -/
theorem Sign.of_mem {sign : Sign} {c : Char} (isMember : c ∈ sign.text) : c = '+' ∨ c = '-' := by
  cases sign with
  | none => cases isMember
  | plus => exact .inl (List.mem_singleton.mp isMember)
  | minus => exact .inr (List.mem_singleton.mp isMember)

/-- Digits with underscores have neither a point nor an exponent mark, and nor has a sign. -/
theorem of_mem_grouped (sign : Sign) {text : List Char}
    (areDigits : Digits.AreDigits (ungrouped text)) :
    ∀ c ∈ sign.text ++ text, c ≠ '.' ∧ Decimal.isExponentMark c = false := by
  intro c isMember
  rcases List.mem_append.mp isMember with isSign | isText
  · rcases Sign.of_mem isSign with rfl | rfl <;> decide
  · rcases areDigits_ungrouped.mp areDigits c isText with isDigit | rfl
    · exact of_isDigit isDigit
    · decide

@[simp] theorem ungrouped_append (left right : List Char) :
    ungrouped (left ++ right) = ungrouped left ++ ungrouped right := List.filter_append ..

/-- A sign is no underscore. -/
@[simp] theorem ungrouped_sign (sign : Sign) : ungrouped sign.text = sign.text := by
  cases sign <;> rfl

section Grouped

variable {text whole fraction rest : List Char} {exponent : Int} (sign : Sign)
  (stops : StopsRun (fun c => !Decimal.isExponentMark c) rest)
  (read : Decimal.readExponent? rest = some exponent)
include stops read

/-- Grouped digits without a point have the scale of the exponent. -/
theorem read?_grouped (grouped : IsGrouped text) :
    Decimal.read? (sign.text ++ (text ++ rest)) =
      if Digits.fitsWord (-exponent) then
        some ⟨Double.signed sign.isNegative (Digits.value (ungrouped text)), -exponent⟩
      else none := by
  have members := of_mem_grouped sign grouped.areDigits
  have noPoint : '.' ∉ sign.text ++ text := fun isMember => (members '.' isMember).1 rfl
  rw [← List.append_assoc,
    read?_of_exponent (fun c isMember => (members c isMember).2) stops read,
    splitPoint_of_notMem noPoint, readGroupedInt?_signed sign grouped, Option.bind_some,
    Int.natCast_zero, Int.zero_sub]

/-- Grouped digits with a point have the scale of their fraction, less the exponent. -/
theorem read?_groupedPointed (grouped : IsGrouped (whole ++ fraction)) :
    Decimal.read? (sign.text ++ (whole ++ '.' :: (fraction ++ rest))) =
      if Digits.fitsWord ((ungrouped fraction).length - exponent) then
        some ⟨Double.signed sign.isNegative (Digits.value (ungrouped (whole ++ fraction))),
          (ungrouped fraction).length - exponent⟩
      else none := by
  have areDigits := grouped.areDigits
  rw [ungrouped_append, Digits.areDigits_append] at areDigits
  have members := of_mem_grouped sign areDigits.1
  have behind := of_mem_grouped .none areDigits.2
  have noPoint : '.' ∉ sign.text ++ whole := fun isMember => (members '.' isMember).1 rfl
  have plain : ∀ c ∈ (sign.text ++ whole) ++ '.' :: fraction,
      Decimal.isExponentMark c = false := by
    intro c isMember
    rw [List.mem_append, List.mem_cons] at isMember
    rcases isMember with isBefore | rfl | isBehind
    · exact (members c isBefore).2
    · rfl
    · exact (behind c isBehind).2
  have text : sign.text ++ (whole ++ '.' :: (fraction ++ rest)) =
      ((sign.text ++ whole) ++ '.' :: fraction) ++ rest := by simp
  rw [text, read?_of_exponent plain stops read, splitPoint_pointed noPoint, List.append_assoc,
    readGroupedInt?_signed sign grouped, Option.bind_some]

/-- A point in front of a sign counts the sign as a digit. -/
theorem read?_groupedDisplaced (signed : sign ≠ .none) (grouped : IsGrouped text) :
    Decimal.read? ('.' :: (sign.text ++ (text ++ rest))) =
      if Digits.fitsWord ((ungrouped text).length + 1 - exponent) then
        some ⟨Double.signed sign.isNegative (Digits.value (ungrouped text)),
          (ungrouped text).length + 1 - exponent⟩
      else none := by
  have members := of_mem_grouped sign grouped.areDigits
  have plain : ∀ c ∈ '.' :: (sign.text ++ text), Decimal.isExponentMark c = false := by
    intro c isMember
    rcases List.mem_cons.mp isMember with rfl | isBehind
    · rfl
    · exact (members c isBehind).2
  have split := splitPoint_pointed List.not_mem_nil (sign.text ++ text)
  -- The sign is behind the point, and so it is counted among the places.
  have single : sign.text.length = 1 := by
    cases sign with
    | none => exact absurd rfl signed
    | plus => rfl
    | minus => rfl
  have length : (ungrouped (sign.text ++ text)).length = (ungrouped text).length + 1 := by
    rw [ungrouped_append, ungrouped_sign, List.length_append, single, Nat.add_comm]
  have body : '.' :: (sign.text ++ (text ++ rest)) = '.' :: (sign.text ++ text) ++ rest := by simp
  rw [List.nil_append, List.nil_append] at split
  rw [body, read?_of_exponent plain stops read, split, length,
    readGroupedInt?_signed sign grouped, Option.bind_some, Int.natCast_add, Int.natCast_one]

end Grouped

variable {n : Numeral} {spaced : List Char}

/-- Digits with underscores among them have no point to take out. -/
theorem filter_point {text : List Char} (areDigits : Digits.AreDigits (ungrouped text)) :
    text.filter (· ≠ '.') = text :=
  List.filter_eq_self.mpr fun c isMember => by
    simpa using (of_mem_grouped .none areDigits c isMember).1

/-- Digits with underscores among them are grouped, if no underscore comes first. -/
theorem isGrouped_of_starts {text : List Char} (areDigits : Digits.AreDigits (ungrouped text))
    (nonempty : ungrouped text ≠ []) (starts : (text.filter (· ≠ '.')).head? ≠ some '_') :
    IsGrouped text := by
  rw [filter_point areDigits] at starts
  refine ⟨areDigits, ?_, starts⟩
  rintro rfl
  exact nonempty rfl

/-- A point stays where it is among the digits. -/
theorem exists_of_ungrouped_eq {text whole fraction : List Char}
    (kept : ungrouped text = whole ++ '.' :: fraction) :
    ∃ before behind, text = before ++ '.' :: behind ∧ ungrouped before = whole ∧
      ungrouped behind = fraction := by
  obtain ⟨before, rest, rfl, beforeKept, restKept⟩ := List.filter_eq_append_iff.mp kept
  obtain ⟨gap, behind, rfl, underscores, -, behindKept⟩ := List.filter_eq_cons_iff.mp restKept
  have nothing : ungrouped gap = [] := List.filter_eq_nil_iff.mpr underscores
  refine ⟨before ++ gap, behind, (List.append_assoc ..).symm, ?_, behindKept⟩
  rw [ungrouped_append, nothing, List.append_nil]
  exact beforeKept

/-- A numeral is the decimal that it stands for if its scale is a word, also when there are
underscores among its digits. -/
theorem read?_spaced (isSpaced : IsSpaced n.mantissa spaced) :
    Decimal.read? (n.sign.text ++ (spaced ++ n.exponentText)) =
      if Digits.fitsWord n.scale then some n.decimal else none := by
  obtain ⟨kept, starts⟩ := isSpaced
  have read := n.readExponent?_decimal
  have stops := n.stopsRun_exponentText
  have areDigits := n.areDigits
  have nonempty := n.nonempty
  rw [decimal, scale, digits]
  rw [mantissa] at kept
  -- The facts about the digits are stated for the mantissa as a whole, with its point or without.
  generalize n.fraction = point at *
  cases point with
  | none =>
      simp only [Option.elim_none, Option.getD_none, List.append_nil] at *
      rw [← kept] at areDigits nonempty ⊢
      rw [read?_grouped n.sign stops read (isGrouped_of_starts areDigits nonempty starts),
        List.length_nil, Int.natCast_zero, Int.zero_sub]
  | some fraction =>
      simp only [Option.elim_some, Option.getD_some] at *
      obtain ⟨before, behind, rfl, wholeKept, rfl⟩ := exists_of_ungrouped_eq kept
      rw [← wholeKept, ← ungrouped_append] at areDigits nonempty ⊢
      have withoutPoint : (before ++ '.' :: behind).filter (· ≠ '.') =
          (before ++ behind).filter (· ≠ '.') := by simp
      rw [withoutPoint] at starts
      rw [List.append_assoc, List.cons_append, read?_groupedPointed n.sign stops read
        (isGrouped_of_starts areDigits nonempty starts)]

/-- A numeral that starts with a point and has its sign behind it is its decimal with one more digit
after the point. -/
theorem read?_displaced (isSpaced : IsSpaced n.digits spaced) (signed : n.sign ≠ .none)
    (empty : n.whole = []) :
    Decimal.read? ('.' :: (n.sign.text ++ (spaced ++ n.exponentText))) =
      if Digits.fitsWord (n.scale + 1) then some ⟨n.decimal.unscaled, n.scale + 1⟩ else none := by
  obtain ⟨kept, starts⟩ := isSpaced
  have grouped := isGrouped_of_starts (by rw [kept]; exact n.areDigits)
    (by rw [kept]; exact n.nonempty) starts
  have scale : ((ungrouped spaced).length : Int) + 1 - n.exponentValue = n.scale + 1 := by
    rw [kept, digits, empty, List.nil_append, Numeral.scale]
    omega
  rw [read?_groupedDisplaced n.sign n.stopsRun_exponentText n.readExponent?_decimal signed grouped,
    scale, kept]
  rfl

/-- A mantissa is digits, and a point. -/
theorem of_mem_mantissa {c : Char} (isMember : c ∈ n.mantissa) : c.isDigit = true ∨ c = '.' := by
  have areDigits := n.areDigits
  rw [mantissa] at isMember
  generalize n.fraction = point at areDigits isMember
  cases point with
  | none => exact .inl (areDigits c isMember)
  | some fraction =>
      have reordered : c ∈ n.whole ++ fraction ∨ c = '.' := by
        simpa [or_assoc, or_comm, or_left_comm] using isMember
      exact reordered.imp_left (areDigits c)

/-- A mantissa has no underscores. -/
theorem isSpaced_mantissa : IsSpaced n.mantissa n.mantissa where
  kept := List.filter_eq_self.mpr fun c isMember => by
    rw [decide_eq_true_eq]
    rintro rfl
    exact absurd (of_mem_mantissa isMember) (by decide)
  starts isFirst := by
    have isMember := List.mem_of_mem_filter (List.mem_of_head? isFirst)
    exact absurd (of_mem_mantissa isMember) (by decide)

/-- A numeral is the decimal that it stands for if its scale is a word. -/
theorem read?_decimal :
    Decimal.read? n.text = if Digits.fitsWord n.scale then some n.decimal else none :=
  read?_spaced isSpaced_mantissa

end TextTemplate.Numeral
