import TextTemplate.Proofs.Numeric.Values

/-! # Numbers are read back

The spelling of a literal is read as a literal that equals it and has the same spelling, though not
always the same representation. -/

namespace TextTemplate.Numeric

open Decimal (withSign)

/-! ### Spellings -/

/-- The sign of a spelling. -/
def signText (negative : Bool) : List Char := if negative then ['-'] else []

/-- The sign of an integer stands in front of the text. -/
theorem withSign_eq (unscaled : Int) (text : List Char) :
    withSign unscaled text = signText (decide (unscaled < 0)) ++ text := by
  by_cases negative : unscaled < 0 <;> simp [withSign, signText, negative]

/-- The digits of an integer are those of its magnitude, behind its sign. -/
theorem ofInt_eq (number : Int) :
    Digits.ofInt number = signText (decide (number < 0)) ++ Digits.ofNat number.natAbs := by
  by_cases negative : number < 0 <;> simp [Digits.ofInt, signText, negative]

/-- Whether a text is nothing, or a point and digits. -/
def IsFraction (text : List Char) : Prop :=
  text = [] ∨ ∃ digits, text = '.' :: digits ∧ Digits.AreDigits digits ∧ digits ≠ []

/-- Whether a text is digits after an optional sign, with an optional fraction. -/
def IsPlain (text : List Char) : Prop :=
  ∃ negative whole fraction, text = signText negative ++ (whole ++ fraction) ∧
    Digits.AreDigits whole ∧ whole ≠ [] ∧ IsFraction fraction

/-- Integers are spelled plainly, with a fraction or without one. -/
theorem isPlain_ofInt (number : Int) {fraction : List Char} (isFraction : IsFraction fraction) :
    IsPlain (Digits.ofInt number ++ fraction) :=
  ⟨_, _, _, by rw [ofInt_eq, List.append_assoc], Digits.areDigits_ofNat _, Digits.ofNat_ne_nil _,
    isFraction⟩

/-- What a text that starts with a digit or a point after an optional minus sign is read as. -/
theorem parse?_of_start (negative : Bool) {first : Char}
    (starts : first.isDigit = true ∨ first = '.') (rest : List Char) :
    parse? (signText negative ++ first :: rest) =
      if (first :: rest).any (fun c => c == '.' || Decimal.isExponentMark c) then do
        let d ← Decimal.read? (signText negative ++ first :: rest)
        if scaleWithinBounds d then return .decimal d
        else (Double.read? (signText negative ++ first :: rest)).map .double
      else if (first :: rest).all Char.isDigit then
        if maxDoubleDigits < (first :: rest).length then
          (Digits.readInt? (signText negative ++ first :: rest)).map .integer
        else (Double.read? (signText negative ++ first :: rest)).map .double
      else none := by
  have noPlus : first ≠ '+' := by
    rintro rfl
    exact absurd starts (by decide)
  have noMinus : first ≠ '-' := by
    rintro rfl
    exact absurd starts (by decide)
  -- The first character is neither a sign nor refused, so that only the rest decides.
  have guard : (!(first.isDigit || first == '.')) = false := by
    rcases starts with isDigit | isPoint
    · simp [isDigit]
    · simp [isPoint]
  cases negative
  · rw [signText, if_neg Bool.false_ne_true, List.nil_append, parse?]
    · simp only [List.head?_cons, Option.any_some, guard]
      rfl
    · exact fun _ same => noPlus (List.cons.inj same).1
    · exact fun _ same => noMinus (List.cons.inj same).1
  · rw [signText, if_pos rfl, List.singleton_append, parse?]
    simp only [List.head?_cons, Option.any_some, guard]
    rfl

/-! ### Runs of digits -/

/-- Digits are the same in lower case. -/
theorem toLower_of_isDigit {c : Char} (isDigit : c.isDigit = true) : c.toLower = c := by
  simp only [Char.isDigit, Bool.and_eq_true, decide_eq_true_eq] at isDigit
  have noUpper : ¬('A'.val ≤ c.val ∧ c.val ≤ 'Z'.val) := by
    rintro ⟨upper, -⟩
    have empty : 'A'.val ≤ '9'.val := UInt32.le_trans upper isDigit.2
    exact absurd empty (by decide)
  exact dif_neg noUpper

/-- A text that starts with a digit or a point is none of the words for numbers. -/
theorem readMagnitude?_of_start (negative : Bool) {first : Char}
    (starts : first.isDigit = true ∨ first = '.') (rest : List Char) :
    Double.readMagnitude? negative (first :: rest) =
      Double.readUnsigned? negative (first :: rest) := by
  have lower : first.toLower = first := by
    rcases starts with isDigit | rfl
    · exact toLower_of_isDigit isDigit
    · rfl
  have noWord (word : List Char) (letters : word.head?.any (fun c => c.isDigit || c == '.') = false) :
      (first :: rest).map Char.toLower ≠ word := by
    rintro rfl
    rcases starts with isDigit | rfl
    · simp [lower, isDigit] at letters
    · simp [lower] at letters
  rw [Double.readMagnitude?, if_neg (noWord _ (by decide)),
    if_neg (not_or.mpr ⟨noWord _ (by decide), noWord _ (by decide)⟩)]

/-- A run of digits is the double that its number is rounded to. -/
theorem read?_digits (negative : Bool) {digits : List Char} (areDigits : Digits.AreDigits digits)
    (nonempty : digits ≠ []) :
    Double.read? (signText negative ++ digits) =
      some (Double.ofDecimal negative (Digits.value digits) 0) := by
  obtain ⟨first, rest, rfl⟩ := List.exists_cons_of_ne_nil nonempty
  have isDigit := areDigits first (List.mem_cons_self ..)
  have whole : (first :: rest).takeWhile Char.isDigit = first :: rest := by
    simpa using takeWhile_run areDigits (stopsRun_nil _)
  have nothing : (first :: rest).dropWhile Char.isDigit = [] := by
    simpa using dropWhile_run areDigits (stopsRun_nil _)
  have magnitude : Double.readMagnitude? negative (first :: rest) =
      some (Double.ofDecimal negative (Digits.value (first :: rest)) 0) := by
    rw [readMagnitude?_of_start negative (.inl isDigit), Double.readUnsigned?]
    simp [whole, nothing, Double.readExponent?]
  cases negative
  · rw [signText, if_neg Bool.false_ne_true, List.nil_append, Double.read?, magnitude]
    all_goals
      intro _ same
      rw [(List.cons.inj same).1] at isDigit
      cases isDigit
  · exact magnitude

/-- Digits after a sign are an integer. -/
theorem readInt?_signed (negative : Bool) {digits : List Char}
    (areDigits : Digits.AreDigits digits) (nonempty : digits ≠ []) :
    Digits.readInt? (signText negative ++ digits) =
      some (Double.signed negative (Digits.value digits)) := by
  cases negative
  · exact Digits.readInt?_digits areDigits nonempty
  · have all : digits.all Char.isDigit = true := List.all_eq_true.mpr areDigits
    simp [Digits.readInt?, signText, Double.signed, nonempty, all]

/-- At most fifteen digits are rounded without a detour. -/
theorem ofDecimal_of_small (negative : Bool) {number : Nat} (small : number < 10 ^ 15) :
    Double.ofDecimal negative number 0 =
      Double.nearest negative (number * Double.unitsPerOne) 1 := by
  rcases Nat.eq_zero_or_pos number with rfl | positive
  · rw [Nat.zero_mul]
    rfl
  · have length := (Digits.length_ofNat_le_iff (by decide)).mpr small
    rw [Double.ofDecimal, if_neg (by omega)]
    simp only
    rw [if_neg (by omega), if_neg (by omega), if_pos (by decide), Int.toNat_zero, Nat.pow_eq,
      pow_zero, mul_one]

/-- The digits of a number are an integer if they are many, and otherwise a double. -/
theorem parse?_ofNat (negative : Bool) (number : Nat) :
    parse? (signText negative ++ Digits.ofNat number) =
      if number < 10 ^ 15 then
        some (.double (Double.nearest negative (number * Double.unitsPerOne) 1))
      else some (.integer (Double.signed negative number)) := by
  have areDigits := Digits.areDigits_ofNat number
  have nonempty := Digits.ofNat_ne_nil number
  have double := read?_digits negative areDigits nonempty
  have integer := readInt?_signed negative areDigits nonempty
  have length : maxDoubleDigits < (Digits.ofNat number).length ↔ ¬ number < 10 ^ 15 := by
    rw [← Digits.length_ofNat_le_iff (by decide), Nat.not_le]
    rfl
  have noMark : (Digits.ofNat number).any (fun c => c == '.' || Decimal.isExponentMark c) =
      false := by
    rw [List.any_eq_false]
    intro c isMember
    obtain ⟨noMark, noPoint⟩ := Decimal.of_mem_withSign 0 areDigits c isMember
    simp [noMark, noPoint]
  have all : (Digits.ofNat number).all Char.isDigit = true := List.all_eq_true.mpr areDigits
  rw [Digits.value_ofNat] at double integer
  -- All that is needed of the digits has been said, so they are taken for any digits.
  generalize Digits.ofNat number = digits at *
  obtain ⟨first, rest, rfl⟩ := List.exists_cons_of_ne_nil nonempty
  rw [parse?_of_start negative (.inl (areDigits first (List.mem_cons_self ..))), if_neg (by simp [noMark]),
    if_pos all]
  by_cases small : number < 10 ^ 15
  · rw [if_neg (fun long => length.mp long small), if_pos small, double, ofDecimal_of_small negative small]
    rfl
  · rw [if_pos (length.mpr small), if_neg small, integer]
    rfl

/-! ### Fractions -/

/-- Digits with a point among them are a decimal with the scale of the fraction. -/
theorem parse?_pointed {unscaled : Int} {whole fraction : List Char}
    (areDigits : Digits.AreDigits (whole ++ fraction)) (nonempty : whole ≠ [])
    (same : Digits.value (whole ++ fraction) = unscaled.natAbs)
    (bounded : fraction.length ≤ 10000) :
    parse? (withSign unscaled (whole ++ '.' :: fraction)) =
      some (.decimal ⟨unscaled, fraction.length⟩) := by
  have read := Decimal.read?_pointed unscaled whole fraction areDigits nonempty same
    (stopsRun_nil _) rfl (Decimal.fitsWord_of_bounded (by omega))
  have scale : scaleWithinBounds ⟨unscaled, fraction.length⟩ = true := decide_eq_true bounded
  rw [List.append_nil, Int.sub_zero] at read
  obtain ⟨first, rest, rfl⟩ := List.exists_cons_of_ne_nil nonempty
  rw [withSign_eq] at read ⊢
  rw [List.cons_append] at read ⊢
  rw [parse?_of_start _ (.inl (areDigits first (List.mem_cons_self ..))), if_pos (by simp), read]
  simp [scale]

/-! ### Literals -/

/-- What a number is read as once it is spelled: a finite number that equals it and is spelled in
the same way. -/
structure Respelled (value again : Numeric) : Prop where
  plain : IsPlain value.spelling
  parsed : parse? value.spelling = some again
  finite : again.isFinite = true
  equal : again.numericEq value = true
  spelling : again.spelling = value.spelling
  negative : Expr.isNegative again = Expr.isNegative value

/-- A spelling is read as one number. -/
theorem Respelled.unique {value again other : Numeric} (first : Respelled value again)
    (second : Respelled value other) : again = other :=
  Option.some.inj (first.parsed.symm.trans second.parsed)

/-- Reading a spelling has to give the decimal, and a double from a double's. -/
theorem respelled_of_value_eq {value again : Numeric} {d d' : Decimal}
    (found : value.toDecimal? = some d) (found' : again.toDecimal? = some d')
    (same : d'.value = d.value)
    (doubles : ∀ x x', again = .double x → value = .double x' → x = x')
    (plain : IsPlain value.spelling) (parsed : parse? value.spelling = some again)
    (spelling : again.spelling = value.spelling) : Respelled value again where
  plain := plain
  parsed := parsed
  finite := isFinite_of_toDecimal? found'
  equal := numericEq_of_value_eq found' found same doubles
  spelling := spelling
  negative := by
    rw [Bool.eq_iff_iff, isNegative_iff found, isNegative_iff found', ← Decimal.value_neg_iff,
      ← Decimal.value_neg_iff, same]

/-- A number whose digits go on after the point is spelled as it is displayed. -/
theorem spelling_of_pointed {value : Numeric} {d : Decimal} (found : value.toDecimal? = some d)
    (pointed : 0 < d.normalized.scale) : value.spelling = d.plain := by
  obtain ⟨whole, fraction, -, -, -, -, text⟩ := Decimal.plain_of_pointed pointed
  have contains : d.plain.contains '.' = true := by
    rw [text, withSign_eq]
    simp
  rw [← display_of_toDecimal? found] at contains ⊢
  unfold spelling
  split
  next negative place =>
    rw [if_neg]
    intro zero
    cases found
    rw [zero, Decimal.ofDouble_zero] at pointed
    exact absurd pointed (by decide)
  next => rw [if_pos contains]
  next => rfl

/-- A number whose digits go on after the point is read as a decimal. -/
theorem respelled_of_pointed {value : Numeric} {d : Decimal} (found : value.toDecimal? = some d)
    (few : d.scale ≤ 10000) (pointed : 0 < d.normalized.scale) :
    Respelled value (.decimal d.normalized) := by
  have spelled := spelling_of_pointed found pointed
  have spelledAgain : spelling (.decimal d.normalized) = d.normalized.plain :=
    spelling_of_pointed rfl
      (by rwa [Decimal.normalized_eq_of_value_eq (Decimal.value_normalized d)])
  obtain ⟨whole, fraction, areDigits, nonempty, length, same, text⟩ :=
    Decimal.plain_of_pointed pointed
  refine respelled_of_value_eq found rfl (Decimal.value_normalized d) (by simp) ?_ ?_ ?_
  · obtain ⟨wholeDigits, fractionDigits⟩ := Digits.areDigits_append.mp areDigits
    rw [spelled, text, withSign_eq]
    refine ⟨_, _, _, rfl, wholeDigits, nonempty, .inr ⟨_, rfl, fractionDigits, ?_⟩⟩
    rintro rfl
    simp only [List.length_nil] at length
    omega
  · have bounded : fraction.length ≤ 10000 := by
      obtain ⟨dropped, -, place, -⟩ :=
        Decimal.normalized_spec (Decimal.unscaled_ne_zero_of_pointed pointed)
      omega
    rw [spelled, text, parse?_pointed areDigits nonempty same bounded, length]
  · rw [spelled, spelledAgain]
    exact Decimal.plain_eq_of_value_eq (Decimal.value_normalized d)

/-- An integer has no point. -/
theorem point_notMem_ofInt (number : Int) : '.' ∉ Digits.ofInt number := by
  rw [ofInt_eq, ← withSign_eq]
  intro isMember
  exact (Decimal.of_mem_withSign number (Digits.areDigits_ofNat _) '.' isMember).2 rfl

/-- A decimal without a fraction is spelled with a zero after its point. -/
theorem spelling_decimal {d : Decimal} {number : Int} (integral : d.value = number) :
    spelling (.decimal d) = Digits.ofInt number ++ ".0".toList := by
  have text : display (.decimal d) = Digits.ofInt number := Decimal.plain_of_value_eq integral
  rw [spelling, text, if_neg (by simp [point_notMem_ofInt])]

/-- A decimal without a fraction is read as a decimal. -/
theorem respelled_decimal {d : Decimal} {number : Int} (integral : d.value = number) :
    Respelled (.decimal d) (.decimal ⟨number * 10, 1⟩) := by
  have again : (⟨number * 10, 1⟩ : Decimal).value = number := Decimal.value_units number 1
  have zero : Digits.AreDigits ['0'] := Digits.areDigits_replicate_zero 1
  refine respelled_of_value_eq rfl rfl (again.trans integral.symm) (by simp) ?_ ?_ ?_
  · rw [spelling_decimal integral]
    exact isPlain_ofInt number (.inr ⟨['0'], rfl, zero, by simp⟩)
  · have sign : number * 10 < 0 ↔ number < 0 := by omega
    -- The spelling has the digits of the integer and one zero behind the point.
    have parsed : parse? (withSign (number * 10) (Digits.ofNat number.natAbs ++ '.' :: ['0'])) =
        some (.decimal ⟨number * 10, 1⟩) :=
      parse?_pointed (Digits.areDigits_append.mpr
          ⟨Digits.areDigits_ofNat _, zero⟩)
        (Digits.ofNat_ne_nil _)
        (by
          have value := Decimal.value_append_zeros (Digits.ofNat number.natAbs) 1
          rw [Digits.value_ofNat] at value
          rw [Int.natAbs_mul]
          exact value)
        (by decide)
    rw [withSign_eq] at parsed
    simp only [sign] at parsed
    rw [spelling_decimal integral, ofInt_eq, List.append_assoc]
    exact parsed
  · rw [spelling_decimal integral, spelling_decimal again]

/-- A double other than the negative zero is spelled as it is displayed. -/
theorem spelling_double {negative : Bool} {place : Fin Double.placeCount}
    (nonzero : negative = true → 0 < place.val) :
    spelling (.double (.finite negative place)) = (Decimal.ofDouble negative place.val).plain := by
  cases negative with
  | true =>
      rw [spelling, if_neg (nonzero rfl).ne']
      rfl
  | false => rfl

/-- An integer is the one with its own sign and size. -/
theorem signed_natAbs (number : Int) :
    Double.signed (decide (number < 0)) number.natAbs = number := by
  simp only [Double.signed, decide_eq_true_eq]
  split <;> omega

/-- The digits of an integer are an integer if they are many, and otherwise a double. -/
theorem parse?_ofInt (number : Int) :
    parse? (Digits.ofInt number) =
      if number.natAbs < 10 ^ 15 then
        some (.double (Double.nearest (decide (number < 0))
          (number.natAbs * Double.unitsPerOne) 1))
      else some (.integer number) := by
  rw [ofInt_eq, parse?_ofNat, signed_natAbs]

/-- The digits of an integer are plain. -/
theorem isPlain_integer (number : Int) : IsPlain (Digits.ofInt number) := by
  simpa using isPlain_ofInt number (.inl rfl)

/-- A short integer is read as a double. -/
theorem exists_respelled_short {number : Int} (short : number.natAbs < 10 ^ 15) :
    ∃ place, Respelled (.integer number)
      (.double (.finite (decide (number < 0)) place)) := by
  obtain ⟨place, nearest, zero, exact⟩ :=
    Decimal.exists_ofDouble (decide (number < 0)) (lt_trans short (by decide))
  have parsed := parse?_ofInt number
  rw [if_pos short, nearest] at parsed
  rw [signed_natAbs] at exact
  refine ⟨place, respelled_of_value_eq (d := .ofInt number) rfl rfl
    (exact.trans (Decimal.value_ofInt number).symm) (by simp) ?_ parsed ?_⟩
  · exact isPlain_integer number
  · rw [spelling_double fun negative => ?_, Decimal.plain_of_value_eq exact]
    · rfl
    · rw [decide_eq_true_eq] at negative
      exact zero.mpr (by omega)

/-- A long integer is read as itself. -/
theorem respelled_long {number : Int} (long : ¬ number.natAbs < 10 ^ 15) :
    Respelled (.integer number) (.integer number) := by
  have parsed := parse?_ofInt number
  rw [if_neg long] at parsed
  exact respelled_of_value_eq (d := .ofInt number) rfl rfl rfl (by simp) (isPlain_integer number)
    parsed rfl

/-- A zero is read with its sign. -/
theorem respelled_zero (negative : Bool) (bound : 0 < Double.placeCount) :
    Respelled (.double (.finite negative ⟨0, bound⟩)) (.double (.finite negative ⟨0, bound⟩)) := by
  have spelled : spelling (.double (.finite negative ⟨0, bound⟩)) =
      signText negative ++ Digits.ofNat 0 := by
    cases negative with
    | true => rfl
    | false =>
        rw [spelling_double (by simp), Decimal.ofDouble_zero]
        rfl
  refine respelled_of_value_eq rfl rfl rfl (fun x x' same same' => ?_) ?_ ?_ rfl
  · rw [same] at same'
    exact Numeric.double.inj same'
  · rw [spelled]
    exact ⟨negative, _, [], by rw [List.append_nil], Digits.areDigits_ofNat _,
      Digits.ofNat_ne_nil _, .inl rfl⟩
  · have parsed := parse?_ofNat negative 0
    rw [if_pos (by decide), Nat.zero_mul] at parsed
    rw [spelled]
    exact parsed

section Integral

variable {negative : Bool} {place : Fin Double.placeCount} {number : Int}

/-- A double without a fraction is spelled as an integer of its sign. -/
theorem spelling_integral (nonzero : 0 < place.val)
    (integral : (Decimal.ofDouble negative place.val).value = number) :
    spelling (.double (.finite negative place)) = Digits.ofInt number ∧
      decide (number < 0) = negative := by
  constructor
  · rw [spelling_double fun _ => nonzero, Decimal.plain_of_value_eq integral]
  · rw [Bool.eq_iff_iff, decide_eq_true_eq, ← Int.cast_lt_zero (R := ℚ), ← integral,
      Decimal.value_neg_iff, Decimal.unscaled_ofDouble_neg_iff, and_iff_left nonzero]

/-- A double that is a short integer is read as itself. -/
theorem respelled_double_short (nonzero : 0 < place.val)
    (integral : (Decimal.ofDouble negative place.val).value = number)
    (short : number.natAbs < 10 ^ 15) :
    Respelled (.double (.finite negative place)) (.double (.finite negative place)) := by
  obtain ⟨spelled, sign⟩ := spelling_integral nonzero integral
  have parsed := parse?_ofInt number
  rw [if_pos short, sign,
    Decimal.nearest_eq_of_value nonzero (lt_trans short (by decide)) integral, ← spelled] at parsed
  refine respelled_of_value_eq rfl rfl rfl (fun x x' same same' => ?_) ?_ parsed rfl
  · rw [same] at same'
    exact Numeric.double.inj same'
  · rw [spelled]
    exact isPlain_integer number

/-- A double that is a long integer is read as an integer. -/
theorem respelled_double_long (nonzero : 0 < place.val)
    (integral : (Decimal.ofDouble negative place.val).value = number)
    (long : ¬ number.natAbs < 10 ^ 15) :
    Respelled (.double (.finite negative place)) (.integer number) := by
  obtain ⟨spelled, -⟩ := spelling_integral nonzero integral
  have parsed := parse?_ofInt number
  rw [if_neg long, ← spelled] at parsed
  have found : (Numeric.integer number).toDecimal? = some (.ofInt number) := rfl
  refine respelled_of_value_eq rfl found ((Decimal.value_ofInt number).trans integral.symm)
    (by simp) ?_ parsed spelled.symm
  rw [spelled]
  exact isPlain_integer number

end Integral

end TextTemplate.Numeric
