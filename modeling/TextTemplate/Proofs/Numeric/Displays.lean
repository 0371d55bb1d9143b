import TextTemplate.Proofs.Numeric.Order
import TextTemplate.Proofs.Numeric.Spelling

/-! # Displays of numbers

A finite number is displayed as its value is, whatever its representation: two numbers are displayed
alike just where they are equal. A display is read back as a number that equals the one displayed, as
long as a decimal with so many digits after the point is read. -/

namespace TextTemplate

/-! ### Texts of decimals -/

namespace Digits

/-- Integers are known from their texts. -/
theorem ofInt_injective : Function.Injective ofInt := by
  intro number number' same
  have read := congrArg readInt? same
  rwa [readInt?_ofInt, readInt?_ofInt, Option.some_inj] at read

end Digits

namespace Decimal

/-- The sign of an integer and its digits are known from a text that has both. -/
theorem withSign_inj {unscaled unscaled' : Int} {digits digits' : List Char}
    (areDigits : Digits.AreDigits digits) (areDigits' : Digits.AreDigits digits')
    (same : withSign unscaled digits = withSign unscaled' digits') :
    (unscaled < 0 ↔ unscaled' < 0) ∧ digits = digits' := by
  have noSign {digits : List Char} (areDigits : Digits.AreDigits digits) (rest : List Char) :
      digits ≠ '-' :: rest := by
    rintro rfl
    exact absurd (areDigits '-' (List.mem_cons_self ..)) (by decide)
  unfold withSign at same
  split_ifs at same with negative negative' negative'
  · exact ⟨iff_of_true negative negative', (List.cons.inj same).2⟩
  · exact absurd same.symm (noSign areDigits' _)
  · exact absurd same (noSign areDigits _)
  · exact ⟨iff_of_false negative negative', same⟩

/-- A text is cut at its only point. -/
theorem cut_point (unscaled : Int) {whole : List Char} (areDigits : Digits.AreDigits whole)
    (fraction : List Char) :
    (withSign unscaled (whole ++ '.' :: fraction)).takeWhile (· ≠ '.') = withSign unscaled whole ∧
      (withSign unscaled (whole ++ '.' :: fraction)).dropWhile (· ≠ '.') = '.' :: fraction := by
  have isRun : ∀ c ∈ withSign unscaled whole, decide (c ≠ '.') = true := fun c isMember =>
    decide_eq_true (of_mem_withSign unscaled areDigits c isMember).2
  have stops : StopsRun (fun c => decide (c ≠ '.')) ('.' :: fraction) := by simp
  rw [← withSign_append]
  exact ⟨takeWhile_run isRun stops, dropWhile_run isRun stops⟩

/-- The sign and the digits on each side of a point are known from a text. -/
theorem pointed_inj {unscaled unscaled' : Int} {whole whole' fraction fraction' : List Char}
    (areDigits : Digits.AreDigits whole) (areDigits' : Digits.AreDigits whole')
    (same : withSign unscaled (whole ++ '.' :: fraction) =
      withSign unscaled' (whole' ++ '.' :: fraction')) :
    (unscaled < 0 ↔ unscaled' < 0) ∧ whole = whole' ∧ fraction = fraction' := by
  obtain ⟨before, after⟩ := cut_point unscaled areDigits fraction
  obtain ⟨before', after'⟩ := cut_point unscaled' areDigits' fraction'
  rw [same] at before after
  obtain ⟨sign, digits⟩ := withSign_inj areDigits areDigits' (before.symm.trans before')
  exact ⟨sign, digits, (List.cons.inj (after.symm.trans after')).2⟩

/-- A decimal with digits after the point is displayed with a point, and an integer is not. -/
theorem point_mem_plain_iff {d : Decimal} : '.' ∈ d.plain ↔ 0 < d.normalized.scale := by
  rcases d.integral_or_pointed with ⟨number, integral⟩ | pointed
  · rw [plain_of_value_eq integral]
    refine iff_of_false (Numeric.point_notMem_ofInt number) fun pointed => ?_
    exact not_integral_of_pointed pointed number integral
  · obtain ⟨whole, fraction, -, -, -, -, text⟩ := plain_of_pointed pointed
    refine iff_of_true ?_ pointed
    rw [text, Numeric.withSign_eq]
    simp

/-- Decimals that are displayed alike have one value. -/
theorem value_eq_of_plain_eq {d d' : Decimal} (same : d.plain = d'.plain) : d.value = d'.value := by
  have points : 0 < d.normalized.scale ↔ 0 < d'.normalized.scale := by
    rw [← point_mem_plain_iff, ← point_mem_plain_iff, same]
  rcases d.integral_or_pointed with ⟨number, integral⟩ | pointed
  · rcases d'.integral_or_pointed with ⟨number', integral'⟩ | pointed'
    · rw [plain_of_value_eq integral, plain_of_value_eq integral'] at same
      rw [integral, integral', Digits.ofInt_injective same]
    · exact absurd integral (not_integral_of_pointed (points.mpr pointed') number)
  · obtain ⟨whole, fraction, areDigits, -, length, digits, text⟩ := plain_of_pointed pointed
    obtain ⟨whole', fraction', areDigits', -, length', digits', text'⟩ :=
      plain_of_pointed (points.mp pointed)
    rw [text, text'] at same
    obtain ⟨sign, rfl, rfl⟩ := pointed_inj (Digits.areDigits_append.mp areDigits).1
      (Digits.areDigits_append.mp areDigits').1 same
    have unscaled : d.normalized.unscaled = d'.normalized.unscaled := by
      have magnitude := digits.symm.trans digits'
      omega
    have normal : d.normalized = d'.normalized := by
      rw [Decimal.mk.injEq]
      exact ⟨unscaled, length.symm.trans length'⟩
    rw [← value_normalized d, normal, value_normalized]

/-- Decimals are displayed alike just where they have one value. -/
theorem plain_eq_iff {d d' : Decimal} : d.plain = d'.plain ↔ d.value = d'.value :=
  ⟨value_eq_of_plain_eq, plain_eq_of_value_eq⟩

end Decimal

/-! ### Numbers -/

namespace Numeric

variable {left right : Numeric} {l r : Decimal}

/-- The display of a number whose value is an integer is read as a number of that value. -/
theorem parse?_display_of_integral {number : Int} (found : left.toDecimal? = some l)
    (integral : l.value = number) :
    ∃ again d, parse? left.display = some again ∧ again.toDecimal? = some d ∧
      d.value = number := by
  rw [display_of_toDecimal? found, Decimal.plain_of_value_eq integral, parse?_ofInt]
  split_ifs with short
  · obtain ⟨place, nearest, -, exact⟩ :=
      Decimal.exists_ofDouble (decide (number < 0)) (lt_trans short (by decide))
    rw [signed_natAbs] at exact
    exact ⟨_, _, rfl, by rw [nearest]; rfl, exact⟩
  · exact ⟨_, _, rfl, rfl, Decimal.value_ofInt number⟩

/-- The display of a number with digits after the point is read as the normal form of its
decimal. -/
theorem parse?_display_of_pointed (found : left.toDecimal? = some l)
    (pointed : 0 < l.normalized.scale) (few : l.normalized.scale ≤ maxExactDigits) :
    parse? left.display = some (.decimal l.normalized) := by
  obtain ⟨whole, fraction, areDigits, nonempty, length, same, text⟩ :=
    Decimal.plain_of_pointed pointed
  have bounded : fraction.length ≤ maxExactDigits := by omega
  rw [display_of_toDecimal? found, text, parse?_pointed areDigits nonempty same bounded, length]

/-- Finite numbers are displayed alike just where they are equal, and the display of a finite number
is read as a number that equals it, unless more digits stand after the point than are read. -/
theorem display_canonical (finite : left.isFinite = true) (finite' : right.isFinite = true) :
    (left.display = right.display ↔ left.numericEq right = true) ∧
      ∃ d, left.toDecimal? = some d ∧ (d.normalized.scale ≤ maxExactDigits →
        ∃ again, parse? left.display = some again ∧ again.numericEq left = true) := by
  obtain ⟨l, isLeft⟩ := exists_toDecimal? finite
  obtain ⟨r, isRight⟩ := exists_toDecimal? finite'
  constructor
  · rw [display_of_toDecimal? isLeft, display_of_toDecimal? isRight, Decimal.plain_eq_iff,
      numericEq_iff isLeft isRight]
  · refine ⟨l, isLeft, fun few => ?_⟩
    rcases l.integral_or_pointed with ⟨number, integral⟩ | pointed
    · obtain ⟨again, d, parsed, isAgain, same⟩ := parse?_display_of_integral isLeft integral
      exact ⟨again, parsed, (numericEq_iff isAgain isLeft).mpr (same.trans integral.symm)⟩
    · exact ⟨_, parse?_display_of_pointed isLeft pointed few,
        (numericEq_iff rfl isLeft).mpr (Decimal.value_normalized l)⟩

/-- A double beyond `2 ^ 53` and the integer of its shortest digits, which is not its value. -/
theorem display_canonical_of_large :
    let double := Numeric.double (.ofInt (2 ^ 60))
    let integer := Numeric.integer 1152921504606847000
    double.isFinite = true ∧ integer.isFinite = true ∧
      (double.display = integer.display ↔ double.numericEq integer = true) ∧
      ∃ d, double.toDecimal? = some d ∧ d.normalized.scale ≤ maxExactDigits ∧
        ∃ again, parse? double.display = some again ∧ again.numericEq double = true := by
  intro double integer
  have finite : double.isFinite = true := by decide +kernel
  have finite' : integer.isFinite = true := rfl
  obtain ⟨canonical, d, isDouble, read⟩ := display_canonical finite finite'
  have found : double.toDecimal? = some ⟨1152921504606847000, 0⟩ := by decide +kernel
  obtain rfl := Option.some_inj.mp (found.symm.trans isDouble)
  have few : (Decimal.mk 1152921504606847000 0).normalized.scale ≤ maxExactDigits := by
    decide +kernel
  exact ⟨finite, finite', canonical, _, isDouble, few, read few⟩

end Numeric

end TextTemplate
