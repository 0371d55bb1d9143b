import TextTemplate.Proofs.Json.Strings
import TextTemplate.Proofs.Numeric.Displays
import TextTemplate.Proofs.Numeric.Exact
import TextTemplate.Value.Data

/-! # Numbers written as JSON

A finite number is displayed as JSON spells numbers. What is read from its display has the same
value and the same display, although it may be in another representation. -/

namespace TextTemplate

/-! ### Displays are numbers of JSON -/

namespace Decimal

/-- Digits with a point among them are a number without a needless zero in front. -/
theorem isUnsigned_plainDigits {number : Nat} (positive : 0 < number) {scale : Int}
    (pointed : 0 < scale) : Json.IsUnsigned (plainDigits (Digits.ofNat number) scale) := by
  obtain ⟨whole, fraction, zeros, text, nonempty, length, padded, few⟩ :=
    plainDigits_of_pos (Digits.ofNat number) pointed
  have areDigits : Digits.AreDigits (whole ++ fraction) := by
    rw [padded]
    simp [Digits.areDigits_ofNat]
  obtain ⟨wholeDigits, fractionDigits⟩ := Digits.areDigits_append.mp areDigits
  refine ⟨whole, '.' :: fraction, [], ?_, by rw [List.append_nil, text]⟩
  refine ⟨.inl rfl, wholeDigits, nonempty, ?_, .digits fractionDigits ?_, .none⟩
  · -- With more than one digit before the point, no zeros have been put in front.
    intro isZero
    by_contra several
    have total := congrArg List.length padded
    have some := List.length_pos_of_ne_nil nonempty
    rw [List.length_append, List.length_append, List.length_replicate] at total
    have none : zeros = 0 := by omega
    rw [none, List.replicate_zero, List.nil_append] at padded
    refine Digits.head?_ofNat positive ?_
    rw [← padded, List.head?_append, isZero]
    rfl
  · rintro rfl
    simp only [List.length_nil] at length
    omega

end Decimal

namespace Numeric

/-- The display of a finite number is a number of JSON. -/
theorem isNumber_display {value : Numeric} {d : Decimal} (found : value.toDecimal? = some d) :
    Json.IsNumber value.display := by
  have signed (unscaled : Int) {text : List Char} (unsigned : Json.IsUnsigned text) :
      Json.IsNumber (Decimal.withSign unscaled text) := by
    unfold Decimal.withSign
    split
    · exact unsigned.minus
    · exact unsigned.isNumber
  rw [display_of_toDecimal? found]
  rcases d.integral_or_pointed with ⟨number, integral⟩ | pointed
  · rw [Decimal.plain_of_value_eq integral, ofInt_eq, ← withSign_eq]
    exact signed number (Json.isUnsigned_ofNat _)
  · have nonzero : d.normalized.unscaled ≠ 0 := by
      obtain ⟨-, -, -, reduced⟩ :=
        Decimal.normalized_spec (Decimal.unscaled_ne_zero_of_pointed pointed)
      intro zero
      rw [zero] at reduced
      exact reduced rfl
    exact signed _ (Decimal.isUnsigned_plainDigits (Int.natAbs_pos.mpr nonzero) pointed)

/-! ### Displays are read back -/

/-- A finite number that is read from a spelling is a literal. -/
theorem isLiteral_ofSpelling {spelling : List Char}
    (finite : (ofSpelling spelling).isFinite = true) : (ofSpelling spelling).IsLiteral := by
  unfold ofSpelling at finite ⊢
  split at finite
  next value parsed => exact isLiteral_of_parse? parsed finite
  next =>
    split at finite
    next => exact finite
    next => exact finite

/-- What is read from the display of a literal has the literal's value. -/
theorem value?_ofSpelling_display {value : Numeric} (literal : value.IsLiteral) :
    (ofSpelling value.display).value? = value.value? := by
  obtain ⟨d, found, few⟩ := toDecimal?_of_isLiteral literal
  rw [value?, value?, found, ofSpelling]
  rcases d.integral_or_pointed with ⟨number, integral⟩ | pointed
  · obtain ⟨again, d', parsed, found', same⟩ := parse?_display_of_integral found integral
    simp [parsed, found', same, integral]
  · obtain ⟨dropped, -, place, -⟩ :=
      Decimal.normalized_spec (Decimal.unscaled_ne_zero_of_pointed pointed)
    have few : d.normalized.scale ≤ maxExactDigits := by
      have bound : maxExactDigits = 10000 := rfl
      omega
    simp [parse?_display_of_pointed found pointed few, toDecimal?]

/-- What is read from the display of a literal is finite, displayed alike and equal to it. -/
theorem ofSpelling_display {value : Numeric} (literal : value.IsLiteral) :
    (ofSpelling value.display).isFinite = true ∧
      (ofSpelling value.display).display = value.display ∧
      (ofSpelling value.display).numericEq value = true ∧
      value.numericEq (ofSpelling value.display) = true := by
  obtain ⟨d, found, -⟩ := toDecimal?_of_isLiteral literal
  have value := value?_ofSpelling_display literal
  rw [value?, value?, found] at value
  obtain ⟨again, foundAgain, same⟩ := Option.map_eq_some_iff.mp value
  refine ⟨isFinite_of_toDecimal? foundAgain, ?_, (numericEq_iff foundAgain found).mpr same,
    (numericEq_iff found foundAgain).mpr same.symm⟩
  rw [display_of_toDecimal? foundAgain, display_of_toDecimal? found]
  exact Decimal.plain_eq_of_value_eq same

end Numeric

end TextTemplate
