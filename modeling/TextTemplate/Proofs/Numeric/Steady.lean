import TextTemplate.Proofs.Numeric.Spelling

/-! # Literals that keep their representation

A literal is read back from its spelling as a number that equals it. The number is the literal
itself when the literal is written the way its representation is spelled: a double as an integer of
at most fifteen digits, an integer with more digits, zeros in front not counted, and a decimal with
one digit after the point, or with more and no zero at their end. -/

namespace TextTemplate.Numeric

/-- Whether a literal keeps its representation when it is spelled and read again. -/
def IsSteady : Numeric → Prop
  | .double x => ∃ negative, ∃ number < 10 ^ 15,
      x = Double.nearest negative (number * Double.unitsPerOne) 1
  | .integer i => 10 ^ 15 ≤ i.natAbs
  | .decimal d => d.scale = 1 ∨ 1 < d.scale ∧ d.unscaled % 10 ≠ 0

/-- A decimal with digits after the point is the normal form of its value if no zero is at its
end. -/
theorem normalized_eq_self_iff {d : Decimal} (pointed : 0 < d.normalized.scale) :
    d.normalized = d ↔ IsSteady (.decimal d) := by
  obtain ⟨dropped, -, place, reduced⟩ :=
    Decimal.normalized_spec (Decimal.unscaled_ne_zero_of_pointed pointed)
  constructor
  · intro same
    rw [same] at reduced pointed
    rcases (show d.scale = 1 ∨ 1 < d.scale by omega) with one | more
    · exact .inl one
    · exact .inr ⟨more, reduced⟩
  · rintro (one | ⟨-, reduced'⟩)
    · exact Decimal.unscaled_eq_of_value_eq (by omega) (Decimal.value_normalized d)
    · exact Decimal.unscaled_eq_of_value_eq
        (le_antisymm (Decimal.scale_le_of_value_eq (Decimal.value_normalized d) reduced)
          (Decimal.scale_le_of_value_eq (Decimal.value_normalized d).symm reduced'))
        (Decimal.value_normalized d)

/-- A steady double has an integral value of at most fifteen digits. -/
theorem steady_double_iff {negative : Bool} {place : Fin Double.placeCount} :
    IsSteady (.double (.finite negative place)) ↔
      ∃ number : Int, number.natAbs < 10 ^ 15 ∧
        (Decimal.ofDouble negative place.val).value = number := by
  constructor
  · rintro ⟨sign, number, short, same⟩
    obtain ⟨place', nearest, -, exact⟩ := Decimal.exists_ofDouble sign (lt_trans short (by decide))
    rw [nearest] at same
    cases same
    exact ⟨_, by rwa [Decimal.natAbs_signed], exact⟩
  · rintro ⟨number, short, integral⟩
    rcases Nat.eq_zero_or_pos place.val with zero | nonzero
    · refine ⟨negative, 0, by decide, ?_⟩
      obtain ⟨_, bound⟩ := place
      subst zero
      rw [Nat.zero_mul]
      rfl
    · exact ⟨negative, _, short, (Decimal.nearest_eq_of_value nonzero (lt_trans short (by decide))
        integral).symm⟩

/-- The decimal that one without a fraction is read as is the decimal itself when it has one digit
after its point. -/
theorem integral_steady_iff {d : Decimal} {number : Int} (integral : d.value = number) :
    ⟨number * 10, 1⟩ = d ↔ IsSteady (.decimal d) := by
  have again : (⟨number * 10, 1⟩ : Decimal).value = d.value :=
    (Decimal.value_units number 1).trans integral.symm
  constructor
  · rintro rfl
    exact .inl rfl
  · rintro (one | ⟨more, reduced⟩)
    · exact Decimal.unscaled_eq_of_value_eq one.symm again
    · have scale := Decimal.scale_le_of_value_eq again.symm reduced
      simp only at scale
      omega

variable {value : Numeric} {d : Decimal}

/-- A number without a fraction is read back, as itself if it is steady. -/
theorem exists_respelled_of_integral {number : Int} (found : value.toDecimal? = some d)
    (integral : d.value = number) :
    ∃ again, Respelled value again ∧ (again = value ↔ value.IsSteady) := by
  cases value with
  | double x =>
      cases x with
      | finite negative place =>
          cases found
          rcases Nat.eq_zero_or_pos place.val with zero | nonzero
          · -- A zero is spelled with its sign, so each of the two is read back as it is.
            obtain ⟨_, bound⟩ := place
            subst zero
            refine ⟨_, respelled_zero negative bound, iff_of_true rfl ?_⟩
            exact steady_double_iff.mpr ⟨0, by decide, by simp [Decimal.value]⟩
          · by_cases short : number.natAbs < 10 ^ 15
            · refine ⟨_, respelled_double_short nonzero integral short, iff_of_true rfl ?_⟩
              exact steady_double_iff.mpr ⟨number, short, integral⟩
            · refine ⟨_, respelled_double_long nonzero integral short, ?_⟩
              rw [steady_double_iff]
              refine iff_of_false (by simp) ?_
              rintro ⟨other, few, same⟩
              rw [integral, Int.cast_inj] at same
              exact short (same ▸ few)
      | _ => cases found
  | integer i =>
      by_cases short : i.natAbs < 10 ^ 15
      · -- Without the zeros that stood in front of it, the integer is short enough for a double.
        obtain ⟨place, respelled⟩ := exists_respelled_short short
        exact ⟨_, respelled, iff_of_false (by simp) (Nat.not_le.mpr short)⟩
      · exact ⟨_, respelled_long short, iff_of_true rfl (Nat.not_lt.mp short)⟩
  | decimal _ =>
      cases found
      refine ⟨_, respelled_decimal integral, ?_⟩
      rw [Numeric.decimal.injEq]
      exact integral_steady_iff integral

/-- A number with digits after the point is read as a decimal, which is the number itself if that
is steady. -/
theorem normalized_eq_iff_steady (found : value.toDecimal? = some d)
    (pointed : 0 < d.normalized.scale) :
    .decimal d.normalized = value ↔ value.IsSteady := by
  cases value with
  | double x =>
      cases x with
      | finite negative place =>
          cases found
          refine iff_of_false (by simp) fun steady => ?_
          obtain ⟨number, -, integral⟩ := steady_double_iff.mp steady
          exact Decimal.not_integral_of_pointed pointed number integral
      | _ => cases found
  | integer i =>
      cases found
      exact absurd (Decimal.value_ofInt i) (Decimal.not_integral_of_pointed pointed i)
  | decimal _ =>
      cases found
      rw [Numeric.decimal.injEq]
      exact normalized_eq_self_iff pointed

/-- Every literal is read back from its spelling, as itself if it is steady. -/
theorem exists_respelled (literal : value.IsLiteral) :
    ∃ again, Respelled value again ∧ (again = value ↔ value.IsSteady) := by
  obtain ⟨d, found, few⟩ := toDecimal?_of_isLiteral literal
  rcases d.integral_or_pointed with ⟨number, integral⟩ | pointed
  · exact exists_respelled_of_integral found integral
  · exact ⟨_, respelled_of_pointed found few pointed, normalized_eq_iff_steady found pointed⟩

/-- A literal is read back as itself exactly when it is steady. -/
theorem respelled_self_iff (literal : value.IsLiteral) :
    Respelled value value ↔ value.IsSteady := by
  obtain ⟨again, respelled, same⟩ := exists_respelled literal
  rw [← same]
  constructor
  · exact fun self => respelled.unique self
  · rintro rfl
    exact respelled

end TextTemplate.Numeric
