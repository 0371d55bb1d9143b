import TextTemplate.Proofs.Decimal.Value
import TextTemplate.Proofs.Double.Nearest

/-! # The decimals of doubles

The decimal of a double lies in the rounding interval of the double. Where it is an integer of at
most 53 binary digits, it is the double's own value, and the double is the one that the integer is
rounded to. -/

namespace TextTemplate.Decimal

/-! ### Signs -/

/-- The sign stays in front of zeros that are put behind a number. -/
theorem signed_mul_tenPow (negative : Bool) (magnitude exponent : Nat) :
    Double.signed negative magnitude * tenPow exponent =
      Double.signed negative (magnitude * Nat.pow 10 exponent) := by
  unfold Double.signed tenPow
  split
  · rw [Int.neg_mul, Int.natCast_mul]
  · rw [Int.natCast_mul]

@[simp] theorem natAbs_signed (negative : Bool) (magnitude : Nat) :
    (Double.signed negative magnitude).natAbs = magnitude := by
  unfold Double.signed
  split
  · rw [Int.natAbs_neg, Int.natAbs_natCast]
  · rw [Int.natAbs_natCast]

/-- A signed number is below zero if its sign says so and it is not zero. -/
theorem signed_neg_iff {negative : Bool} {magnitude : Nat} :
    Double.signed negative magnitude < 0 ↔ negative = true ∧ 0 < magnitude := by
  cases negative <;> simp only [Double.signed] <;> simp

/-! ### Values -/

@[simp] theorem ofDouble_zero (negative : Bool) : ofDouble negative 0 = ⟨0, 0⟩ := by
  cases negative <;> rfl

/-- Moving the point of an integer by places of decimal units. -/
theorem value_units (number : Int) (units : Nat) :
    value ⟨number * tenPow units, units⟩ = number := by
  have moved := value_mul_tenPow number 0 units
  rw [zero_add] at moved
  rw [moved]
  exact value_ofInt number

/-- Digits on a grid of decimal units, with the zeros that the grid leaves off before the point or
the scale that it has after it. -/
theorem value_shifted (negative : Bool) (digits step units : Nat) :
    value ⟨Double.signed negative (digits * Nat.pow 10 ((step : Int) - units).toNat),
        max (-((step : Int) - units)) 0⟩ =
      value ⟨Double.signed negative (digits * Nat.pow 10 step), units⟩ := by
  rcases Nat.le_total units step with coarse | fine
  · obtain ⟨zeros, rfl⟩ := Nat.exists_eq_add_of_le' coarse
    have exponent : ((zeros + units : Nat) - (units : Int)).toNat = zeros ∧
        max (-((zeros + units : Nat) - (units : Int))) 0 = 0 := by
      omega
    have moved := value_mul_tenPow (Double.signed negative (digits * Nat.pow 10 zeros)) 0 units
    rw [signed_mul_tenPow, Nat.mul_assoc, zero_add] at moved
    rw [exponent.1, exponent.2, ← moved]
    simp only [Nat.pow_eq, pow_add]
  · obtain ⟨scale, rfl⟩ := Nat.exists_eq_add_of_le fine
    have exponent : ((step : Int) - (step + scale : Nat)).toNat = 0 ∧
        max (-((step : Int) - (step + scale : Nat))) 0 = scale ∧
        ((step + scale : Nat) : Int) = scale + step := by
      omega
    have moved := value_mul_tenPow (Double.signed negative digits) scale step
    rw [signed_mul_tenPow, ← exponent.2.2] at moved
    rw [exponent.1, exponent.2.1, moved]
    simp only [Nat.pow_eq, pow_zero, mul_one]

/-- An integer's number of decimal units. -/
theorem units_of_value {negative : Bool} {decimal units : Nat} {number : Int}
    (same : value ⟨Double.signed negative decimal, units⟩ = number) :
    decimal = number.natAbs * Nat.pow 10 units := by
  rw [← value_units number units] at same
  have digits := congrArg Decimal.unscaled (unscaled_eq_of_value_eq (by rfl) same)
  have magnitude := congrArg Int.natAbs digits
  rwa [natAbs_signed, Int.natAbs_mul, natAbs_tenPow, ← Nat.pow_eq] at magnitude

/-- The decimal of a double is in its rounding interval. -/
theorem ofDouble_spec (negative : Bool) {place : Nat} (positive : 0 < place) :
    ∃ decimal, 0 < decimal ∧ Double.roundsTo place decimal = true ∧
      (ofDouble negative place).value = value ⟨Double.signed negative decimal, (1074 : Nat)⟩ := by
  have rounds := Double.roundsTo_firstGridPoint .up positive (Double.coarsestStep place)
  obtain ⟨digits, step, found, same⟩ := Double.shortest_of_pos .up positive
  rw [found] at rounds
  refine ⟨digits * Nat.pow 10 step, Double.pos_of_roundsTo positive rounds, rounds, ?_⟩
  clear found rounds
  simp only [ofDouble, same]
  exact value_shifted negative digits step 1074

/-- The decimal of a double has at most as many digits after the point as decimal units have. -/
theorem scale_ofDouble (negative : Bool) (place : Nat) :
    0 ≤ (ofDouble negative place).scale ∧ (ofDouble negative place).scale ≤ 1074 := by
  rcases Nat.eq_zero_or_pos place with rfl | positive
  · rw [ofDouble_zero]
    decide
  · obtain ⟨digits, step, -, same⟩ := Double.shortest_of_pos .up positive
    simp only [ofDouble, same]
    omega

/-- The digits of a double are below zero if its sign says so and it is not zero. -/
theorem unscaled_ofDouble_neg_iff {negative : Bool} {place : Nat} :
    (ofDouble negative place).unscaled < 0 ↔ negative = true ∧ 0 < place := by
  rcases Nat.eq_zero_or_pos place with rfl | positive
  · rw [ofDouble_zero]
    simp
  · obtain ⟨decimal, nonzero, -, same⟩ := ofDouble_spec negative positive
    rw [← value_neg_iff, same, value_neg_iff]
    simp only [signed_neg_iff, nonzero, positive]

/-! ### Integers -/

/-- The double that an integer of at most 53 binary digits is rounded to has the integer's value. -/
theorem exists_ofDouble (negative : Bool) {number : Nat} (small : number < 2 ^ 53) :
    ∃ place : Fin Double.placeCount,
      Double.nearest negative (number * Double.unitsPerOne) 1 = .finite negative place ∧
        (0 < place.val ↔ 0 < number) ∧
        (ofDouble negative place.val).value = Double.signed negative number := by
  rcases Nat.eq_zero_or_pos number with rfl | positive
  · refine ⟨⟨0, by decide⟩, ?_, by simp, ?_⟩
    · rw [Nat.zero_mul]
      rfl
    · rw [ofDouble_zero]
      cases negative <;> simp [value, Double.signed]
  · obtain ⟨place, nonzero, bounded, short, magnitude, nearest⟩ :=
      Double.exists_place positive small
    obtain ⟨digits, zeros, shortest, exact⟩ :=
      Double.shortest_of_nat .up positive short magnitude
    refine ⟨⟨place, bounded⟩, ?_, by simp [nonzero, positive], ?_⟩
    · rw [Double.nearest, nearest, Double.ofPlace, dif_pos bounded]
    · have whole : max (-(zeros : Int)) 0 = 0 := by omega
      have integer := value_ofInt (Double.signed negative number)
      simp only [ofDouble, shortest, Int.toNat_natCast, Nat.pow_eq, exact, whole]
      exact integer

/-- A double whose decimal is an integer of at most 53 binary digits is the one that the integer is
rounded to. -/
theorem nearest_eq_of_value {negative : Bool} {place : Fin Double.placeCount} {number : Int}
    (positive : 0 < place.val) (small : number.natAbs < 2 ^ 53)
    (same : (ofDouble negative place.val).value = number) :
    Double.nearest negative (number.natAbs * Double.unitsPerOne) 1 = .finite negative place := by
  obtain ⟨decimal, nonzero, rounds, spec⟩ := ofDouble_spec negative positive
  rw [spec] at same
  have units := units_of_value same
  have magnitude : 0 < number.natAbs := by
    rcases Nat.eq_zero_or_pos number.natAbs with zero | magnitude
    · rw [units, zero, Nat.zero_mul] at nonzero
      exact absurd nonzero (Nat.lt_irrefl 0)
    · exact magnitude
  obtain ⟨other, -, bounded, -, exact, nearest⟩ := Double.exists_place magnitude small
  rw [units, ← Double.decimalUnitsAt_of_nat exact] at rounds
  have isPlace := Double.place_eq_of_roundsTo rounds
  rw [Double.nearest, nearest, Double.ofPlace, dif_pos bounded]
  simp only [isPlace]

end TextTemplate.Decimal
