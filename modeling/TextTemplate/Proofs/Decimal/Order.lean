import Mathlib.Order.Compare
import Mathlib.Tactic.Linarith
import TextTemplate.Proofs.Decimal.Rounded

/-! # The order of doubles is that of their decimals

The rounding intervals of two doubles share no number, not even where they meet: the end of an
interval belongs to the double with the even place, and neighbours are not both even. The decimals
of doubles, each of which lies in the interval of its double, therefore come in the order of the
doubles. -/

namespace TextTemplate

namespace Double

/-- Rounding intervals of different doubles lie one after the other. -/
theorem lt_of_roundsTo {place place' decimal decimal' : Nat} (less : place < place')
    (rounds : roundsTo place decimal = true) (rounds' : roundsTo place' decimal' = true) :
    decimal < decimal' := by
  rcases Nat.lt_or_ge (place + 1) place' with apart | next
  · -- A whole place lies between the two.
    have above := (roundsTo_bounds rounds).2
    have below := (roundsTo_bounds rounds').1
    have first := decimalUnitsAt_strictMono.monotone (Nat.le_sub_one_of_lt less)
    have second := decimalUnitsAt_strictMono apart
    omega
  · obtain rfl : place' = place + 1 := by omega
    -- The intervals meet in the middle, and only one of the places is even.
    simp only [roundsTo, Nat.add_sub_cancel] at rounds rounds'
    rcases Nat.mod_two_eq_zero_or_one place with even | odd
    · have next : (place + 1) % 2 ≠ 0 := by omega
      rw [if_pos even] at rounds
      rw [if_neg next] at rounds'
      simp only [Bool.and_eq_true, decide_eq_true_eq] at rounds rounds'
      omega
    · have next : place % 2 ≠ 0 := by omega
      rw [if_neg next] at rounds
      simp only [Bool.and_eq_true, decide_eq_true_eq] at rounds
      have below : decimalUnitsAt place + decimalUnitsAt (place + 1) ≤ 2 * decimal' := by
        split at rounds' <;> simp only [Bool.and_eq_true, decide_eq_true_eq] at rounds' <;> omega
      omega

/-! ### Signed places -/

/-- Whether a double stands before another one, by their signs and places. The zeros of both signs
stand in one place. -/
def StandsBefore : Bool → Nat → Bool → Nat → Prop
  | false, place, false, place' => place < place'
  | true, place, true, place' => place' < place
  | true, place, false, place' => 0 < place ∨ 0 < place'
  | false, _, true, _ => False

/-- Magnitudes that begin with zero and grow from place to place come in the order of the doubles
when they are given signs. -/
theorem signed_lt_iff {α : Type*} [AddCommGroup α] [LinearOrder α] [IsOrderedAddMonoid α]
    {magnitude : Nat → α} (grows : StrictMono magnitude) (zero : magnitude 0 = 0)
    {negative negative' : Bool} {place place' : Nat} :
    (if negative then -magnitude place else magnitude place) <
        (if negative' then -magnitude place' else magnitude place') ↔
      StandsBefore negative place negative' place' := by
  have nonneg (place : Nat) : 0 ≤ magnitude place := zero ▸ grows.monotone place.zero_le
  have pos_iff {place : Nat} : 0 < magnitude place ↔ 0 < place := by
    rw [← grows.lt_iff_lt, zero]
  cases negative <;> cases negative'
  · simpa [StandsBefore] using grows.lt_iff_lt
  · simpa [StandsBefore] using (neg_nonpos.mpr (nonneg place')).trans (nonneg place)
  · simp only [StandsBefore, if_true, Bool.false_eq_true, if_false, ← pos_iff]
    constructor
    · intro less
      by_contra! none
      rw [le_antisymm none.1 (nonneg place), le_antisymm none.2 (nonneg place'), neg_zero] at less
      exact lt_irrefl 0 less
    · rintro (some | some)
      · exact (neg_neg_of_pos some).trans_le (nonneg place')
      · exact (neg_nonpos.mpr (nonneg place)).trans_lt some
  · simpa [StandsBefore] using grows.lt_iff_lt

end Double

namespace Decimal

/-! ### Decimals of doubles -/

/-- The decimal of a positive double in decimal units. -/
theorem exists_units {place : Nat} (positive : 0 < place) :
    ∃ decimal : Nat, 0 < decimal ∧ Double.roundsTo place decimal = true ∧
      (ofDouble false place).value = decimal * 10 ^ (-(1074 : Nat) : ℤ) := by
  obtain ⟨decimal, some, rounds, same⟩ := ofDouble_spec false positive
  exact ⟨decimal, some, rounds, same⟩

/-- The decimals of positive doubles come in the order of the doubles. -/
theorem value_ofDouble_strictMono : StrictMono fun place => (ofDouble false place).value := by
  intro place place' less
  have unit : 0 < (10 : ℚ) ^ (-(1074 : Nat) : ℤ) := zpow_pos (by norm_num) _
  obtain ⟨decimal', some', rounds', same'⟩ :=
    exists_units (Nat.lt_of_le_of_lt (Nat.zero_le place) less)
  beta_reduce
  rw [same']
  rcases Nat.eq_zero_or_pos place with rfl | positive
  · rw [ofDouble_zero, value, Int.cast_zero, zero_mul]
    exact mul_pos (Nat.cast_pos.mpr some') unit
  · obtain ⟨decimal, -, rounds, same⟩ := exists_units positive
    rw [same]
    exact mul_lt_mul_of_pos_right
      (Nat.cast_lt.mpr (Double.lt_of_roundsTo less rounds rounds')) unit

/-- The decimal of a double has the double's sign. -/
theorem value_ofDouble (negative : Bool) (place : Nat) :
    (ofDouble negative place).value =
      if negative then -(ofDouble false place).value else (ofDouble false place).value := by
  cases negative
  · rfl
  · simp [ofDouble, value, Double.signed]

/-- Finite doubles come in the order of their decimals. -/
theorem signed_unitsAt_lt_iff (negative negative' : Bool) (place place' : Nat) :
    Double.signed negative (Double.unitsAt place) <
        Double.signed negative' (Double.unitsAt place') ↔
      (ofDouble negative place).value < (ofDouble negative' place').value := by
  have grows : StrictMono fun place => (Double.unitsAt place : ℤ) :=
    fun _ _ less => Int.ofNat_lt.mpr (Double.unitsAt_strictMono less)
  have zero : (Double.unitsAt 0 : ℤ) = 0 :=
    congrArg _ (Double.unitsAt_of_lt (Nat.pow_pos (by decide)))
  have zero' : (ofDouble false 0).value = 0 := by
    rw [ofDouble_zero, value, Int.cast_zero, zero_mul]
  rw [value_ofDouble, value_ofDouble negative', Double.signed, Double.signed,
    Double.signed_lt_iff grows zero, Double.signed_lt_iff value_ofDouble_strictMono zero']

/-- Finite doubles compare as their decimals do. -/
theorem compare?_finite (negative negative' : Bool) (place place' : Fin Double.placeCount) :
    (Double.finite negative place).compare? (.finite negative' place') =
      some (cmp (ofDouble negative place.val).value (ofDouble negative' place'.val).value) := by
  rw [Double.compare?, ← cmp_eq_compare, Option.some_inj]
  simp only [cmp, cmpUsing, signed_unitsAt_lt_iff]

end Decimal

end TextTemplate
