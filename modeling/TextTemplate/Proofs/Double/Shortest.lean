import Mathlib.Data.Nat.ModEq
import TextTemplate.Double.Shortest

/-! # Shortest digits round to their double

Magnitudes grow from place to place, so every double lies in its own rounding interval and in no
other's. The search for the shortest digits therefore always ends with digits that round to the
double. -/

namespace TextTemplate.Double

/-! ### Magnitudes -/

/-- The first places are the subnormal ones, which are one unit apart. -/
theorem unitsAt_of_lt {place : Nat} (small : place < Nat.pow 2 52) : unitsAt place = place := by
  rw [unitsAt, if_pos small]

/-- A place behind them has 53 binary digits, and zeros for the block that it lies in. -/
theorem unitsAt_of_ge {place : Nat} (large : Nat.pow 2 52 ≤ place) :
    unitsAt place =
      (Nat.pow 2 52 + place % Nat.pow 2 52) * Nat.pow 2 (place / Nat.pow 2 52 - 1) := by
  rw [unitsAt, if_neg (by omega)]

/-- The places of a block are one step apart, and the first place of the next block as well. -/
theorem step_eq {size place : Nat} (positive : 0 < size) (large : size ≤ place) :
    (size + (place + 1) % size) * Nat.pow 2 ((place + 1) / size - 1) =
      (size + place % size) * Nat.pow 2 (place / size - 1) + Nat.pow 2 (place / size - 1) := by
  have blocks : 1 ≤ place / size := Nat.div_pos large positive
  have bound := Nat.mod_lt place positive
  have split := Nat.div_add_mod place size
  by_cases inside : place % size + 1 < size
  · -- The next place lies in the same block.
    have step : (place + 1) / size = place / size ∧ (place + 1) % size = place % size + 1 := by
      rw [Nat.div_mod_unique positive]
      exact ⟨by omega, inside⟩
    rw [step.1, step.2, ← Nat.add_assoc, Nat.succ_mul]
  · -- The next place is the first one of the next block.
    have step : (place + 1) / size = place / size + 1 ∧ (place + 1) % size = 0 := by
      rw [Nat.div_mod_unique positive, Nat.mul_add, Nat.mul_one]
      exact ⟨by omega, positive⟩
    have power : Nat.pow 2 (place / size + 1 - 1) = 2 * Nat.pow 2 (place / size - 1) := by
      rw [Nat.pow_eq, Nat.pow_eq, ← Nat.pow_succ']
      congr 1
      omega
    have last : place % size + 1 = size := by omega
    rw [step.1, step.2, power, Nat.add_zero, ← Nat.mul_assoc, ← Nat.succ_mul]
    congr 1
    omega

/-- The step from a place to the next one. -/
theorem unitsAt_succ (place : Nat) :
    unitsAt (place + 1) = unitsAt place + Nat.pow 2 (place / Nat.pow 2 52 - 1) := by
  have positive : 0 < Nat.pow 2 52 := by decide
  have small := @unitsAt_of_lt
  have large := @unitsAt_of_ge
  generalize Nat.pow 2 52 = size at *
  by_cases inside : place + 1 < size
  · have block : place / size - 1 = 0 := by rw [Nat.div_eq_of_lt (by omega)]
    rw [small inside, small (by omega), block, Nat.pow_eq, Nat.pow_zero]
  by_cases first : place < size
  · have same : place + 1 = size := by omega
    have block : place / size - 1 = 0 := by rw [Nat.div_eq_of_lt first]
    rw [small first, large same.ge, same, Nat.mod_self, Nat.div_self positive, block]
    simp only [Nat.sub_self, Nat.pow_eq, Nat.pow_zero]
    omega
  · rw [large (by omega), large (by omega)]
    exact step_eq positive (by omega)

/-- Each place has a larger magnitude than the one before. -/
theorem unitsAt_lt_succ (place : Nat) : unitsAt place < unitsAt (place + 1) := by
  rw [unitsAt_succ]
  exact Nat.lt_add_of_pos_right (Nat.pow_pos (by decide))

/-- Places are in the order of their magnitudes. -/
theorem unitsAt_strictMono : StrictMono unitsAt := strictMono_nat_of_lt_succ unitsAt_lt_succ

/-- The same holds of the magnitudes in decimal units. -/
theorem decimalUnitsAt_strictMono : StrictMono decimalUnitsAt := by
  intro place place' less
  rw [decimalUnitsAt, decimalUnitsAt]
  -- The factor is a large number, and must not be calculated.
  generalize 1074 = exponent
  exact Nat.mul_lt_mul_of_pos_right (unitsAt_strictMono less) (Nat.pow_pos (by decide))

/-! ### Rounding intervals -/

/-- The ends of a rounding interval. -/
theorem roundsTo_bounds {place decimal : Nat} (rounds : roundsTo place decimal = true) :
    decimalUnitsAt (place - 1) + decimalUnitsAt place ≤ 2 * decimal ∧
      2 * decimal ≤ decimalUnitsAt place + decimalUnitsAt (place + 1) := by
  simp only [roundsTo] at rounds
  split at rounds
  all_goals
    simp only [Bool.and_eq_true, decide_eq_true_eq] at rounds
    omega

/-- What rounds to a double other than zero is not zero. -/
theorem pos_of_roundsTo {place decimal : Nat} (positive : 0 < place)
    (rounds : roundsTo place decimal = true) : 0 < decimal := by
  have below := (roundsTo_bounds rounds).1
  have larger := decimalUnitsAt_strictMono positive
  omega

/-- A double rounds to itself. -/
theorem roundsTo_self {place : Nat} (positive : 0 < place) :
    roundsTo place (decimalUnitsAt place) = true := by
  have below := decimalUnitsAt_strictMono (Nat.sub_lt positive Nat.one_pos)
  have above := decimalUnitsAt_strictMono (Nat.lt_add_one place)
  simp only [roundsTo]
  split
  all_goals
    simp only [Bool.and_eq_true, decide_eq_true_eq]
    omega

/-! ### The search -/

/-- A candidate rounds to the double. -/
theorem roundsTo_of_gridPoint? {tie : Tie} {place step digits : Nat}
    (found : gridPoint? tie place step = some digits) :
    roundsTo place (digits * Nat.pow 10 step) = true := by
  unfold gridPoint? at found
  extract_lets grid lower remainder lowerFits upperFits upper at found
  -- A neighbour on the grid is only taken when it fits.
  split at found
  next both =>
    obtain ⟨below, above⟩ := Bool.and_eq_true_iff.mp both
    rw [Option.some.injEq] at found
    rw [← found]
    split
    · exact above
    · exact below
  next =>
    split at found
    next below =>
      rw [← Option.some.inj found]
      exact below
    next =>
      split at found
      next above =>
        rw [← Option.some.inj found]
        exact above
      next => cases found

/-- The search ends with digits that round to the double. -/
theorem roundsTo_firstGridPoint (tie : Tie) {place : Nat} (positive : 0 < place) (start : Nat) :
    roundsTo place ((firstGridPoint tie place start).1 *
      Nat.pow 10 (firstGridPoint tie place start).2) = true := by
  induction start with
  | zero =>
      rw [firstGridPoint, Nat.pow_eq, Nat.pow_zero, Nat.mul_one]
      exact roundsTo_self positive
  | succ start ih =>
      rw [firstGridPoint]
      split
      next digits found => exact roundsTo_of_gridPoint? found
      next => exact ih

/-- The shortest digits are the ones that the search ends with. -/
theorem shortest_of_pos (tie : Tie) {place : Nat} (positive : 0 < place) :
    ∃ digits step, firstGridPoint tie place (coarsestStep place) = (digits, step) ∧
      shortest tie place = (digits, (step : Int) - 1074) := by
  unfold shortest
  rw [if_neg (by omega)]
  generalize firstGridPoint tie place (coarsestStep place) = found
  obtain ⟨digits, step⟩ := found
  exact ⟨digits, step, rfl, rfl⟩

/-- The shortest digits of a double other than zero are not zero. -/
theorem shortest_pos (tie : Tie) {place : Nat} (positive : 0 < place) :
    0 < (shortest tie place).1 := by
  have rounds := roundsTo_firstGridPoint tie positive (coarsestStep place)
  obtain ⟨digits, step, found, same⟩ := shortest_of_pos tie positive
  rw [found] at rounds
  rw [same]
  exact Nat.pos_of_mul_pos_right (pos_of_roundsTo positive rounds)

end TextTemplate.Double
