import TextTemplate.Double.Text
import TextTemplate.Proofs.Double.Shortest

/-! # Integers that are doubles

A number of at most 53 binary digits is a double as it stands: rounding finds its place, and its
shortest digits spell it exactly. -/

namespace TextTemplate.Double

/-! ### Places of integers -/

/-- The place in a block of magnitudes of 53 binary digits. -/
theorem unitsAt_block {whole : Nat} (block : Nat) (low : 2 ^ 52 ≤ whole) (high : whole < 2 ^ 53) :
    unitsAt (whole + block * 2 ^ 52) = whole * 2 ^ block := by
  have split : (whole + block * 2 ^ 52) / 2 ^ 52 = block + 1 ∧
      (whole + block * 2 ^ 52) % 2 ^ 52 = whole - 2 ^ 52 := by
    omega
  rw [unitsAt_of_ge (by simp only [Nat.pow_eq]; omega)]
  simp only [Nat.pow_eq]
  rw [split.1, split.2, Nat.add_sub_cancel, Nat.add_sub_cancel' low]

/-- A magnitude of 53 binary digits is rounded to its own place. -/
theorem nearestPlace_block {whole : Nat} (block : Nat) (low : 2 ^ 52 ≤ whole)
    (high : whole < 2 ^ 53) : nearestPlace (whole * 2 ^ block) 1 = whole + block * 2 ^ 52 := by
  have power : 0 < 2 ^ block := Nat.pow_pos (by decide)
  have bits : Nat.log2 (whole * 2 ^ block) = 52 + block := by
    rw [Nat.log2_eq_iff (Nat.mul_pos (by omega) power).ne']
    constructor
    · rw [pow_add]
      exact Nat.mul_le_mul_right _ low
    · rw [show 52 + block + 1 = 53 + block by omega, pow_add]
      exact Nat.mul_lt_mul_of_pos_right high power
  unfold nearestPlace
  simp only [Nat.div_one, bits, Nat.add_sub_cancel_left, Nat.pow_eq, Nat.one_mul]
  rw [roundHalfEven, Nat.mul_div_cancel _ power, Nat.mul_mod_left, Nat.mul_zero, if_pos power]

/-- An integer of at most 53 binary digits is a magnitude of 53 binary digits in one of the blocks
around one. -/
theorem block_of_nat {number : Nat} (positive : 0 < number) (small : number < 2 ^ 53) :
    ∃ whole block, 2 ^ 52 ≤ whole ∧ whole < 2 ^ 53 ∧ block < 1075 ∧
      number * unitsPerOne = whole * 2 ^ block := by
  obtain ⟨low, high⟩ := (Nat.log2_eq_iff positive.ne').mp rfl
  have bits : Nat.log2 number < 53 := (Nat.log2_lt positive.ne').mpr small
  generalize Nat.log2 number = log at low high bits
  unfold unitsPerOne
  generalize units : 1074 = exponent
  refine ⟨number * 2 ^ (52 - log), log + exponent - 52, ?_, ?_, by omega, ?_⟩
  · calc 2 ^ 52 = 2 ^ log * 2 ^ (52 - log) := by rw [← pow_add]; congr 1; omega
      _ ≤ number * 2 ^ (52 - log) := Nat.mul_le_mul_right _ low
  · calc number * 2 ^ (52 - log) < 2 ^ (log + 1) * 2 ^ (52 - log) :=
          Nat.mul_lt_mul_of_pos_right high (Nat.pow_pos (by decide))
      _ = 2 ^ 53 := by rw [← pow_add]; congr 1; omega
  · rw [Nat.pow_eq, mul_assoc, ← pow_add]
    congr 2
    omega

/-- An integer of at most 53 binary digits has a place, which rounding finds. -/
theorem exists_place {number : Nat} (positive : 0 < number) (small : number < 2 ^ 53) :
    ∃ place, 0 < place ∧ place < placeCount ∧ place / 2 ^ 52 ≤ 1075 ∧
      unitsAt place = number * unitsPerOne ∧
      nearestPlace (number * unitsPerOne) 1 = place := by
  obtain ⟨whole, block, low, high, few, same⟩ := block_of_nat positive small
  refine ⟨whole + block * 2 ^ 52, by omega, ?_, by omega, ?_, ?_⟩
  · simp only [placeCount, Nat.pow_eq]
    omega
  · rw [unitsAt_block block low high, same]
  · rw [same, nearestPlace_block block low high]

/-! ### Rounding intervals of integers -/

/-- A power of ten is one of two times one of five. -/
theorem pow_ten (exponent : Nat) :
    Nat.pow 10 exponent = Nat.pow 2 exponent * Nat.pow 5 exponent := by
  simp only [Nat.pow_eq]
  rw [← Nat.mul_pow]

/-- Around the integers of 53 binary digits places lie no further apart than integers. -/
theorem decimalUnitsAt_succ_le {place : Nat} (short : place / Nat.pow 2 52 ≤ 1075) :
    decimalUnitsAt (place + 1) ≤ decimalUnitsAt place + Nat.pow 10 1074 := by
  have few : place / Nat.pow 2 52 - 1 ≤ 1074 := by omega
  rw [decimalUnitsAt, decimalUnitsAt, unitsAt_succ, Nat.add_mul, pow_ten]
  generalize 1074 = bits at few
  exact Nat.add_le_add_left
    (Nat.mul_le_mul_right _ (Nat.pow_le_pow_right (by decide) few)) _

/-- What rounds to a double among the integers of 53 binary digits lies less than one away. -/
theorem near_of_roundsTo {place decimal : Nat} (short : place / Nat.pow 2 52 ≤ 1075)
    (rounds : roundsTo place decimal = true) :
    decimal < decimalUnitsAt place + Nat.pow 10 1074 ∧
      decimalUnitsAt place < decimal + Nat.pow 10 1074 := by
  obtain ⟨low, high⟩ := roundsTo_bounds rounds
  have above := decimalUnitsAt_succ_le short
  have below : place = 0 ∨
      decimalUnitsAt place ≤ decimalUnitsAt (place - 1) + Nat.pow 10 1074 := by
    cases place with
    | zero => exact Or.inl rfl
    | succ place =>
        exact Or.inr
          (decimalUnitsAt_succ_le (le_trans (Nat.div_le_div_right (Nat.le_succ _)) short))
  have larger := decimalUnitsAt_strictMono (Nat.lt_add_one place)
  -- The distance is a large number, and must not be calculated.
  generalize Nat.pow 10 1074 = one at *
  rcases below with rfl | below
  · rw [Nat.zero_sub] at low
    omega
  · omega

/-- A decimal that rounds to one double and is another one's magnitude is of one place. -/
theorem place_eq_of_roundsTo {place other : Nat}
    (rounds : roundsTo place (decimalUnitsAt other) = true) : other = place := by
  obtain ⟨low, high⟩ := roundsTo_bounds rounds
  rcases Nat.lt_trichotomy other place with less | same | more
  · have first := decimalUnitsAt_strictMono.monotone (Nat.le_sub_one_of_lt less)
    have second := decimalUnitsAt_strictMono less
    omega
  · exact same
  · have first : decimalUnitsAt (place + 1) ≤ decimalUnitsAt other :=
      decimalUnitsAt_strictMono.monotone more
    have second := decimalUnitsAt_strictMono more
    omega

/-! ### Shortest digits of integers -/

/-- Multiples of a unit that lie less than a unit apart are equal. -/
theorem eq_of_near {unit first second : Nat} (below : first * unit < second * unit + unit)
    (above : second * unit < first * unit + unit) : first = second := by
  rw [← Nat.succ_mul] at below above
  have := Nat.lt_of_mul_lt_mul_right below
  have := Nat.lt_of_mul_lt_mul_right above
  omega

/-- The search never passes over a grid that has a candidate. -/
theorem step_le_of_gridPoint? {tie : Tie} {place step digits : Nat}
    (found : gridPoint? tie place step = some digits) {start : Nat} (coarser : step ≤ start) :
    step ≤ (firstGridPoint tie place start).2 := by
  induction start with
  | zero =>
      rw [firstGridPoint]
      exact coarser
  | succ start ih =>
      rw [firstGridPoint]
      split
      next => exact coarser
      next none =>
        rcases Nat.lt_or_eq_of_le coarser with less | same
        · exact ih (Nat.le_of_lt_succ less)
        · rw [same, none] at found
          cases found

/-- A double that lies on a grid is a candidate there. -/
theorem gridPoint?_isSome (tie : Tie) {place step number : Nat} (positive : 0 < place)
    (multiple : decimalUnitsAt place = number * Nat.pow 10 step) :
    ∃ digits, gridPoint? tie place step = some digits := by
  have self := roundsTo_self positive
  have grid : 0 < Nat.pow 10 step := Nat.pow_pos (by decide)
  unfold gridPoint?
  extract_lets size lower remainder lowerFits upperFits upper
  have fits : lowerFits = true := by
    have exact : lower * size = decimalUnitsAt place := by
      simp only [lower, size, multiple]
      rw [Nat.mul_div_cancel _ grid]
    simp only [lowerFits, exact, self]
  clear_value lowerFits upperFits
  subst fits
  cases upperFits
  · exact ⟨lower, rfl⟩
  · exact ⟨_, rfl⟩

/-- The magnitude of an integer in decimal units. -/
theorem decimalUnitsAt_of_nat {place number : Nat}
    (magnitude : unitsAt place = number * unitsPerOne) :
    decimalUnitsAt place = number * Nat.pow 10 1074 := by
  rw [decimalUnitsAt, magnitude, unitsPerOne, pow_ten, Nat.mul_assoc]

/-- The search starts on a grid that is no finer than the integers. -/
theorem le_coarsestStep {place number : Nat} (positive : 0 < number)
    (magnitude : unitsAt place = number * unitsPerOne) : 1074 ≤ coarsestStep place := by
  have large : Nat.pow 2 3564 ≤ Nat.pow 10 1074 := by decide +kernel
  have exact := decimalUnitsAt_of_nat magnitude
  have bits : 3564 ≤ Nat.log2 (decimalUnitsAt place) := by
    rw [exact]
    generalize Nat.pow 10 1074 = one at large
    have above : Nat.pow 2 3564 ≤ number * one := le_trans large (Nat.le_mul_of_pos_left _ positive)
    have nonzero : number * one ≠ 0 := (lt_of_lt_of_le (Nat.pow_pos (by decide)) above).ne'
    exact (Nat.le_log2 nonzero).mpr above
  unfold coarsestStep
  omega

/-- The shortest digits of an integer spell it exactly. -/
theorem shortest_of_nat (tie : Tie) {place number : Nat} (positive : 0 < number)
    (short : place / Nat.pow 2 52 ≤ 1075) (magnitude : unitsAt place = number * unitsPerOne) :
    ∃ digits zeros : Nat, shortest tie place = (digits, (zeros : Int)) ∧
      digits * 10 ^ zeros = number := by
  have start := le_coarsestStep positive magnitude
  have multiple := decimalUnitsAt_of_nat magnitude
  have nonzero : 0 < place := by
    rcases Nat.eq_zero_or_pos place with rfl | nonzero
    · have none : unitsAt 0 = 0 := unitsAt_of_lt (Nat.pow_pos (by decide))
      have units : 0 < unitsPerOne := Nat.pow_pos (by decide)
      have := Nat.mul_pos positive units
      omega
    · exact nonzero
  obtain ⟨digits, step, found, same⟩ := shortest_of_pos tie nonzero
  obtain ⟨candidate, isCandidate⟩ := gridPoint?_isSome tie nonzero multiple
  -- The number itself is a grid point at the step of integers, so the step that is found is no
  -- finer.
  have fine := step_le_of_gridPoint? isCandidate start
  have rounds := roundsTo_firstGridPoint tie nonzero (coarsestStep place)
  rw [found] at fine rounds
  have exponent : (step : Int) - 1074 = (step - 1074 : Nat) := by
    clear multiple
    omega
  obtain ⟨below, above⟩ := near_of_roundsTo short rounds
  refine ⟨digits, step - 1074, ?_, ?_⟩
  · rw [same, exponent]
  · have split : Nat.pow 10 step = 10 ^ (step - 1074) * Nat.pow 10 1074 := by
      generalize 1074 = bits at fine
      rw [Nat.pow_eq, Nat.pow_eq, ← pow_add, Nat.sub_add_cancel fine]
    rw [multiple, split, ← Nat.mul_assoc] at below above
    exact eq_of_near below above

end TextTemplate.Double
