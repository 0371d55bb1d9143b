import TextTemplate.Proofs.Decimal.Order
import TextTemplate.Proofs.Double.Integers

/-! # Rounding is to the nearest double

The place that rounding finds is the one in whose rounding interval the number lies. Since these
intervals share no number, whatever lies in the interval of a double is rounded to it, and so are the
shortest digits of the double. -/

namespace TextTemplate

namespace Double

/-! ### Rounding to integers -/

/-- Rounding a quotient misses by at most a half, and by a half only if the result is even. -/
theorem roundHalfEven_bounds {denominator : Nat} (positive : 0 < denominator) (numerator : Nat) :
    let rounded := roundHalfEven numerator denominator
    (2 * numerator ≤ (2 * rounded + 1) * denominator ∧
      2 * rounded * denominator ≤ 2 * numerator + denominator) ∧
    (rounded % 2 ≠ 0 → 2 * numerator < (2 * rounded + 1) * denominator ∧
      2 * rounded * denominator < 2 * numerator + denominator) := by
  intro rounded
  have split := Nat.div_add_mod numerator denominator
  have bound := Nat.mod_lt numerator positive
  have below (quotient : Nat) : 2 * quotient * denominator = 2 * (denominator * quotient) := by ring
  have above (quotient : Nat) :
      (2 * quotient + 1) * denominator = 2 * (denominator * quotient) + denominator := by ring
  rw [below, above]
  simp only [rounded, roundHalfEven]
  generalize numerator / denominator = quotient at *
  generalize numerator % denominator = remainder at *
  have next : denominator * (quotient + 1) = denominator * quotient + denominator :=
    Nat.mul_succ denominator quotient
  split_ifs <;> omega

/-! ### Blocks -/

/-- The magnitude of 53 binary digits in a block; the first one of the next block is also the one
behind the last of a block, and the first block holds all shorter ones. -/
theorem unitsAt_of_le {whole block : Nat} (high : whole ≤ 2 ^ 53)
    (low : block = 0 ∨ 2 ^ 52 ≤ whole) :
    unitsAt (whole + block * 2 ^ 52) = whole * 2 ^ block := by
  rcases Nat.lt_or_ge whole (2 ^ 52) with short | long
  · obtain rfl : block = 0 := low.resolve_right (Nat.not_le.mpr short)
    rw [Nat.zero_mul, Nat.add_zero, pow_zero, Nat.mul_one]
    exact unitsAt_of_lt short
  · rcases Nat.lt_or_eq_of_le high with less | rfl
    · exact unitsAt_block block long less
    · have next : 2 ^ 53 + block * 2 ^ 52 = 2 ^ 52 + (block + 1) * 2 ^ 52 := by ring
      rw [next, unitsAt_block (block + 1) (Nat.le_refl _) (by decide), pow_succ]
      ring

/-- The middle between a place of a block and the next place is half a step of the block away, or
more behind the last place. -/
theorem le_middle_above {whole block : Nat} (high : whole ≤ 2 ^ 53)
    (low : block = 0 ∨ 2 ^ 52 ≤ whole) :
    (2 * whole + 1) * 2 ^ block ≤
      unitsAt (whole + block * 2 ^ 52) + unitsAt (whole + block * 2 ^ 52 + 1) := by
  have same : block ≤ (whole + block * 2 ^ 52) / 2 ^ 52 - 1 := by omega
  have step : 2 ^ block ≤ 2 ^ ((whole + block * 2 ^ 52) / 2 ^ 52 - 1) :=
    Nat.pow_le_pow_right (by decide) same
  rw [unitsAt_succ, unitsAt_of_le high low, Nat.pow_eq, Nat.pow_eq, Nat.add_mul, Nat.mul_assoc]
  omega

/-- The middle between a place of a block and the place before is half a step of the block away,
except for the first place. -/
theorem middle_below {whole block : Nat} (high : whole ≤ 2 ^ 53) (positive : 0 < whole)
    (inside : block = 0 ∨ 2 ^ 52 < whole) :
    unitsAt (whole + block * 2 ^ 52 - 1) + unitsAt (whole + block * 2 ^ 52) + 2 ^ block =
      2 * whole * 2 ^ block := by
  obtain ⟨previous, rfl⟩ := Nat.exists_eq_add_of_le' positive
  have before : previous + 1 + block * 2 ^ 52 - 1 = previous + block * 2 ^ 52 := by omega
  rw [before, unitsAt_of_le (by omega) (inside.imp_right Nat.le_of_lt_succ),
    unitsAt_of_le high (inside.imp_right Nat.le_of_lt)]
  ring

/-- The block in which a quotient is rounded holds it. -/
theorem block_bounds (quotient : Nat) :
    quotient < 2 ^ 53 * 2 ^ (Nat.log2 quotient - 52) ∧
      (Nat.log2 quotient - 52 = 0 ∨ 2 ^ 52 * 2 ^ (Nat.log2 quotient - 52) ≤ quotient) := by
  rcases Nat.eq_zero_or_pos quotient with rfl | positive
  · exact ⟨by positivity, .inl (by simp)⟩
  · obtain ⟨low, high⟩ := (Nat.log2_eq_iff positive.ne').mp rfl
    generalize Nat.log2 quotient = bits at *
    rw [← pow_add, ← pow_add]
    constructor
    · exact lt_of_lt_of_le high (Nat.pow_le_pow_right (by decide) (by omega))
    · rcases Nat.lt_or_ge 52 bits with many | few
      · refine .inr (le_trans (Nat.pow_le_pow_right (by decide) ?_) low)
        omega
      · exact .inl (by omega)

/-- A quotient is rounded in a block, to a number of at most 53 binary digits. It has so many in any
but the first block, and if it is the least of these nothing was rounded up. -/
theorem exists_block {denominator : Nat} (positive : 0 < denominator) (numerator : Nat) :
    ∃ whole block, nearestPlace numerator denominator = whole + block * 2 ^ 52 ∧
      whole = roundHalfEven numerator (denominator * 2 ^ block) ∧ whole ≤ 2 ^ 53 ∧
      (block = 0 ∨ 2 ^ 52 ≤ whole ∧ 2 ^ 52 * (denominator * 2 ^ block) ≤ numerator) := by
  obtain ⟨high, low⟩ := block_bounds (numerator / denominator)
  refine ⟨_, _, rfl, rfl, ?_⟩
  rw [Nat.pow_eq]
  generalize Nat.log2 (numerator / denominator) - 52 = block at *
  have grid : 0 < denominator * 2 ^ block := Nat.mul_pos positive (Nat.pow_pos (by decide))
  rw [Nat.div_lt_iff_lt_mul positive] at high
  rw [Nat.le_div_iff_mul_le positive] at low
  -- All bounds are stated in units of the block, of which there are at most as many as 53 digits
  -- count.
  have scaled (digits : Nat) : digits * 2 ^ block * denominator =
      digits * (denominator * 2 ^ block) := by ring
  rw [scaled] at high low
  obtain ⟨⟨-, near⟩, -⟩ := roundHalfEven_bounds grid numerator
  have floor := le_roundHalfEven numerator (denominator * 2 ^ block)
  generalize roundHalfEven numerator (denominator * 2 ^ block) = whole at *
  constructor
  · by_contra! large
    have least : 2 * (2 ^ 53 + 1) * (denominator * 2 ^ block) ≤
        2 * whole * (denominator * 2 ^ block) := Nat.mul_le_mul_right _ (by omega)
    omega
  · exact low.imp_right fun reached =>
      ⟨le_trans ((Nat.le_div_iff_mul_le grid).mpr reached) floor, reached⟩

/-! ### Rounding intervals -/

/-- A quotient lies between the middles to both sides of the place that it is rounded to, and in one
of them only if the place is even. -/
theorem nearestPlace_bounds {numerator denominator place : Nat} (positive : 0 < denominator)
    (rounds : nearestPlace numerator denominator = place) :
    ((unitsAt (place - 1) + unitsAt place) * denominator ≤ 2 * numerator ∧
      2 * numerator ≤ (unitsAt place + unitsAt (place + 1)) * denominator) ∧
    (place % 2 ≠ 0 → (unitsAt (place - 1) + unitsAt place) * denominator < 2 * numerator ∧
      2 * numerator < (unitsAt place + unitsAt (place + 1)) * denominator) := by
  obtain ⟨whole, block, found, rounded, high, low⟩ := exists_block positive numerator
  obtain rfl := found.symm.trans rounds
  have grid : 0 < denominator * 2 ^ block := Nat.mul_pos positive (Nat.pow_pos (by decide))
  obtain ⟨⟨near, near'⟩, strict⟩ := roundHalfEven_bounds grid numerator
  rw [← rounded] at near near' strict
  have parity : (whole + block * 2 ^ 52) % 2 = whole % 2 := by omega
  have above := Nat.mul_le_mul_right denominator (le_middle_above high (low.imp_right And.left))
  rw [Nat.mul_assoc, Nat.mul_comm _ denominator] at above
  have below : (unitsAt (whole + block * 2 ^ 52 - 1) + unitsAt (whole + block * 2 ^ 52)) *
        denominator ≤ 2 * numerator ∧
      (whole % 2 ≠ 0 → (unitsAt (whole + block * 2 ^ 52 - 1) + unitsAt (whole + block * 2 ^ 52)) *
        denominator < 2 * numerator) := by
    by_cases inside : 0 < whole ∧ (block = 0 ∨ 2 ^ 52 < whole)
    · have middle := congrArg (· * denominator) (middle_below high inside.1 inside.2)
      simp only [Nat.add_mul _ (2 ^ block), Nat.mul_assoc (2 * whole),
        Nat.mul_comm (2 ^ block)] at middle
      omega
    · rcases low with rfl | ⟨many, large⟩
      · obtain rfl : whole = 0 := by omega
        simp [unitsAt_of_lt (Nat.pow_pos (show 0 < 2 by decide))]
      · -- At the start of a block the place before is nearer, but there nothing was rounded up.
        obtain rfl : whole = 2 ^ 52 := by omega
        have less : unitsAt (2 ^ 52 + block * 2 ^ 52 - 1) < unitsAt (2 ^ 52 + block * 2 ^ 52) :=
          unitsAt_strictMono (by omega)
        have scaled := Nat.mul_lt_mul_of_pos_right less positive
        have least : unitsAt (2 ^ 52 + block * 2 ^ 52) * denominator ≤ numerator := by
          rw [unitsAt_of_le high (.inr many), Nat.mul_assoc, Nat.mul_comm (2 ^ block)]
          exact large
        rw [Nat.add_mul]
        omega
  rw [parity]
  exact ⟨⟨below.1, near.trans above⟩,
    fun odd => ⟨below.2 odd, (strict odd).1.trans_le above⟩⟩

/-- Powers of five are positive. -/
theorem pow_five_pos (exponent : Nat) : 0 < Nat.pow 5 exponent := Nat.pow_pos (by decide)

/-- The place that a number is rounded to is the one in whose rounding interval it lies. -/
theorem roundsTo_nearestPlace (decimal : Nat) :
    roundsTo (nearestPlace decimal (Nat.pow 5 1074)) decimal = true := by
  simp only [roundsTo, decimalUnitsAt, ← Nat.add_mul]
  -- The exponent stays a variable, so that no power is calculated.
  generalize 1074 = exponent
  obtain ⟨bounds, strict⟩ :=
    nearestPlace_bounds (pow_five_pos exponent) (Eq.refl (nearestPlace decimal _))
  split
  next => simpa using bounds
  next odd => simpa using strict odd

/-- What lies in the rounding interval of a double is rounded to it. -/
theorem nearestPlace_of_roundsTo {place decimal : Nat} (rounds : roundsTo place decimal = true) :
    nearestPlace decimal (Nat.pow 5 1074) = place := by
  have found := roundsTo_nearestPlace decimal
  rcases Nat.lt_trichotomy (nearestPlace decimal (Nat.pow 5 1074)) place with less | same | more
  · exact absurd (lt_of_roundsTo less found rounds) (Nat.lt_irrefl _)
  · exact same
  · exact absurd (lt_of_roundsTo more rounds found) (Nat.lt_irrefl _)

end Double

namespace Decimal

/-! ### Integers -/

/-- An integer that the shortest digits of a double spell is rounded to that double. -/
theorem ofInt_eq_of_value {negative : Bool} {place : Fin Double.placeCount} {number : Int}
    (positive : 0 < place.val) (same : (ofDouble negative place.val).value = number) :
    Double.ofInt number = .finite negative place := by
  have sign : decide (number < 0) = negative := by
    have negative_iff : number < 0 ↔ negative = true := by
      rw [← Int.cast_lt_zero (R := ℚ), ← same, value_neg_iff, unscaled_ofDouble_neg_iff,
        and_iff_left positive]
    rw [Bool.eq_iff_iff, decide_eq_true_iff, negative_iff]
  obtain ⟨decimal, -, rounds, spec⟩ := ofDouble_spec negative positive
  have units := units_of_value (spec.symm.trans same)
  have nearest : Double.nearestPlace (number.natAbs * Double.unitsPerOne) 1 = place := by
    rw [← Double.nearestPlace_of_roundsTo rounds, units, Double.unitsPerOne]
    generalize 1074 = exponent
    rw [← Double.nearestPlace_mul (Double.pow_five_pos exponent), Double.pow_ten, Nat.one_mul,
      Nat.mul_assoc]
  rw [Double.ofInt, Double.nearest, nearest, Double.ofPlace, dif_pos place.isLt, sign]

end Decimal

end TextTemplate
