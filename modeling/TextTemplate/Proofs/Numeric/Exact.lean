import TextTemplate.Proofs.Decimal.Arithmetic
import TextTemplate.Proofs.Double.Integers
import TextTemplate.Proofs.Numeric.Values

/-! # Arithmetic on numbers is exact

Sums, differences, products and remainders of finite numbers are exact, in whichever representation
they are calculated. The short way over doubles gives a result only where it is the one of the
integers. -/

namespace TextTemplate.Numeric

/-! ### The short way -/

/-- A double is safe when it is a whole number below `2 ^ 53`. -/
theorem isSafe_iff {x : Double} :
    isSafe x = true ↔ ∃ negative, ∃ number < 2 ^ 53, x.IsWhole negative number := by
  obtain ⟨bound, isBound, boundUnits⟩ :=
    Double.isWhole_nearest false (show maxSafeInteger < 2 ^ 53 by decide)
  have largest : Double.ofInt maxSafeInteger = .finite false bound := by
    rw [← isBound, Double.ofInt_natCast]
  rw [isSafe, largest, Bool.and_eq_true]
  -- Both bounds are compared in units of the least double, where they are natural numbers.
  constructor
  · rintro ⟨integral, small⟩
    cases x with
    | finite negative place =>
        have whole : Double.unitsAt place.val % Double.unitsPerOne = 0 := by
          simpa [Double.isIntegral] using integral
        have le : Double.unitsAt place.val ≤ maxSafeInteger * Double.unitsPerOne := by
          rw [← boundUnits]
          simpa [Double.abs, Double.compare?, Double.signed, Int.isLE_compare] using small
        refine ⟨negative, Double.unitsAt place.val / Double.unitsPerOne, ?_, place, rfl,
          (Nat.div_mul_cancel (Nat.dvd_of_mod_eq_zero whole)).symm⟩
        exact Nat.lt_of_le_of_lt (Nat.div_le_of_le_mul (by rwa [Nat.mul_comm])) (by decide)
    | _ => cases integral
  · rintro ⟨negative, number, small, place, rfl, units⟩
    constructor
    · simp [Double.isIntegral, units]
    · have le : Double.unitsAt place.val ≤ Double.unitsAt bound.val := by
        rw [units, boundUnits]
        exact Nat.mul_le_mul_right _ (Nat.le_of_lt_succ small)
      simpa [Double.abs, Double.compare?, Double.signed, Int.isLE_compare] using le

/-- A safe double is the integer that was rounded to it. -/
theorem toInt?_of_rounds {x : Double} {integer : Int} (safe : isSafe x = true)
    (rounds : x.Rounds integer) : x.toInt? = some integer := by
  obtain ⟨negative, number, rfl, rfl⟩ := rounds
  obtain ⟨sign, magnitude, small, place, isPlace, units⟩ := isSafe_iff.mp safe
  -- A larger number would not have been rounded below the bound, so nothing was rounded at all.
  have exact : number < 2 ^ 53 := by
    by_contra large
    have above := Double.le_unitsAt_nearestPlace (Nat.not_lt.mp large)
    rw [Double.nearest, Double.ofPlace] at isPlace
    split_ifs at isPlace
    cases isPlace
    rw [units] at above
    exact absurd (Nat.le_of_mul_le_mul_right above Double.unitsPerOne_pos) (Nat.not_le.mpr small)
  exact (Double.isWhole_nearest negative exact).toInt?_eq

variable (operation : ExactOperation)

/-- An operation on whole doubles is the operation on integers rounded, if its result is safe. -/
theorem rounds_onDoubles {x y : Double} {negative negative' : Bool} {number number' : Nat}
    (left : x.IsWhole negative number) (right : y.IsWhole negative' number')
    (safe : isSafe (operation.onDoubles x y) = true) :
    (operation.onDoubles x y).Rounds
      (operation.onInts (Double.signed negative number) (Double.signed negative' number')) := by
  cases operation with
  | add => exact left.add right
  | subtract => exact left.sub right
  | multiply => exact left.mul right
  -- Only a remainder may fail, and what failed is not safe.
  | remainder =>
      rcases left.rem right with none | rounds
      · simp only [ExactOperation.onDoubles] at safe
        rw [none] at safe
        cases safe
      · exact rounds

/-- The short way gives the result on integers. -/
theorem of_safeResult? {x y : Double} {result : Int}
    (found : safeResult? operation x y = some result) :
    x.isIntegral = true ∧ y.isIntegral = true ∧ ∃ i j, x.toInt? = some i ∧ y.toInt? = some j ∧
      result = operation.onInts i j := by
  simp only [safeResult?] at found
  split at found
  next safe =>
    obtain ⟨leftSafe, rightSafe⟩ := Bool.and_eq_true_iff.mp safe
    split at found
    next resultSafe =>
      obtain ⟨negative, number, -, left⟩ := isSafe_iff.mp leftSafe
      obtain ⟨negative', number', -, right⟩ := isSafe_iff.mp rightSafe
      have rounds := rounds_onDoubles operation left right resultSafe
      rw [toInt?_of_rounds resultSafe rounds, Option.some_inj] at found
      exact ⟨(Bool.and_eq_true_iff.mp leftSafe).1, (Bool.and_eq_true_iff.mp rightSafe).1, _, _,
        left.toInt?_eq, right.toInt?_eq, found.symm⟩
    next => cases found
  next => cases found

/-! ### Results -/

variable {left right : Numeric}

/-- A finite number has a decimal. -/
theorem exists_toDecimal? (finite : left.isFinite = true) : ∃ d, left.toDecimal? = some d := by
  cases left with
  | double x =>
      cases x with
      | finite => exact ⟨_, rfl⟩
      | _ => cases finite
  | _ => exact ⟨_, rfl⟩

/-- A finite number has a part before the point. -/
theorem exists_toInt? (finite : left.isFinite = true) : ∃ i, left.toInt? = some i := by
  cases left with
  | double x =>
      cases x with
      | finite => exact ⟨_, rfl⟩
      | _ => cases finite
  | _ => exact ⟨_, rfl⟩

/-- With a decimal or a fraction among its operands, an operation is one on decimals. -/
theorem apply_of_decimalLike {d d' : Decimal} (found : left.toDecimal? = some d)
    (found' : right.toDecimal? = some d')
    (decimalLike : (left.isDecimalLike || right.isDecimalLike) = true) :
    apply operation left right = .decimal (operation.onDecimals d d') := by
  have finite := isFinite_of_toDecimal? found
  have finite' := isFinite_of_toDecimal? found'
  simp only [apply, finite, finite', decimalLike, found, found', Bool.not_true, Bool.or_self,
    Bool.false_eq_true, if_false, if_true]
  -- The short way wants whole doubles, and one of the operands is none.
  split
  next x y =>
    split
    next result short =>
      obtain ⟨integral, integral', -⟩ := of_safeResult? operation short
      simp [isDecimalLike, integral, integral'] at decimalLike
    next => rfl
  next => rfl

/-- Without one, it is an operation on integers. -/
theorem apply_of_integral {i j : Int} (found : left.toInt? = some i)
    (found' : right.toInt? = some j) (finite : left.isFinite = true)
    (finite' : right.isFinite = true)
    (integral : (left.isDecimalLike || right.isDecimalLike) = false) :
    apply operation left right = .integer (operation.onInts i j) := by
  simp only [apply, finite, finite', integral, found, found', Bool.not_true, Bool.or_self,
    Bool.false_eq_true, if_false]
  -- The short way and the long way give the same integer.
  split
  next x y =>
    split
    next result short =>
      obtain ⟨-, -, i', j', isLeft, isRight, rfl⟩ := of_safeResult? operation short
      rw [Option.some_inj.mp (isLeft.symm.trans found),
        Option.some_inj.mp (isRight.symm.trans found')]
    next => rfl
  next => rfl

/-! ### Exactness -/

/-- The number that a finite number stands for. -/
def value? (n : Numeric) : Option ℚ := n.toDecimal?.map Decimal.value

/-- Whether a number is at most `2 ^ 53 - 1` in magnitude if it is a double. -/
def IsModerate (n : Numeric) : Prop :=
  ∀ x, n = .double x → (x.abs.compare? (.ofInt maxSafeInteger)).any Ordering.isLE = true

/-- The operation on numbers. -/
def ExactOperation.run : ExactOperation → Numeric → Numeric → Numeric
  | .add => Numeric.add
  | .subtract => Numeric.subtract
  | .multiply => Numeric.multiply
  | .remainder => Numeric.modulo

/-- The operation on rational numbers. -/
def ExactOperation.onRationals : ExactOperation → ℚ → ℚ → ℚ
  | .add => (· + ·)
  | .subtract => (· - ·)
  | .multiply => (· * ·)
  | .remainder => Decimal.remainder

/-- An operation is the exact one, unless it would divide by zero. -/
theorem run_eq_apply (nonzero : operation = .remainder → right.isZero = false) :
    operation.run left right = apply operation left right := by
  cases operation with
  | remainder => rw [ExactOperation.run, modulo, nonzero rfl, if_neg Bool.false_ne_true]
  | _ => rfl

/-- Operations on decimals are exact. -/
theorem value_onDecimals (d d' : Decimal) :
    (operation.onDecimals d d').value = operation.onRationals d.value d'.value := by
  cases operation with
  | add => exact Decimal.value_add d d'
  | subtract => exact Decimal.value_sub d d'
  | multiply => exact Decimal.value_mul d d'
  | remainder => exact Decimal.value_rem d d'

/-- Operations on integers are exact. -/
theorem cast_onInts (i j : Int) : (operation.onInts i j : ℚ) = operation.onRationals i j := by
  cases operation with
  | add => exact Int.cast_add i j
  | subtract => exact Int.cast_sub i j
  | multiply => exact Int.cast_mul i j
  | remainder => exact Decimal.cast_tmod i j

/-- A moderate number without a fraction stands for its integer. -/
theorem value?_of_toInt? {n : Numeric} {i : Int} (moderate : n.IsModerate)
    (integral : n.isDecimalLike = false) (found : n.toInt? = some i) : n.value? = some ↑i := by
  cases n with
  | double x =>
      have safe : isSafe x = true := by
        rw [isSafe, moderate x rfl, Bool.and_true]
        simpa [isDecimalLike] using integral
      obtain ⟨negative, number, small, whole⟩ := isSafe_iff.mp safe
      have same := whole.toInt?_eq
      obtain ⟨place, rfl, units⟩ := whole
      rw [Option.some_inj.mp (found.symm.trans same),
        ← Double.IsWhole.value_ofDouble ⟨place, rfl, units⟩ small]
      rfl
  | integer i' =>
      cases found
      rw [value?, toDecimal?, Option.map_some, Decimal.value_ofInt]
  | decimal d => cases integral

/-- Sums, differences, products and remainders of finite numbers are exact, unless a double is so
large that its shortest digits do not tell its value: the result is never a double, it is a decimal
if an operand is a decimal or a fractional double and an integer otherwise, and it stands for the
result on the numbers that the operands stand for. -/
theorem run_exact (finite : left.isFinite = true) (finite' : right.isFinite = true)
    (moderate : left.IsModerate) (moderate' : right.IsModerate)
    (nonzero : operation = .remainder → right.isZero = false) :
    (∀ x, operation.run left right ≠ .double x) ∧
      ((∃ i, operation.run left right = .integer i) ↔
        left.isDecimalLike = false ∧ right.isDecimalLike = false) ∧
      ((∃ d, operation.run left right = .decimal d) ↔
        left.isDecimalLike = true ∨ right.isDecimalLike = true) ∧
      ∃ x y, left.value? = some x ∧ right.value? = some y ∧
        (operation.run left right).value? = some (operation.onRationals x y) := by
  rw [run_eq_apply operation nonzero]
  -- One operand with a fraction is enough for decimals.
  cases decimalLike : left.isDecimalLike || right.isDecimalLike with
  | true =>
      obtain ⟨d, found⟩ := exists_toDecimal? finite
      obtain ⟨d', found'⟩ := exists_toDecimal? finite'
      rw [apply_of_decimalLike operation found found' decimalLike]
      refine ⟨by simp, ?_, by simpa using decimalLike, d.value, d'.value, ?_, ?_, ?_⟩
      · simpa [Bool.or_eq_true, or_iff_not_imp_left] using decimalLike
      · rw [value?, found, Option.map_some]
      · rw [value?, found', Option.map_some]
      · rw [value?, toDecimal?, Option.map_some, value_onDecimals]
  | false =>
      obtain ⟨i, found⟩ := exists_toInt? finite
      obtain ⟨j, found'⟩ := exists_toInt? finite'
      rw [apply_of_integral operation found found' finite finite' decimalLike]
      obtain ⟨integral, integral'⟩ := Bool.or_eq_false_iff.mp decimalLike
      refine ⟨by simp, by simp [integral, integral'], by simp [integral, integral'], i, j,
        value?_of_toInt? moderate integral found, value?_of_toInt? moderate' integral' found', ?_⟩
      rw [value?, toDecimal?, Option.map_some, Decimal.value_ofInt, cast_onInts]

/-- The remainder of the double that is the largest in magnitude. -/
theorem run_exact_at_bound :
    let largest := Numeric.double (.ofInt (-maxSafeInteger))
    let divisor := Numeric.double (.ofInt 2)
    largest.isFinite = true ∧ divisor.isFinite = true ∧ largest.IsModerate ∧
      divisor.IsModerate ∧ divisor.isZero = false ∧
      (∀ x, ExactOperation.remainder.run largest divisor ≠ .double x) ∧
      ((∃ i, ExactOperation.remainder.run largest divisor = .integer i) ↔
        largest.isDecimalLike = false ∧ divisor.isDecimalLike = false) ∧
      ((∃ d, ExactOperation.remainder.run largest divisor = .decimal d) ↔
        largest.isDecimalLike = true ∨ divisor.isDecimalLike = true) ∧
      ∃ x y, largest.value? = some x ∧ divisor.value? = some y ∧
        (ExactOperation.remainder.run largest divisor).value? =
          some (ExactOperation.remainder.onRationals x y) := by
  intro largest divisor
  have finite : largest.isFinite = true := by decide +kernel
  have finite' : divisor.isFinite = true := by decide +kernel
  have nonzero : divisor.isZero = false := by decide +kernel
  have moderate : largest.IsModerate := by
    intro x same
    rw [← Numeric.double.inj same]
    decide +kernel
  have moderate' : divisor.IsModerate := by
    intro x same
    rw [← Numeric.double.inj same]
    decide +kernel
  exact ⟨finite, finite', moderate, moderate', nonzero,
    run_exact .remainder finite finite' moderate moderate' fun _ => nonzero⟩

end TextTemplate.Numeric
