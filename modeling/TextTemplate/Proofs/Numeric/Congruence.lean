import TextTemplate.Proofs.Numeric.Conversions
import TextTemplate.Proofs.Numeric.Powers
import TextTemplate.Proofs.Numeric.Quotients

/-! # Powers of equal numbers

Equal numbers have equal powers as long as these are calculated in one way. Exactly calculated powers
are equal whatever their representation, and powers of doubles are equal where the numbers are
converted to the same doubles. Which way is taken depends on an estimate, and the estimate is made
of other digits for a power of integers than for one of decimals. -/

namespace TextTemplate.Numeric

variable {base base' exponent exponent' : Numeric} {l l' : Decimal} {n : Int}

/-! ### Exponents -/

/-- A number is the exponent of an exact power just where its value is a small integer. -/
theorem exactExponent?_eq_some_iff (found : exponent.toDecimal? = some l) :
    exactExponent? exponent = some n ↔ l.value = n ∧ n.natAbs ≤ maxExactExponent := by
  have moderate (small : n.natAbs ≤ maxExactExponent) : n.natAbs < 2 ^ 53 :=
    lt_of_le_of_lt small (by decide)
  constructor
  · intro isExponent
    obtain ⟨integral, isInt, small⟩ := of_exactExponent? isExponent
    exact ⟨(isIntegral_and_toInt?_iff found (moderate small)).mp ⟨integral, isInt⟩, small⟩
  · rintro ⟨same, small⟩
    obtain ⟨integral, isInt⟩ := (isIntegral_and_toInt?_iff found (moderate small)).mpr same
    rw [exactExponent?, if_pos integral, isInt, Option.filter_some, if_pos (decide_eq_true small)]

/-- Equal numbers are the same exponent. -/
theorem exactExponent?_congr (found : exponent.toDecimal? = some l)
    (found' : exponent'.toDecimal? = some l') (same : l.value = l'.value) :
    exactExponent? exponent = exactExponent? exponent' := by
  ext n
  rw [exactExponent?_eq_some_iff found, exactExponent?_eq_some_iff found', same]

/-! ### Bases -/

/-- Whether a number without a fraction is the integer that its decimal is. Of all numbers only
doubles beyond `2 ^ 53` may not be, whose shortest digits need not spell all of the integer. -/
def IsExactlySpelled (number : Numeric) : Prop :=
  number.isDecimalLike = false → number.value? = number.toInt?.map fun i : Int => (i : ℚ)

/-- The digits of a moderate number spell all of it. -/
theorem IsModerate.isExactlySpelled (moderate : base.IsModerate) (finite : base.isFinite = true) :
    base.IsExactlySpelled := by
  intro integral
  obtain ⟨i, isInt⟩ := exists_toInt? finite
  rw [value?_of_toInt? moderate integral isInt, isInt, Option.map_some]

/-- The base of a power has the value of the number. -/
theorem value?_eq_of_powerBase? (spelled : base.IsExactlySpelled)
    (found : powerBase? base exponent = some l) : base.value? = some l.value := by
  have value := value_powerBase? found
  split at value
  next => exact value
  next integral =>
    rw [spelled (Bool.or_eq_false_iff.mp (Bool.not_eq_true _ ▸ integral)).1, value]

/-- Equal numbers are the same base where both powers are ones of decimals or both are ones of
integers. -/
theorem powerBase?_congr (isBase : base.toDecimal? = some l) (isBase' : base'.toDecimal? = some l')
    (same : l.value = l'.value) (spelled : base.IsExactlySpelled)
    (spelled' : base'.IsExactlySpelled)
    (alike : (base.isDecimalLike || exponent.isDecimalLike) =
      (base'.isDecimalLike || exponent'.isDecimalLike)) :
    powerBase? base exponent = powerBase? base' exponent' := by
  have values : base.value? = base'.value? := by
    rw [value?, value?, isBase, isBase', Option.map_some, Option.map_some, same]
  unfold powerBase?
  rw [← alike]
  split
  next =>
    rw [isBase, isBase', Option.map_some, Option.map_some,
      Decimal.normalized_eq_of_value_eq same]
  next integral =>
    have integral' : ¬(base'.isDecimalLike || exponent'.isDecimalLike) = true := alike ▸ integral
    rw [Bool.or_eq_true, not_or, Bool.not_eq_true] at integral integral'
    obtain ⟨i, isInt⟩ := exists_toInt? (isFinite_of_toDecimal? isBase)
    obtain ⟨j, isInt'⟩ := exists_toInt? (isFinite_of_toDecimal? isBase')
    rw [spelled integral.1, spelled' integral'.1, isInt, isInt', Option.map_some, Option.map_some,
      Option.some_inj, Int.cast_inj] at values
    rw [isInt, isInt', values]

/-! ### Exact powers -/

/-- Whether a power is calculated exactly. -/
def HasExactPower (base exponent : Numeric) : Prop :=
  ∃ n, exactExponent? exponent = some n ∧ (exactPower? base exponent n.natAbs).isSome = true

/-- Whether the power of equal numbers is calculated exactly is the same for both if both are powers
of decimals or both are powers of integers. -/
theorem hasExactPower_congr (isBase : base.toDecimal? = some l)
    (isBase' : base'.toDecimal? = some l') (same : l.value = l'.value)
    (spelled : base.IsExactlySpelled) (spelled' : base'.IsExactlySpelled)
    (isExponent : exactExponent? exponent = exactExponent? exponent')
    (alike : (base.isDecimalLike || exponent.isDecimalLike) =
      (base'.isDecimalLike || exponent'.isDecimalLike)) :
    base.HasExactPower exponent ↔ base'.HasExactPower exponent' := by
  have bases := powerBase?_congr isBase isBase' same spelled spelled' alike
  obtain ⟨d, found⟩ := exists_powerBase? (isFinite_of_toDecimal? isBase) exponent
  unfold HasExactPower
  simp only [isExponent, exactPower?_eq found, exactPower?_eq (bases ▸ found), Option.isSome_ite]

/-- An exact power is a number of bounded size with the value of the power, or one divided by it. -/
theorem HasExactPower.exists_magnitude (exact : base.HasExactPower exponent)
    (isBase : base.toDecimal? = some l) (spelled : base.IsExactlySpelled) :
    ∃ n result p, exactExponent? exponent = some n ∧
      base.power exponent = (if 0 ≤ n then result else divide (.integer 1) result) ∧
      result.toDecimal? = some p ∧ p.value = l.value ^ n.natAbs ∧
      p.digitCount ≤ maxExactDigits ∧ p.scale.natAbs ≤ maxExactDigits := by
  obtain ⟨n, isExponent, calculated⟩ := exact
  obtain ⟨result, found⟩ := Option.isSome_iff_exists.mp calculated
  have finite := isFinite_of_toDecimal? isBase
  obtain ⟨d, isPowerBase⟩ := exists_powerBase? finite exponent
  obtain ⟨p, isPower, value, digits, scale⟩ := of_exactPower? isPowerBase found
  have base := value?_eq_of_powerBase? spelled isPowerBase
  rw [value?, isBase, Option.map_some, Option.some_inj] at base
  rw [← base] at value
  exact ⟨n, result, p, isExponent, power_of_exactPower? finite isExponent found, isPower, value,
    digits, scale⟩

/-- One and a number of bounded size can be lined up. -/
theorem aligns_one {p : Decimal} (digits : p.digitCount ≤ maxExactDigits)
    (scale : p.scale.natAbs ≤ maxExactDigits) : (Decimal.ofInt 1).Aligns p := by
  have one : (Decimal.ofInt 1).digitCount = 1 := by decide +kernel
  unfold Decimal.Aligns
  simp only [Decimal.quotientScale, Decimal.quotientDigits, one]
  unfold maxExactDigits at digits scale
  simp only [Decimal.ofInt]
  omega

/-- Exact powers of equal numbers are equal. -/
theorem numericEq_of_hasExactPower (isBase : base.toDecimal? = some l)
    (isBase' : base'.toDecimal? = some l') (same : l.value = l'.value) (nonzero : l.value ≠ 0)
    (spelled : base.IsExactlySpelled) (spelled' : base'.IsExactlySpelled)
    (isExponent : exactExponent? exponent = exactExponent? exponent')
    (exact : base.HasExactPower exponent) (exact' : base'.HasExactPower exponent') :
    (base.power exponent).numericEq (base'.power exponent') = true := by
  obtain ⟨n, result, p, found, power, isPower, value, digits, scale⟩ :=
    exact.exists_magnitude isBase spelled
  obtain ⟨n', result', p', found', power', isPower', value', digits', scale'⟩ :=
    exact'.exists_magnitude isBase' spelled'
  obtain rfl := Option.some_inj.mp (found.symm.trans (isExponent.trans found'))
  have values : p.value = p'.value := by rw [value, value', same]
  rw [power, power']
  -- A negative exponent takes one more step: the quotient of one by the power.
  split
  next => exact (numericEq_iff isPower isPower').mpr values
  next =>
    have some : p.unscaled ≠ 0 := by
      rw [ne_eq, ← Decimal.value_eq_zero_iff, value]
      exact pow_ne_zero _ nonzero
    have some' : p'.unscaled ≠ 0 := by
      rwa [ne_eq, ← Decimal.value_eq_zero_iff, ← values, Decimal.value_eq_zero_iff]
    obtain ⟨quotient, divided, divided'⟩ := Decimal.div?_eq_of_value_eq (aligns_one digits scale)
      (aligns_one digits' scale') some values
    rw [divide_of_toDecimal? rfl isPower (Bool.not_eq_true _ ▸ (isZero_iff isPower).not.mpr some)
      divided, divide_of_toDecimal? rfl isPower'
        (Bool.not_eq_true _ ▸ (isZero_iff isPower').not.mpr some') divided']
    exact numericEq_self rfl

/-! ### Powers of doubles -/

/-- A power that is not calculated exactly is one of doubles. -/
theorem power_of_not_hasExactPower (finite : base.isFinite = true)
    (finite' : exponent.isFinite = true) (rounded : ¬base.HasExactPower exponent) :
    base.power exponent = ofComputed (base.toDouble.pow exponent.toDouble) := by
  have none : ((exactExponent? exponent).bind fun n =>
      (exactPower? base exponent n.natAbs).map fun magnitude => (n, magnitude)) = none := by
    rw [Option.bind_eq_none_iff]
    intro n isExponent
    rw [Option.map_eq_none_iff, ← Option.not_isSome_iff_eq_none]
    exact fun calculated => rounded ⟨n, isExponent, calculated⟩
  simp only [power, finite, finite', none, Bool.not_true, Bool.or_self, Bool.false_eq_true,
    if_false]

/-- The zeroth power of any number is calculated exactly. -/
theorem hasExactPower_of_zero (finite : base.isFinite = true) (found : exponent.toDecimal? = some l)
    (zero : l.value = 0) : base.HasExactPower exponent := by
  obtain ⟨d, isBase⟩ := exists_powerBase? finite exponent
  refine ⟨0, (exactExponent?_eq_some_iff found).mpr ⟨by simpa using zero, by decide⟩, ?_⟩
  have fits : exactPowerFits d.unscaled d.scale (Int.natAbs 0) = true := by
    rw [exactPowerFits_iff, Int.natAbs_zero, Nat.mul_zero]
    exact Nat.zero_le _
  rw [exactPower?_eq isBase, if_pos fits, Option.isSome_some]

/-! ### Powers of equal numbers -/

/-- Whether two numbers are equal or both not a number. -/
def AreSame (left right : Numeric) : Prop :=
  left.numericEq right = true ∨ left.isNaN = true ∧ right.isNaN = true

/-- Every number is the same as itself. -/
theorem areSame_self (number : Numeric) : number.AreSame number := by
  cases nan : number.isNaN with
  | false => exact .inl (numericEq_self nan)
  | true => exact .inr ⟨nan, nan⟩

/-- Powers of equal numbers that are not calculated exactly are the same if the numbers are converted
to the same doubles. -/
theorem areSame_of_not_hasExactPower {e e' : Decimal} (isBase : base.toDecimal? = some l)
    (isBase' : base'.toDecimal? = some l') (isExponent : exponent.toDecimal? = some e)
    (isExponent' : exponent'.toDecimal? = some e') (same : l.value = l'.value)
    (same' : e.value = e'.value) (nonzero : l.value ≠ 0) (rounded : ¬base.HasExactPower exponent)
    (rounded' : ¬base'.HasExactPower exponent') (alike : base.ConvertAlike base')
    (alike' : exponent.ConvertAlike exponent') :
    (base.power exponent).AreSame (base'.power exponent') := by
  have finite := isFinite_of_toDecimal? isBase
  have nonzero' : e.value ≠ 0 := fun zero => rounded (hasExactPower_of_zero finite isExponent zero)
  rw [power_of_not_hasExactPower finite (isFinite_of_toDecimal? isExponent) rounded,
    power_of_not_hasExactPower (isFinite_of_toDecimal? isBase')
      (isFinite_of_toDecimal? isExponent') rounded',
    toDouble_eq_of_value_eq isBase isBase' same nonzero alike,
    toDouble_eq_of_value_eq isExponent isExponent' same' nonzero' alike']
  exact areSame_self _

/-- Powers of equal numbers are the same if none of the numbers is stored as a decimal. They are the
same for all numbers wherever they are calculated in one way: if both are calculated exactly, and if
neither is and the decimals among the numbers are converted as the others are. Both or neither are
calculated exactly if both are powers of decimals or both are powers of integers. -/
theorem power_congr (finite : base.isFinite = true) (finite' : base'.isFinite = true)
    (finiteExponent : exponent.isFinite = true) (finiteExponent' : exponent'.isFinite = true)
    (nonzero : base.isZero = false) (spelled : base.IsExactlySpelled)
    (spelled' : base'.IsExactlySpelled) (same : base.numericEq base' = true)
    (same' : exponent.numericEq exponent' = true) :
    (¬base.IsDecimal → ¬base'.IsDecimal → ¬exponent.IsDecimal → ¬exponent'.IsDecimal →
      (base.power exponent).AreSame (base'.power exponent')) ∧
    ((base.isDecimalLike || exponent.isDecimalLike) =
        (base'.isDecimalLike || exponent'.isDecimalLike) →
      (base.HasExactPower exponent ↔ base'.HasExactPower exponent')) ∧
    (base.HasExactPower exponent → base'.HasExactPower exponent' →
      (base.power exponent).numericEq (base'.power exponent') = true) ∧
    (¬base.HasExactPower exponent → ¬base'.HasExactPower exponent' →
      base.ConvertAlike base' → exponent.ConvertAlike exponent' →
      (base.power exponent).AreSame (base'.power exponent')) := by
  obtain ⟨b, isBase⟩ := exists_toDecimal? finite
  obtain ⟨b', isBase'⟩ := exists_toDecimal? finite'
  obtain ⟨e, isExponent⟩ := exists_toDecimal? finiteExponent
  obtain ⟨e', isExponent'⟩ := exists_toDecimal? finiteExponent'
  rw [numericEq_iff isBase isBase'] at same
  rw [numericEq_iff isExponent isExponent'] at same'
  have some : b.value ≠ 0 := by
    rw [ne_eq, Decimal.value_eq_zero_iff, ← isZero_iff isBase, nonzero]
    exact Bool.false_ne_true
  have exponents := exactExponent?_congr isExponent isExponent' same'
  have estimated := hasExactPower_congr isBase isBase' same spelled spelled' exponents
  have exactly := numericEq_of_hasExactPower isBase isBase' same some spelled spelled' exponents
  have doubly := areSame_of_not_hasExactPower isBase isBase' isExponent isExponent' same same' some
  refine ⟨fun binary binary' binaryExponent binaryExponent' => ?_, estimated, exactly, doubly⟩
  have alike := isDecimalLike_eq_of_value_eq isBase isBase' same binary binary'
  have alike' := isDecimalLike_eq_of_value_eq isExponent isExponent' same' binaryExponent
    binaryExponent'
  -- Without decimals among the numbers, equal values are estimated and converted in the same way.
  have iff := estimated (by rw [alike, alike'])
  by_cases exact : base.HasExactPower exponent
  · exact .inl (exactly exact (iff.mp exact))
  · exact doubly exact (iff.not.mp exact)
      (fun decimal => absurd decimal (not_or.mpr ⟨binary, binary'⟩))
      (fun decimal => absurd decimal (not_or.mpr ⟨binaryExponent, binaryExponent'⟩))

/-- A power of doubles and one of decimals of the same values, both calculated exactly. -/
theorem power_congr_of_written :
    let base := Numeric.double (.ofInt 600)
    let base' := Numeric.decimal ⟨6000, 1⟩
    let exponent := Numeric.double (.ofInt (-3))
    let exponent' := Numeric.decimal ⟨-30, 1⟩
    base.isFinite = true ∧ base'.isFinite = true ∧ exponent.isFinite = true ∧
      exponent'.isFinite = true ∧ base.isZero = false ∧ base.IsExactlySpelled ∧
      base'.IsExactlySpelled ∧ base.numericEq base' = true ∧ exponent.numericEq exponent' = true ∧
      base.HasExactPower exponent ∧ base'.HasExactPower exponent' ∧
      (base.power exponent).numericEq (base'.power exponent') = true := by
  intro base base' exponent exponent'
  have finite : base.isFinite = true := by decide +kernel
  have finite' : exponent.isFinite = true := by decide +kernel
  have nonzero : base.isZero = false := by decide +kernel
  have moderate : base.IsModerate := by
    intro x same
    rw [← Numeric.double.inj same]
    decide +kernel
  have spelled : base.IsExactlySpelled := moderate.isExactlySpelled finite
  have spelled' : base'.IsExactlySpelled := fun integral => Bool.noConfusion integral
  have same : base.numericEq base' = true := by decide +kernel
  have same' : exponent.numericEq exponent' = true := by decide +kernel
  have exact : base.HasExactPower exponent := ⟨-3, by decide +kernel, by decide +kernel⟩
  have exact' : base'.HasExactPower exponent' := ⟨-3, by decide +kernel, by decide +kernel⟩
  obtain ⟨-, -, equal, -⟩ :=
    power_congr finite rfl finite' rfl nonzero spelled spelled' same same'
  exact ⟨finite, rfl, finite', rfl, nonzero, spelled, spelled', same, same', exact, exact',
    equal exact exact'⟩

/-- A double does not equal a decimal with more digits after the point than any double has. -/
theorem numericEq_ofComputed_of_long {q : Decimal} (reduced : q.unscaled % 10 ≠ 0)
    (long : 1074 < q.scale) (finite : q.toDouble.isFinite = true) (x : Double) :
    (ofComputed x).numericEq (.decimal q) = false := by
  rw [← Bool.not_eq_true]
  intro equal
  have unequal {left : Numeric} {l : Decimal} (found : left.toDecimal? = some l)
      (short : l.scale ≤ 1074) (equal : left.numericEq (.decimal q) = true) : False := by
    have value := (numericEq_iff found rfl).mp equal
    have scale := Decimal.scale_le_of_value_eq value.symm reduced
    omega
  -- An infinite result compares as a double, and a finite one by its at most 1074 digits after the
  -- point.
  cases x with
  | nan => cases equal
  | infinity negative =>
      have compared : some .eq = (Double.infinity negative).compare? q.toDouble :=
        (beq_iff_eq.mp equal).symm.trans (compare?_infinity negative (.decimal q))
      generalize q.toDouble = y at *
      cases y with
      | finite => cases negative <;> cases compared
      | _ => cases finite
  | finite negative place =>
      rw [ofComputed] at equal
      split at equal
      · exact unequal rfl (by simp [Decimal.ofInt]) equal
      · exact unequal rfl (Decimal.scale_ofDouble negative place.val).2 equal

/-- The power of an integer whose estimate is too long for it to be calculated exactly, where that of
the decimal of the same value is not; and a decimal that is converted to another double than the
integer of the same value. -/
theorem power_not_congr :
    let base := Numeric.double (.ofInt 600)
    let base' := Numeric.decimal ⟨6000, 1⟩
    let exponent := Numeric.double (.ofInt (-3000))
    let decimal := Numeric.decimal ⟨3, -23⟩
    let integer := Numeric.integer (3 * 10 ^ 23)
    (base.isFinite = true ∧ base'.isFinite = true ∧ exponent.isFinite = true ∧
      base.isZero = false ∧ base.numericEq base' = true ∧ exponent.numericEq exponent = true ∧
      ¬(base.power exponent).AreSame (base'.power exponent)) ∧
    decimal.numericEq integer = true ∧ decimal.toDouble ≠ integer.toDouble := by
  intro base base' exponent decimal integer
  have finite : base.isFinite = true := by decide +kernel
  have finite' : exponent.isFinite = true := by decide +kernel
  have isExponent : exactExponent? exponent = some (-3000) := by decide +kernel
  have long : exactPower? base exponent 3000 = none := by decide +kernel
  have rounded : ¬base.HasExactPower exponent := by
    rintro ⟨n, found, calculated⟩
    obtain rfl := Option.some_inj.mp (isExponent.symm.trans found)
    exact Bool.noConfusion (calculated.symm.trans (congrArg Option.isSome long))
  have exact : base'.power exponent = .decimal ⟨351761941033640687577674836012885, 8367⟩ := by
    decide +kernel
  refine ⟨⟨finite, rfl, finite', by decide +kernel, by decide +kernel, by decide +kernel, ?_⟩,
    by decide +kernel, by decide +kernel⟩
  rw [power_of_not_hasExactPower finite finite' rounded, exact]
  rintro (equal | ⟨-, nan⟩)
  · rw [numericEq_ofComputed_of_long (by decide) (by decide) (by decide +kernel)] at equal
    cases equal
  · cases nan

end TextTemplate.Numeric
