import Mathlib.Order.WithBot
import TextTemplate.Proofs.Decimal.Doubles
import TextTemplate.Proofs.Decimal.Order
import TextTemplate.Proofs.Numeric.Exact

/-! # The order of numbers

Numbers of any representation compare as the rational numbers that they stand for, with an infinity
at either end. Only an infinity beside a finite number may not: the number is converted to a double,
and if that is the infinity itself the two are taken as equal. -/

namespace TextTemplate

/-- Decimals compare as their values do. -/
theorem Decimal.compare_eq_cmp (d d' : Decimal) : d.compare d' = cmp d.value d'.value := by
  have less : d.unscaledAt (max d.scale d'.scale) < d'.unscaledAt (max d.scale d'.scale) ↔
      d.value < d'.value := by
    rw [← compare_eq_lt_iff, compare, Int.compare_eq_lt]
  have greater : d'.unscaledAt (max d.scale d'.scale) < d.unscaledAt (max d.scale d'.scale) ↔
      d'.value < d.value := by
    rw [← compare_eq_lt_iff, compare, Int.compare_eq_lt, max_comm]
  rw [compare, ← cmp_eq_compare]
  unfold cmp cmpUsing
  simp only [less, greater]

/-- Turning a comparison of doubles around reverses it. -/
theorem Double.compare?_swap (x y : Double) :
    y.compare? x = (x.compare? y).map Ordering.swap := by
  cases x with
  | nan => cases y <;> rfl
  | infinity negative =>
      cases y with
      | nan => rfl
      | infinity negative' => cases negative <;> cases negative' <;> rfl
      | finite => cases negative <;> rfl
  | finite =>
      cases y with
      | nan => rfl
      | infinity negative' => cases negative' <;> rfl
      | finite => exact congrArg some Std.OrientedOrd.eq_swap

namespace Numeric

variable {left right : Numeric}

/-! ### Finite numbers -/

/-- Finite numbers compare as the values of their decimals do. -/
theorem compare?_finite {l r : Decimal} (isLeft : left.toDecimal? = some l)
    (isRight : right.toDecimal? = some r) : left.compare? right = some (cmp l.value r.value) := by
  by_cases mixed : ∀ x x', left = .double x → right ≠ .double x'
  · rw [compare?_of_toDecimal? isLeft isRight mixed, Decimal.compare_eq_cmp]
  · push Not at mixed
    obtain ⟨x, x', rfl, rfl⟩ := mixed
    cases x with
    | finite negative place =>
        cases x' with
        | finite negative' place' =>
            cases isLeft
            cases isRight
            exact Decimal.compare?_finite negative negative' place place'
        | _ => cases isRight
    | _ => cases isLeft

/-- Finite numbers are equal just where their decimals have one value. -/
theorem numericEq_iff {l r : Decimal} (isLeft : left.toDecimal? = some l)
    (isRight : right.toDecimal? = some r) : left.numericEq right = true ↔ l.value = r.value := by
  rw [numericEq, beq_iff_eq, compare?_finite isLeft isRight, Option.some_inj, cmp_eq_eq_iff]

/-! ### Infinities -/

/-- A number is not a number, an infinity or a finite number. -/
theorem infinite_or_finite (number : left.isNaN = false) :
    (∃ negative, left = .double (.infinity negative)) ∨ ∃ d, left.toDecimal? = some d := by
  cases left with
  | double x =>
      cases x with
      | nan => cases number
      | infinity negative => exact .inl ⟨negative, rfl⟩
      | finite => exact .inr (exists_toDecimal? rfl)
  | _ => exact .inr (exists_toDecimal? rfl)

/-- Finite numbers are converted to numbers. -/
theorem toDouble_ne_nan {d : Decimal} (found : left.toDecimal? = some d) :
    left.toDouble ≠ .nan := by
  cases left with
  | double x =>
      cases x with
      | finite => exact Double.noConfusion
      | _ => cases found
  | integer i => exact Double.nearest_ne_nan _ _ _
  | decimal d => exact Decimal.toDouble_ne_nan d

/-- An infinity compares with the double of any number. -/
theorem compare?_infinity (negative : Bool) (right : Numeric) :
    (Numeric.double (.infinity negative)).compare? right =
      (Double.infinity negative).compare? right.toDouble := by
  cases right <;> simp only [compare?, isFinite, Double.isFinite, toDouble, Bool.not_false,
    Bool.true_or, if_true]

/-- The double of any number compares with an infinity as the number does. -/
theorem infinity_compare? (left : Numeric) (negative : Bool) :
    left.compare? (.double (.infinity negative)) =
      left.toDouble.compare? (.infinity negative) := by
  cases left <;> simp only [compare?, isFinite, Double.isFinite, toDouble, Bool.not_false,
    Bool.or_true, if_true]

/-- Turning a comparison around reverses it. -/
theorem compare?_swap (number : left.isNaN = false) (number' : right.isNaN = false) :
    right.compare? left = (left.compare? right).map Ordering.swap := by
  rcases infinite_or_finite number with ⟨negative, rfl⟩ | ⟨l, isLeft⟩
  · rw [compare?_infinity, infinity_compare?, Double.compare?_swap]
  · rcases infinite_or_finite number' with ⟨negative, rfl⟩ | ⟨r, isRight⟩
    · rw [compare?_infinity, infinity_compare?, Double.compare?_swap]
    · rw [compare?_finite isLeft isRight, compare?_finite isRight isLeft, Option.map_some,
        cmp_swap]

/-! ### The extended line -/

/-- The number that a number stands for, on the rational line with an infinity at either end. -/
def extended? : Numeric → Option (WithBot (WithTop ℚ))
  | .double (.infinity negative) => some (if negative then ⊥ else ⊤)
  | other => other.value?.map fun value : ℚ => ((value : WithTop ℚ) : WithBot (WithTop ℚ))

/-- Whether a number is infinite and the other one a finite number that is converted to it. -/
def Absorbs (left right : Numeric) : Prop :=
  left.isFinite = false ∧ right.isFinite = true ∧ right.toDouble = left.toDouble

instance (left right : Numeric) : Decidable (left.Absorbs right) :=
  inferInstanceAs (Decidable (_ ∧ _ ∧ _))

/-- Whether neither of two numbers is an infinity to which the other one, being finite, is
converted. -/
def AreApart (left right : Numeric) : Prop := ¬left.Absorbs right ∧ ¬right.Absorbs left

instance (left right : Numeric) : Decidable (left.AreApart right) :=
  inferInstanceAs (Decidable (_ ∧ _))

/-- Numbers are apart in either order. -/
theorem areApart_comm : left.AreApart right ↔ right.AreApart left := and_comm

/-- A number that has a decimal has the value of the decimal. -/
theorem extended?_of_toDecimal? {d : Decimal} (found : left.toDecimal? = some d) :
    left.extended? = some ((d.value : WithTop ℚ) : WithBot (WithTop ℚ)) := by
  have value : left.value? = some d.value := by rw [value?, found, Option.map_some]
  cases left with
  | double x =>
      cases x with
      | finite negative place => simp only [extended?, value, Option.map_some]
      | _ => cases found
  | _ => simp only [extended?, value, Option.map_some]

/-- Infinities compare by their signs. -/
theorem compare?_infinities (negative negative' : Bool) :
    (Numeric.double (.infinity negative)).compare? (.double (.infinity negative')) =
      some (cmp (if negative then ⊥ else ⊤ : WithBot (WithTop ℚ))
        (if negative' then ⊥ else ⊤)) := by
  cases negative <;> cases negative'
  · exact congrArg some (cmp_self_eq_eq _).symm
  · exact congrArg some ((cmp_eq_gt_iff _ _).mpr bot_lt_top).symm
  · exact congrArg some ((cmp_eq_lt_iff _ _).mpr bot_lt_top).symm
  · exact congrArg some (cmp_self_eq_eq _).symm

/-- A finite number compares with an infinity by the sign of the infinity, or as equal if it is
converted to it. -/
theorem compare?_of_infinity {d : Decimal} (found : left.toDecimal? = some d) (negative : Bool) :
    left.compare? (.double (.infinity negative)) =
      some (if left.AreApart (.double (.infinity negative)) then
        cmp ((d.value : WithTop ℚ) : WithBot (WithTop ℚ)) (if negative then ⊥ else ⊤)
      else .eq) := by
  have apart_iff : left.AreApart (.double (.infinity negative)) ↔
      left.toDouble ≠ .infinity negative := by
    have infinite : (Numeric.double (.infinity negative)).isFinite = false := rfl
    have same : (Numeric.double (.infinity negative)).toDouble = .infinity negative := rfl
    simp [AreApart, Absorbs, isFinite_of_toDecimal? found, infinite, same]
  have sign : cmp ((d.value : WithTop ℚ) : WithBot (WithTop ℚ)) (if negative then ⊥ else ⊤) =
      if negative then .gt else .lt := by
    cases negative with
    | false => exact (cmp_eq_lt_iff _ _).mpr (WithBot.coe_lt_coe.mpr (WithTop.coe_lt_top _))
    | true => exact (cmp_eq_gt_iff _ _).mpr (WithBot.bot_lt_coe _)
  have number := toDouble_ne_nan found
  rw [infinity_compare?, sign]
  simp only [apart_iff]
  generalize left.toDouble = x at *
  cases x with
  | nan => exact absurd rfl number
  | infinity other => cases other <;> cases negative <;> rfl
  | finite => rfl

/-- Two numbers compare as what they stand for on the line, unless one is an infinity to which the
other one, being finite, is converted. -/
theorem compare?_eq_cmp (number : left.isNaN = false) (number' : right.isNaN = false) :
    ∃ x y, left.extended? = some x ∧ right.extended? = some y ∧
      left.compare? right = some (if left.AreApart right then cmp x y else .eq) := by
  rcases infinite_or_finite number with ⟨negative, rfl⟩ | ⟨l, isLeft⟩ <;>
    rcases infinite_or_finite number' with ⟨negative', rfl⟩ | ⟨r, isRight⟩
  · have apart : (Numeric.double (.infinity negative)).AreApart (.double (.infinity negative')) :=
      ⟨fun absorbs => Bool.noConfusion absorbs.2.1, fun absorbs => Bool.noConfusion absorbs.2.1⟩
    exact ⟨_, _, rfl, rfl, by rw [compare?_infinities, if_pos apart]⟩
  · refine ⟨_, _, rfl, extended?_of_toDecimal? isRight, ?_⟩
    rw [compare?_swap number' number, compare?_of_infinity isRight, Option.map_some,
      apply_ite Ordering.swap, cmp_swap]
    exact congrArg some (if_congr areApart_comm rfl rfl)
  · exact ⟨_, _, extended?_of_toDecimal? isLeft, rfl, compare?_of_infinity isLeft negative'⟩
  · refine ⟨_, _, extended?_of_toDecimal? isLeft, extended?_of_toDecimal? isRight, ?_⟩
    rw [compare?_finite isLeft isRight, if_pos]
    · exact congrArg some
        ((WithBot.coe_strictMono.comp WithTop.coe_strictMono).cmp_map_eq l.value r.value).symm
    · simp [AreApart, Absorbs, isFinite_of_toDecimal? isLeft, isFinite_of_toDecimal? isRight]

/-! ### Preorder -/

/-- A number does not stand apart from another one of which it is a copy. -/
theorem areApart_self (left : Numeric) : left.AreApart left := by
  have none : ¬left.Absorbs left := fun absorbs =>
    Bool.false_ne_true (absorbs.1.symm.trans absorbs.2.1)
  exact ⟨none, none⟩

/-- A number equals itself. -/
theorem numericEq_self (number : left.isNaN = false) : left.numericEq left = true := by
  obtain ⟨x, y, isLeft, isRight, compared⟩ := compare?_eq_cmp number number
  obtain rfl := Option.some_inj.mp (isLeft.symm.trans isRight)
  rw [numericEq, compared, if_pos (areApart_self left), cmp_self_eq_eq]
  rfl

/-- Numbers are equal in either order. -/
theorem numericEq_comm (number : left.isNaN = false) (number' : right.isNaN = false) :
    left.numericEq right = right.numericEq left := by
  rw [numericEq, numericEq, compare?_swap number number']
  rcases left.compare? right with _ | _ | _ | _ <;> rfl

/-- A comparison does not say greater just where it says that the numbers are in order. -/
theorem isLE_cmp {α : Type*} [LinearOrder α] (x y : α) : (cmp x y).isLE = true ↔ x ≤ y := by
  rw [Ordering.isLE_iff_ne_gt]
  exact (cmp_compares x y).ne_gt

/-- The order is transitive among numbers that are apart, and numbers are equal at its ends only if
they are equal on the way. -/
theorem compare?_trans {first middle last : Numeric} (number : first.isNaN = false)
    (number' : middle.isNaN = false) (number'' : last.isNaN = false)
    (apart : first.AreApart middle) (apart' : middle.AreApart last) (apart'' : first.AreApart last)
    {before after : Ordering} (compared : first.compare? middle = some before)
    (compared' : middle.compare? last = some after) (below : before.isLE = true)
    (below' : after.isLE = true) :
    ∃ order, first.compare? last = some order ∧ order.isLE = true ∧
      (order = .eq ↔ before = .eq ∧ after = .eq) := by
  obtain ⟨x, y, isFirst, isMiddle, order⟩ := compare?_eq_cmp number number'
  obtain ⟨y', z, isMiddle', isLast, order'⟩ := compare?_eq_cmp number' number''
  obtain ⟨x', z', isFirst', isLast', order''⟩ := compare?_eq_cmp number number''
  -- Numbers that are apart compare as their places on one line do, and each number has one place.
  obtain rfl := Option.some_inj.mp (isFirst.symm.trans isFirst')
  obtain rfl := Option.some_inj.mp (isMiddle.symm.trans isMiddle')
  obtain rfl := Option.some_inj.mp (isLast.symm.trans isLast')
  rw [order, if_pos apart, Option.some_inj] at compared
  rw [order', if_pos apart', Option.some_inj] at compared'
  subst compared compared'
  rw [isLE_cmp] at below below'
  refine ⟨cmp x z, by rw [order'', if_pos apart''], (isLE_cmp x z).mpr (below.trans below'), ?_⟩
  rw [cmp_eq_eq_iff, cmp_eq_eq_iff, cmp_eq_eq_iff]
  constructor
  · rintro rfl
    exact ⟨le_antisymm below below', le_antisymm below' below⟩
  · rintro ⟨rfl, rfl⟩
    rfl

/-- Comparison is a total preorder on numbers that are apart, and numeric equality is the
equivalence that comes with it: every two numbers compare, turning them around reverses the result,
and results in order add up. Only the last takes that no infinity stands beside a finite number that
is converted to it. -/
theorem compare?_preorder {first middle last : Numeric} (number : first.isNaN = false)
    (number' : middle.isNaN = false) (number'' : last.isNaN = false) :
    (∃ order, first.compare? middle = some order ∧
      middle.compare? first = some order.swap) ∧
    first.numericEq first = true ∧ first.numericEq middle = middle.numericEq first ∧
    (first.AreApart middle → middle.AreApart last → first.AreApart last →
      (∀ before after, first.compare? middle = some before → middle.compare? last = some after →
        before.isLE = true → after.isLE = true →
        ∃ order, first.compare? last = some order ∧ order.isLE = true ∧
          (order = .eq ↔ before = .eq ∧ after = .eq)) ∧
      (first.numericEq middle = true → middle.numericEq last = true →
        first.numericEq last = true)) := by
  obtain ⟨_, _, -, -, compared⟩ := compare?_eq_cmp number number'
  refine ⟨⟨_, compared, ?_⟩, numericEq_self number, numericEq_comm number number',
    fun apart apart' apart'' => ⟨?_, ?_⟩⟩
  · rw [compare?_swap number number', compared, Option.map_some]
  · intro before after
    exact compare?_trans number number' number'' apart apart' apart''
  · intro same same'
    rw [numericEq, beq_iff_eq] at same same' ⊢
    obtain ⟨order, found, -, equal⟩ :=
      compare?_trans number number' number'' apart apart' apart'' same same' rfl rfl
    rw [found, equal.mpr ⟨rfl, rfl⟩]

/-- Two integers beyond the doubles are in order above the negative infinity. -/
theorem compare?_preorder_of_huge :
    let lowest := Numeric.double (.infinity true)
    let huge := Numeric.integer (10 ^ 400)
    let larger := Numeric.decimal ⟨1, -401⟩
    lowest.isNaN = false ∧ huge.isNaN = false ∧ larger.isNaN = false ∧
      lowest.AreApart huge ∧ huge.AreApart larger ∧ lowest.AreApart larger ∧
      ∃ order, lowest.compare? larger = some order ∧ order.isLE = true ∧
        (order = .eq ↔ Ordering.lt = .eq ∧ Ordering.lt = .eq) := by
  intro lowest huge larger
  have apart : lowest.AreApart huge := by decide +kernel
  have apart' : huge.AreApart larger := by decide +kernel
  have apart'' : lowest.AreApart larger := by decide +kernel
  have compared : lowest.compare? huge = some .lt := by decide +kernel
  have compared' : huge.compare? larger = some .lt := by decide +kernel
  have number : lowest.isNaN = false := rfl
  have number' : huge.isNaN = false := rfl
  have number'' : larger.isNaN = false := rfl
  obtain ⟨-, -, -, transitive⟩ := compare?_preorder number number' number''
  exact ⟨number, number', number'', apart, apart', apart'',
    (transitive apart apart' apart'').1 _ _ compared compared' rfl rfl⟩

/-- Two different integers beyond the doubles both equal the infinity. -/
theorem compare?_infinity_not_transitive :
    let larger := Numeric.integer (10 ^ 401)
    let infinity := Numeric.double (.infinity false)
    let huge := Numeric.integer (10 ^ 400)
    larger.isNaN = false ∧ infinity.isNaN = false ∧ huge.isNaN = false ∧
      larger.compare? infinity = some .eq ∧ infinity.compare? huge = some .eq ∧
      larger.compare? huge = some .gt := by
  decide +kernel

end Numeric

end TextTemplate
