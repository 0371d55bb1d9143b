import TextTemplate.Numeric.Basic

/-! # Arithmetic across representations

Sums, differences, products and remainders of finite numbers are exact: decimal if an operand is a
decimal or a fractional double, and integer otherwise. Two doubles that are safe integers take a
short way, when the result is one as well. Quotients are decimal. Operands that are not finite, and
division by zero, follow the rules of doubles. -/

namespace TextTemplate.Numeric

/-! ### Operations with one rule for all -/

/-- The operations that are exact on every representation. -/
inductive ExactOperation where
  | add
  | subtract
  | multiply
  | remainder
  deriving DecidableEq

/-- The operation on doubles. -/
def ExactOperation.onDoubles : ExactOperation → Double → Double → Double
  | .add => .add
  | .subtract => .sub
  | .multiply => .mul
  | .remainder => .rem

/-- The operation on integers. -/
def ExactOperation.onInts : ExactOperation → Int → Int → Int
  | .add => (· + ·)
  | .subtract => (· - ·)
  | .multiply => (· * ·)
  | .remainder => Int.tmod

/-- The operation on decimals. -/
def ExactOperation.onDecimals : ExactOperation → Decimal → Decimal → Decimal
  | .add => .add
  | .subtract => .sub
  | .multiply => .mul
  | .remainder => .rem

/-- Whether a double is an integer that is safe: none of its neighbours rounds to it. -/
def isSafe (x : Double) : Bool :=
  x.isIntegral && (x.abs.compare? (.ofInt maxSafeInteger)).any Ordering.isLE

/-- The short way: the operation on two safe integers, if its result is one. -/
def safeResult? (operation : ExactOperation) (left right : Double) : Option Int :=
  if isSafe left && isSafe right then
    let result := operation.onDoubles left right
    -- A result outside of the safe range may have been rounded.
    if isSafe result then result.toInt? else none
  else none

/-- An exact operation on two numbers. -/
def apply (operation : ExactOperation) (left right : Numeric) : Numeric :=
  let onDoubles := Numeric.double (operation.onDoubles left.toDouble right.toDouble)
  let onRepresentations :=
    if left.isDecimalLike || right.isDecimalLike then
      match left.toDecimal?, right.toDecimal? with
      | some l, some r => .decimal (operation.onDecimals l r)
      | _, _ => onDoubles
    else
      match left.toInt?, right.toInt? with
      | some l, some r => .integer (operation.onInts l r)
      | _, _ => onDoubles
  if !left.isFinite || !right.isFinite then onDoubles
  else
    match left, right with
    | .double l, .double r =>
        -- The short way saves work and nothing else: the result is the same either way.
        match safeResult? operation l r with
        | some result => .integer result
        | none => onRepresentations
    | _, _ => onRepresentations

/-- The sum. -/
def add : Numeric → Numeric → Numeric := apply .add

/-- The difference. -/
def subtract : Numeric → Numeric → Numeric := apply .subtract

/-- The product. -/
def multiply : Numeric → Numeric → Numeric := apply .multiply

/-- The remainder, with the dividend's sign; not a number when the divisor is zero. -/
def modulo (left right : Numeric) : Numeric :=
  if right.isZero then .double .nan else apply .remainder left right

/-! ### Quotients -/

/-- The quotient, a decimal when both operands are finite and the divisor is not zero. -/
def divide (left right : Numeric) : Numeric :=
  let onDoubles := left.toDouble.div right.toDouble
  if !left.isFinite || !right.isFinite || right.isZero then .double onDoubles
  else
    match left.toDecimal?, right.toDecimal? with
    | some l, some r =>
        match l.div? r with
        | some quotient => .decimal quotient
        -- The scales are too far apart for a decimal quotient.
        | none => ofComputed onDoubles
    | _, _ => .double onDoubles

/-! ### Powers -/

/-- How many binary digits a natural number has. -/
def bitCount (n : Nat) : Nat := if n = 0 then 0 else Nat.log2 n + 1

/-- The number of decimal digits that `bits` binary digits may need: `bits` times `log₁₀ 2`, rounded
up. The fraction `12655 / 42039` approximates `log₁₀ 2` from above, and no integer lies between the
two products for any number of bits below `42039`; larger numbers need too many digits anyway. -/
def digitEstimate (bits : Nat) : Nat := (12655 * bits + 42038) / 42039

/-- Whether the power of a number with these digits and this scale is small enough to calculate. -/
def exactPowerFits (unscaled : Int) (scale : Int) (exponent : Nat) : Bool :=
  -- An estimate, because the power may be too long to be calculated for its size.
  (digitEstimate (bitCount unscaled.natAbs) + scale.natAbs) * exponent ≤ maxExactDigits

/-- The exact power of a natural exponent, if it is small enough: of the normalized decimal if the
base or the exponent is decimal, of the integer otherwise. -/
def exactPower? (base exponent : Numeric) (count : Nat) : Option Numeric :=
  if base.isDecimalLike || exponent.isDecimalLike then do
    let d := (← base.toDecimal?).normalized
    if exactPowerFits d.unscaled d.scale count then return .decimal (d.pow count) else none
  else do
    let i ← base.toInt?
    if exactPowerFits i 0 count then return .integer (i.pow count) else none

/-- The exponent as an integer, if it is one and small enough for an exact power. -/
def exactExponent? (exponent : Numeric) : Option Int :=
  if exponent.isIntegral then
    exponent.toInt?.filter fun n => n.natAbs ≤ maxExactExponent
  else none

/-- The power: exact for small integral exponents, a negative one giving one divided by the
positive power, and the power of doubles otherwise. -/
def power (base exponent : Numeric) : Numeric :=
  let onDoubles := base.toDouble.pow exponent.toDouble
  if !base.isFinite || !exponent.isFinite then .double onDoubles
  else
    match (exactExponent? exponent).bind fun n =>
        (exactPower? base exponent n.natAbs).map fun magnitude => (n, magnitude) with
    | some (n, magnitude) => if 0 ≤ n then magnitude else divide (.integer 1) magnitude
    | none => ofComputed onDoubles

/-! ### Order -/

/-- The order of the values; `none` when one is not a number. Two doubles and two integers compare
directly, an infinity compares as a double, and all else compares as decimals. -/
def compare? (left right : Numeric) : Option Ordering :=
  match left, right with
  | .integer l, .integer r => some (compare l r)
  | .double l, .double r => l.compare? r
  | _, _ =>
      if !left.isFinite || !right.isFinite then left.toDouble.compare? right.toDouble
      else do
        let l ← left.toDecimal?
        let r ← right.toDecimal?
        return l.compare r

/-- Whether the values are equal, in whatever representation. -/
def numericEq (left right : Numeric) : Bool := left.compare? right == some .eq

/-- Whether both numbers have the same representation and the same value. Zeros of either sign are
the same, decimals of different scale may be, and what is not a number is not even itself. -/
def sameNumber : Numeric → Numeric → Bool
  | .double l, .double r => l.compare? r == some .eq
  | .integer l, .integer r => l == r
  | .decimal l, .decimal r => l.compare r == .eq
  | _, _ => false

end TextTemplate.Numeric
