import TextTemplate.Double.Basic

/-! # Shortest decimal digits of a double

The decimal with the fewest digits among those that read back as a given double, and of these the
nearest to it. The search works in *decimal units* of `10 ^ -1074`, of which every double has a
whole number: a grid of multiples of `10 ^ step` grows finer until one of the double's two
neighbours on it lies in the interval of numbers that round to the double. -/

namespace TextTemplate.Double

/-- Which of two equally near candidates is taken. -/
inductive Tie where
  /-- The larger one. -/
  | up
  /-- The one whose last digit is even. -/
  | even
  deriving DecidableEq

/-- The magnitude at a place in decimal units. -/
def decimalUnitsAt (place : Nat) : Nat := unitsAt place * Nat.pow 5 1074

/-- Whether `decimal` decimal units round to the double at a positive place. The interval runs from
the middle below to the middle above, and holds its ends when the place is even. -/
def roundsTo (place decimal : Nat) : Bool :=
  let below := decimalUnitsAt (place - 1) + decimalUnitsAt place
  let above := decimalUnitsAt place + decimalUnitsAt (place + 1)
  if place % 2 = 0 then below ≤ 2 * decimal && 2 * decimal ≤ above
  else below < 2 * decimal && 2 * decimal < above

/-- The candidate on the grid of step `10 ^ step`: the neighbour of the double that rounds to it,
the nearer one if both do. -/
def gridPoint? (tie : Tie) (place step : Nat) : Option Nat :=
  let grid := Nat.pow 10 step
  let digits := decimalUnitsAt place / grid
  let remainder := decimalUnitsAt place % grid
  let lowerFits := roundsTo place (digits * grid)
  let upperFits := roundsTo place ((digits + 1) * grid)
  if lowerFits && upperFits then
    let upper := match compare (2 * remainder) grid with
      | .lt => false
      | .gt => true
      | .eq => match tie with
        | .up => true
        | .even => digits % 2 = 1
    some (if upper then digits + 1 else digits)
  else if lowerFits then some digits
  else if upperFits then some (digits + 1)
  else none

/-- The first grid from `step` downwards that has a candidate. The finest grid holds the double
itself. -/
def firstGridPoint (tie : Tie) (place : Nat) : Nat → Nat × Nat
  | 0 => (decimalUnitsAt place, 0)
  | step + 1 =>
      match gridPoint? tie place (step + 1) with
      | some digits => (digits, step + 1)
      | none => firstGridPoint tie place step

/-- A step whose grid is coarser than the double itself: `30103 / 100000` exceeds `log₁₀ 2`. -/
def coarsestStep (place : Nat) : Nat :=
  (Nat.log2 (decimalUnitsAt place) + 1) * 30103 / 100000 + 1

/-- The shortest digits of the double at a positive place, and the exponent of ten that they are
multiplied by. Zero has the digit zero. -/
def shortest (tie : Tie) (place : Nat) : Nat × Int :=
  if place = 0 then (0, 0)
  else
    let (digits, step) := firstGridPoint tie place (coarsestStep place)
    (digits, (step : Int) - 1074)

end TextTemplate.Double
