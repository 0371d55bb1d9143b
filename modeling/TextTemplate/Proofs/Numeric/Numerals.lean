import TextTemplate.Proofs.Numeric.Spelling

/-! # Numerals

A numeral is a number as it is written: digits with at most one point among them, after an optional
sign and before an optional exponent. A numeral stands for a decimal, and is read as the number of
that decimal in the representation that its spelling and its scale ask for. -/

namespace TextTemplate

open Numeric (signText)

/-! ### The grammar -/

/-- The sign in front of digits. -/
inductive Numeral.Sign where
  /-- No sign at all. -/
  | none
  /-- A plus sign. -/
  | plus
  /-- A minus sign. -/
  | minus
  deriving DecidableEq

namespace Numeral.Sign

/-- The sign as it is written. -/
def text : Sign → List Char
  | none => []
  | plus => ['+']
  | minus => ['-']

/-- Whether what follows the sign is negative. -/
def isNegative (sign : Sign) : Bool := sign == minus

/-- A sign other than a plus sign is only there for negative numbers. -/
theorem text_eq {sign : Sign} (noPlus : sign ≠ plus) : sign.text = signText sign.isNegative := by
  cases sign with
  | none => rfl
  | plus => exact absurd rfl noPlus
  | minus => rfl

end Numeral.Sign

/-- An exponent: a mark, then digits after an optional sign. -/
structure Numeral.Exponent where
  /-- The letter that starts the exponent. -/
  mark : Char
  /-- The sign of the exponent. -/
  sign : Sign
  /-- The digits of the exponent. -/
  digits : List Char
  isMark : Decimal.isExponentMark mark = true
  areDigits : Digits.AreDigits digits
  nonempty : digits ≠ []

namespace Numeral.Exponent

/-- The exponent as it is written. -/
def text (exponent : Exponent) : List Char :=
  exponent.mark :: (exponent.sign.text ++ exponent.digits)

/-- The integer that the exponent stands for. -/
def value (exponent : Exponent) : Int :=
  Double.signed exponent.sign.isNegative (Digits.value exponent.digits)

end Numeral.Exponent

/-- A number as it is written, with at least one digit before or after the point. -/
structure Numeral where
  /-- The sign of the number. -/
  sign : Numeral.Sign
  /-- The digits before the point. -/
  whole : List Char
  /-- The digits after the point, if there is a point. -/
  fraction : Option (List Char)
  /-- The exponent, if there is one. -/
  exponent : Option Numeral.Exponent
  areDigits : Digits.AreDigits (whole ++ fraction.getD [])
  nonempty : whole ++ fraction.getD [] ≠ []

namespace Numeral

/-- All digits in front of the exponent, without the point. -/
def digits (n : Numeral) : List Char := n.whole ++ n.fraction.getD []

/-- All digits in front of the exponent, with the point. -/
def mantissa (n : Numeral) : List Char := n.whole ++ n.fraction.elim [] ('.' :: ·)

/-- The exponent as it is written. -/
def exponentText (n : Numeral) : List Char := n.exponent.elim [] Exponent.text

/-- The integer that the exponent stands for; zero when there is none. -/
def exponentValue (n : Numeral) : Int := n.exponent.elim 0 Exponent.value

/-- The numeral as it is written, without its sign. -/
def unsigned (n : Numeral) : List Char := n.mantissa ++ n.exponentText

/-- The numeral as it is written. -/
def text (n : Numeral) : List Char := n.sign.text ++ n.unsigned

/-- Whether the numeral has neither a point nor an exponent. -/
def isWhole (n : Numeral) : Bool := n.fraction.isNone && n.exponent.isNone

/-- The number of digits after the point, less the exponent. -/
def scale (n : Numeral) : Int := (n.fraction.getD []).length - n.exponentValue

/-- The decimal that the numeral stands for. -/
def decimal (n : Numeral) : Decimal :=
  ⟨Double.signed n.sign.isNegative (Digits.value n.digits), n.scale⟩

/-- The number that the numeral is read as. Short runs of digits are doubles and long ones integers;
with a point or an exponent the number is a decimal, or a double if the scale is out of bounds.
There is none when the scale is no word. -/
def number? (n : Numeral) : Option Numeric :=
  if n.isWhole then
    if Numeric.maxDoubleDigits < n.digits.length then some (.integer n.decimal.unscaled)
    else some (.double (Double.ofDecimal n.sign.isNegative (Digits.value n.digits) 0))
  else if Digits.fitsWord n.scale then
    if Numeric.scaleWithinBounds n.decimal then some (.decimal n.decimal)
    else some (.double (Double.ofDecimal n.sign.isNegative (Digits.value n.digits) (-n.scale)))
  else none

variable (n : Numeral)

/-! ### Parts -/

/-- A numeral without a point and an exponent has no scale. -/
theorem scale_of_isWhole {n : Numeral} (whole : n.isWhole = true) : n.scale = 0 := by
  simp only [isWhole, Bool.and_eq_true, Option.isNone_iff_eq_none] at whole
  simp [Numeral.scale, exponentValue, whole.1, whole.2]

/-- A mantissa starts with a digit or a point. -/
theorem exists_mantissa_start :
    ∃ first rest, n.mantissa = first :: rest ∧ (first.isDigit = true ∨ first = '.') := by
  obtain ⟨sign, whole, fraction, exponent, areDigits, nonempty⟩ := n
  cases whole with
  | cons first whole => exact ⟨first, _, rfl, .inl (areDigits first (.head _))⟩
  | nil =>
      cases fraction with
      | none => exact absurd rfl nonempty
      | some fraction => exact ⟨'.', _, rfl, .inr rfl⟩

/-- A numeral starts with a digit or a point, after its sign. -/
theorem exists_start :
    ∃ first rest, n.unsigned = first :: rest ∧ (first.isDigit = true ∨ first = '.') := by
  obtain ⟨first, rest, same, starts⟩ := n.exists_mantissa_start
  exact ⟨first, rest ++ n.exponentText, by rw [unsigned, same, List.cons_append], starts⟩

/-- Digits are neither points nor exponent marks. -/
theorem of_isDigit {c : Char} (isDigit : c.isDigit = true) :
    c ≠ '.' ∧ Decimal.isExponentMark c = false := by
  have areDigits : Digits.AreDigits [c] := by simpa [Digits.AreDigits]
  obtain ⟨noMark, noPoint⟩ := Decimal.of_mem_withSign 0 areDigits c (.head _)
  exact ⟨noPoint, noMark⟩

/-- The mark starts the exponent, so that what is no mark stops at it. -/
theorem stopsRun_exponentText : StopsRun (fun c => !Decimal.isExponentMark c) n.exponentText := by
  unfold exponentText
  cases n.exponent with
  | none => exact stopsRun_nil _
  | some exponent => exact stopsRun_cons.mpr (by simp [exponent.isMark])

/-- Digits stop at an exponent as well. -/
theorem stopsRun_of_marks {rest : List Char}
    (stops : StopsRun (fun c => !Decimal.isExponentMark c) rest) : StopsRun Char.isDigit rest := by
  intro c isFirst
  have isMark := stops c isFirst
  rw [Bool.eq_false_iff]
  intro isDigit
  simp [(of_isDigit isDigit).2] at isMark

/-- The signed digits of an exponent are its integer. -/
theorem readInt?_exponent (exponent : Exponent) :
    Digits.readInt? (exponent.sign.text ++ exponent.digits) = some exponent.value := by
  obtain ⟨mark, sign, digits, isMark, areDigits, nonempty⟩ := exponent
  cases sign with
  | none => exact Numeric.readInt?_signed false areDigits nonempty
  | minus => exact Numeric.readInt?_signed true areDigits nonempty
  | plus =>
      have all : digits.all Char.isDigit = true := List.all_eq_true.mpr areDigits
      simp [Digits.readInt?, Sign.text, Exponent.value, Double.signed, Sign.isNegative, nonempty,
        all]

/-- A decimal has the exponent of its numeral. -/
theorem readExponent?_decimal :
    Decimal.readExponent? n.exponentText = some n.exponentValue := by
  unfold exponentText exponentValue
  cases n.exponent with
  | none => rfl
  | some exponent => exact readInt?_exponent exponent

/-- So has a double. -/
theorem readExponent?_double :
    Double.readExponent? n.exponentText = some n.exponentValue := by
  unfold exponentText exponentValue
  cases n.exponent with
  | none => rfl
  | some exponent =>
      have isMark : exponent.mark = 'e' ∨ exponent.mark = 'E' := by
        simpa [Decimal.isExponentMark] using exponent.isMark
      exact (if_pos isMark).trans (readInt?_exponent exponent)

/-! ### Doubles -/

section Doubles

variable {whole fraction rest : List Char} {exponent : Int}

/-- Digits alone are cut off in front of an exponent. -/
theorem readUnsigned?_whole (negative : Bool) (areDigits : Digits.AreDigits whole)
    (nonempty : whole ≠ []) (stops : StopsRun (fun c => !Decimal.isExponentMark c) rest)
    (read : Double.readExponent? rest = some exponent) :
    Double.readUnsigned? negative (whole ++ rest) =
      some (Double.ofDecimal negative (Digits.value whole) exponent) := by
  have stopsDigits := stopsRun_of_marks stops
  rw [Double.readUnsigned?, takeWhile_run areDigits stopsDigits,
    dropWhile_run areDigits stopsDigits]
  split
  next fraction behind same =>
    split at same
    next => exact absurd (stopsRun_cons.mp stops) (by decide)
    next =>
      cases same
      simp [nonempty, read]

/-- Digits with a point among them are cut apart in front of an exponent. -/
theorem readUnsigned?_pointed (negative : Bool) (areDigits : Digits.AreDigits (whole ++ fraction))
    (nonempty : whole ++ fraction ≠ [])
    (stops : StopsRun (fun c => !Decimal.isExponentMark c) rest)
    (read : Double.readExponent? rest = some exponent) :
    Double.readUnsigned? negative (whole ++ '.' :: (fraction ++ rest)) =
      some (Double.ofDecimal negative (Digits.value (whole ++ fraction))
        (exponent - fraction.length)) := by
  obtain ⟨wholeDigits, fractionDigits⟩ := Digits.areDigits_append.mp areDigits
  have stopsPoint : StopsRun Char.isDigit ('.' :: (fraction ++ rest)) := stopsRun_cons.mpr rfl
  have stopsDigits := stopsRun_of_marks stops
  have some : ¬(whole = [] ∧ fraction = []) := by simpa using nonempty
  rw [Double.readUnsigned?, takeWhile_run wholeDigits stopsPoint,
    dropWhile_run wholeDigits stopsPoint]
  simp only [takeWhile_run fractionDigits stopsDigits, dropWhile_run fractionDigits stopsDigits,
    if_neg some, read]
  rfl

end Doubles

/-- Without its sign, a numeral is the double that its decimal is rounded to. -/
theorem readUnsigned?_unsigned (negative : Bool) :
    Double.readUnsigned? negative n.unsigned =
      some (Double.ofDecimal negative (Digits.value n.digits) (-n.scale)) := by
  have read := n.readExponent?_double
  have stops := n.stopsRun_exponentText
  have scale : -n.scale = n.exponentValue - (n.fraction.getD []).length := Int.neg_sub ..
  rw [scale]
  have areDigits := n.areDigits
  have nonempty := n.nonempty
  rw [unsigned, mantissa, digits]
  generalize n.fraction = point at areDigits nonempty ⊢
  cases point with
  | none =>
      rw [Option.getD_none, List.append_nil] at areDigits nonempty
      have cut := readUnsigned?_whole negative areDigits nonempty stops read
      simpa using cut
  | some fraction =>
      have cut := readUnsigned?_pointed negative areDigits nonempty stops read
      simpa using cut

/-- What a text is read as that starts with a digit or a point after an optional sign. -/
theorem read?_of_start (sign : Sign) {first : Char} (starts : first.isDigit = true ∨ first = '.')
    (rest : List Char) :
    Double.read? (sign.text ++ first :: rest) =
      Double.readUnsigned? sign.isNegative (first :: rest) := by
  rw [← Numeric.readMagnitude?_of_start sign.isNegative starts]
  cases sign with
  | none =>
      rw [Sign.text, List.nil_append, Double.read?]
      · rfl
      all_goals
        intro _ same
        rw [(List.cons.inj same).1] at starts
        exact absurd starts (by decide)
  | plus => rfl
  | minus => rfl

/-- A numeral is the double that its decimal is rounded to. -/
theorem read?_double :
    Double.read? n.text =
      some (Double.ofDecimal n.sign.isNegative (Digits.value n.digits) (-n.scale)) := by
  obtain ⟨first, rest, same, starts⟩ := n.exists_start
  rw [text, same, read?_of_start n.sign starts, ← same, readUnsigned?_unsigned]

end Numeral

end TextTemplate
