import TextTemplate.Double.Data
import TextTemplate.Proofs.Double.Shortest
import TextTemplate.Proofs.Json.Strings

/-! # Doubles are spelled as JSON numbers

Whatever the layout, plain or with an exponent, the text of a finite double is a number of JSON. -/

namespace TextTemplate.Double

variable {digits : List Char}

/-- Digits are a number of JSON with a point among them, or zeros on the side where they do not
reach it. -/
theorem isUnsigned_pointed (areDigits : Digits.AreDigits digits) (nonempty : digits ≠ [])
    {point : Int} (leading : digits.head? = some '0' → digits.length = 1 ∧ point = 1) :
    Json.IsUnsigned (pointed digits point) := by
  unfold pointed
  split
  next below =>
    exact ⟨['0'], '.' :: (List.replicate (-point).toNat '0' ++ digits), [],
      { sign := .inl rfl
        digits := by simp [Digits.AreDigits]
        nonempty := by simp
        leading := fun _ => rfl
        fraction := .digits (by simp [areDigits]) (by simp [nonempty])
        exponent := .none }, by simp⟩
  next above =>
    split
    next padded =>
      refine ⟨digits ++ List.replicate (point.toNat - digits.length) '0', ['.', '0'], [],
        { sign := .inl rfl
          digits := by simp [areDigits]
          nonempty := by simp [nonempty]
          leading := fun isZero => ?_
          fraction := .digits (by simp [Digits.AreDigits]) (by simp)
          exponent := .none }, by simp⟩
      -- Zero has its one digit in front of the point, so nothing is added behind it.
      cases digits with
      | nil => exact absurd rfl nonempty
      | cons first rest =>
          obtain ⟨alone, one⟩ := leading isZero
          simp [one] at alone ⊢
          simp [alone]
    next between =>
      refine ⟨digits.take point.toNat, '.' :: digits.drop point.toNat, [],
        { sign := .inl rfl
          digits := fun c isMember => areDigits c (List.mem_of_mem_take isMember)
          nonempty := ?_
          leading := fun isZero => ?_
          fraction := .digits (fun c isMember => areDigits c (List.mem_of_mem_drop isMember)) ?_
          exponent := .none }, by simp⟩
      · rw [Ne, List.take_eq_nil_iff]
        rintro (none | none)
        · omega
        · exact nonempty none
      · rw [List.head?_take, if_neg (by omega)] at isZero
        obtain ⟨alone, one⟩ := leading isZero
        omega
      · rw [Ne, List.drop_eq_nil_iff]
        omega

/-- The exponent of a scientific form always has its sign. -/
theorem isExponent_signed (exponent : Int) :
    Json.IsExponent
      ('e' :: if exponent < 0 then Digits.ofInt exponent else '+' :: Digits.ofInt exponent) := by
  have areDigits := Digits.areDigits_ofNat exponent.natAbs
  have nonempty := Digits.ofNat_ne_nil exponent.natAbs
  by_cases negative : exponent < 0
  · rw [if_pos negative, Digits.ofInt, if_pos negative]
    exact .minus areDigits nonempty
  · rw [if_neg negative, Digits.ofInt, if_neg negative]
    exact .plus areDigits nonempty

/-- Digits are a number of JSON with one of them before the point and an exponent. -/
theorem isUnsigned_scientific (areDigits : Digits.AreDigits digits) (nonempty : digits ≠ [])
    (exponent : Int) : Json.IsUnsigned (scientific digits exponent) := by
  have isExponent := isExponent_signed exponent
  match digits with
  | [] => exact absurd rfl nonempty
  | [digit] =>
      exact ⟨[digit], [], _,
        { sign := .inl rfl
          digits := areDigits
          nonempty := nonempty
          leading := fun _ => rfl
          fraction := .none
          exponent := isExponent }, rfl⟩
  | first :: second :: rest =>
      exact ⟨[first], '.' :: second :: rest, _,
        { sign := .inl rfl
          digits := fun c isMember => areDigits c (by simp_all)
          nonempty := by simp
          leading := fun _ => rfl
          fraction := .digits (fun c isMember => areDigits c (.tail _ isMember)) (by simp)
          exponent := isExponent }, rfl⟩

/-- The text of a finite double is a number of JSON. -/
theorem isNumber_dataText (negative : Bool) (place : Nat) :
    Json.IsNumber (dataText negative place) := by
  have unsigned (text : List Char) (isUnsigned : Json.IsUnsigned text) :
      Json.IsNumber (if negative then '-' :: text else text) := by
    cases negative
    · exact isUnsigned.isNumber
    · exact isUnsigned.minus
  have positive : place ≠ 0 → 0 < (shortest .even place).1 := fun nonzero =>
    shortest_pos .even (Nat.pos_of_ne_zero nonzero)
  unfold dataText
  generalize shortest .even place = found at positive
  obtain ⟨number, exponent⟩ := found
  have areDigits := Digits.areDigits_ofNat number
  have nonempty := Digits.ofNat_ne_nil number
  refine unsigned _ ?_
  split
  next => exact isUnsigned_pointed areDigits nonempty fun isZero =>
    ⟨Digits.length_of_leading_zero isZero, rfl⟩
  next nonzero =>
    split
    · exact isUnsigned_pointed areDigits nonempty fun isZero =>
        absurd isZero (Digits.head?_ofNat (positive nonzero))
    · exact isUnsigned_scientific areDigits nonempty _

end TextTemplate.Double
