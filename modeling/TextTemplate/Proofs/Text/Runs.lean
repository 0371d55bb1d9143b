import Mathlib.Algebra.Group.Nat.Defs
import TextTemplate.Text.Blank
import TextTemplate.Text.Digits

/-! # Runs of characters

Reading cuts texts at the end of a run: the longest start of a text whose characters are all of one
kind. A run that something else follows is cut off as it is. Runs of decimal digits are what numbers
are written as, and reading them gives the numbers back. -/

namespace TextTemplate

/-! ### Runs -/

/-- Whether a text does not start with a character of a kind. -/
def StopsRun (kind : Char → Bool) (rest : List Char) : Prop := ∀ c ∈ rest.head?, kind c = false

@[simp] theorem stopsRun_nil (kind : Char → Bool) : StopsRun kind [] := by
  simp [StopsRun]

@[simp] theorem stopsRun_cons {kind : Char → Bool} {c : Char} {rest : List Char} :
    StopsRun kind (c :: rest) ↔ kind c = false := by
  simp [StopsRun]

/-- Where a run is dropped, something else follows. -/
theorem stopsRun_dropWhile (kind : Char → Bool) (text : List Char) :
    StopsRun kind (text.dropWhile kind) := by
  intro c isFirst
  have first := List.head?_dropWhile_not kind text
  rw [isFirst] at first
  simpa using first

/-- A text is a run in front of something else. -/
theorem exists_run (kind : Char → Bool) (text : List Char) :
    ∃ run rest : List Char, text = run ++ rest ∧ (∀ c ∈ run, kind c = true) ∧ StopsRun kind rest :=
  ⟨text.takeWhile kind, text.dropWhile kind, List.takeWhile_append_dropWhile.symm,
    List.all_eq_true.mp List.all_takeWhile, stopsRun_dropWhile kind text⟩

section Runs

variable {kind : Char → Bool} {run rest : List Char}

/-- A run in front of something else is taken whole. -/
theorem takeWhile_run (isRun : ∀ c ∈ run, kind c = true) (stops : StopsRun kind rest) :
    (run ++ rest).takeWhile kind = run := by
  rw [List.takeWhile_append_of_pos isRun]
  cases rest with
  | nil => simp
  | cons c rest => simp [stopsRun_cons.mp stops]

/-- What stands behind a run is left when the run is dropped. -/
theorem dropWhile_run (isRun : ∀ c ∈ run, kind c = true) (stops : StopsRun kind rest) :
    (run ++ rest).dropWhile kind = rest := by
  rw [List.dropWhile_append_of_pos isRun]
  cases rest with
  | nil => simp
  | cons c rest => simp [stopsRun_cons.mp stops]

end Runs

/-! ### Digits -/

namespace Digits

/-- Whether a text consists of decimal digits. -/
def AreDigits (digits : List Char) : Prop := ∀ c ∈ digits, c.isDigit = true

@[simp] theorem areDigits_nil : AreDigits [] := by
  simp [AreDigits]

@[simp] theorem areDigits_append {left right : List Char} :
    AreDigits (left ++ right) ↔ AreDigits left ∧ AreDigits right := by
  simp only [AreDigits, List.mem_append, or_imp, forall_and]

@[simp] theorem areDigits_replicate_zero (count : Nat) : AreDigits (List.replicate count '0') := by
  intro c isZero
  rw [List.eq_of_mem_replicate isZero]
  decide

/-- Numbers are written as digits. -/
theorem areDigits_ofNat (number : Nat) : AreDigits (ofNat number) := fun _ isDigit =>
  Nat.isDigit_of_mem_toDigits (by decide) (by decide) isDigit

/-- Every number has a digit. -/
theorem ofNat_ne_nil (number : Nat) : ofNat number ≠ [] := Nat.toDigits_ne_nil

/-- The value of digits is the number that the library reads from them. -/
theorem value_eq (digits : List Char) : value digits = Nat.ofDigitChars 10 digits 0 := by
  rw [value, Nat.ofDigitChars_eq_foldl]
  rfl

/-- Numbers are read back from the digits that they are written as. -/
@[simp] theorem value_ofNat (number : Nat) : value (ofNat number) = number := by
  rw [value_eq, ofNat, Nat.ofDigitChars_ten_toDigits]

/-- Digits in front of others count as often as the others' places say. -/
theorem value_append (left right : List Char) :
    value (left ++ right) = 10 ^ right.length * value left + value right := by
  rw [value_eq, Nat.ofDigitChars_append, Nat.ofDigitChars_eq_ofDigitChars_zero, value_eq, value_eq]

@[simp] theorem value_nil : value [] = 0 := rfl

/-- A digit is at most nine. -/
theorem value_singleton_le {c : Char} (isDigit : c.isDigit = true) : value [c] ≤ 9 := by
  have bound : c.toNat ≤ '9'.toNat := (of_decide_eq_true (Bool.and_eq_true_iff.mp isDigit).2 :)
  have digit : value [c] = c.toNat - '0'.toNat := Nat.zero_add _
  rw [digit]
  exact Nat.sub_le_sub_right bound '0'.toNat

/-- Digits spell a number that is less than the power of ten of their length. -/
theorem value_lt {digits : List Char} (areDigits : AreDigits digits) :
    value digits < 10 ^ digits.length := by
  induction digits with
  | nil => decide
  | cons c rest ih =>
      have first := value_singleton_le (areDigits c (.head _))
      have others := ih fun d isMember => areDigits d (.tail _ isMember)
      have product := Nat.mul_le_mul_left (10 ^ rest.length) first
      rw [← List.singleton_append, value_append, List.length_append, List.length_singleton,
        Nat.add_comm 1, Nat.pow_succ]
      omega

@[simp] theorem value_replicate_zero (count : Nat) : value (List.replicate count '0') = 0 := by
  rw [value_eq, Nat.ofDigitChars_replicate_zero, Nat.mul_zero]

/-- Only zero is written with a zero in front. -/
theorem head?_ofNat {number : Nat} (positive : 0 < number) :
    (ofNat number).head? ≠ some '0' := by
  induction number using Nat.strongRecOn with
  | ind number ih =>
      rw [ofNat, Nat.toDigits_eq_if (by decide)]
      split
      next small =>
        have nonzero : ∀ digit, digit < 10 → 0 < digit → Nat.digitChar digit ≠ '0' := by decide
        simpa using nonzero number small positive
      next large =>
        have shorter := ih (number / 10) (by omega) (by omega)
        rw [ofNat] at shorter
        cases leading : Nat.toDigits 10 (number / 10) with
        | nil => exact absurd leading (ofNat_ne_nil _)
        | cons c rest => simpa [leading] using shorter

/-- Zero is written as a single digit. -/
theorem length_of_leading_zero {number : Nat} (isZero : (ofNat number).head? = some '0') :
    (ofNat number).length = 1 := by
  rcases Nat.eq_zero_or_pos number with rfl | positive
  · rfl
  · exact absurd isZero (head?_ofNat positive)

/-- The number of digits of a number that is less than a power of ten. -/
theorem length_ofNat_le_iff {number count : Nat} (positive : 0 < count) :
    (ofNat number).length ≤ count ↔ number < 10 ^ count :=
  Nat.length_toDigits_le_iff (by decide) positive

/-! ### Integers -/

/-- Digits are read as the number that they spell. -/
theorem readInt?_digits {digits : List Char} (areDigits : AreDigits digits) (nonempty : digits ≠ []) :
    readInt? digits = some (value digits : Int) := by
  cases digits with
  | nil => exact absurd rfl nonempty
  | cons c rest =>
      have isDigit := areDigits c (.head _)
      have all : (c :: rest).all Char.isDigit = true := List.all_eq_true.mpr areDigits
      unfold readInt?
      split
      next same => cases same; cases isDigit
      next same => cases same; cases isDigit
      next => simp [all]

/-- Integers are read back from what they are written as. -/
@[simp] theorem readInt?_ofInt (number : Int) : readInt? (ofInt number) = some number := by
  have all : (ofNat number.natAbs).all Char.isDigit = true :=
    List.all_eq_true.mpr (areDigits_ofNat _)
  unfold ofInt
  split
  next negative =>
    have magnitude : -(number.natAbs : Int) = number := by omega
    simp only [readInt?, ne_eq, ofNat_ne_nil, not_false_eq_true, all, and_self, if_true,
      value_ofNat]
    exact congrArg some magnitude
  next positive =>
    rw [readInt?_digits (areDigits_ofNat _) (ofNat_ne_nil _), value_ofNat]
    exact congrArg some (by omega)

/-- Digits are digits apart from any underscores. -/
theorem readGrouped?_digits {digits : List Char} (areDigits : AreDigits digits)
    (nonempty : digits ≠ []) : readGrouped? digits = some (value digits) := by
  cases digits with
  | nil => exact absurd rfl nonempty
  | cons c rest =>
      have isDigit := areDigits c (.head _)
      have others : rest.all (fun d => d.isDigit || d == '_') = true :=
        List.all_eq_true.mpr fun d isRest => by simp [areDigits d (.tail _ isRest)]
      have kept : (c :: rest).filter (· ≠ '_') = c :: rest :=
        List.filter_eq_self.mpr fun d isMember => by
          have digit := areDigits d isMember
          simp only [decide_eq_true_eq]
          rintro rfl
          exact absurd digit (by decide)
      rw [readGrouped?, if_pos ⟨isDigit, others⟩, kept]

/-- Digits that may be grouped are read as the number that they spell. -/
theorem readGroupedInt?_digits {digits : List Char} (areDigits : AreDigits digits)
    (nonempty : digits ≠ []) : readGroupedInt? digits = some (value digits : Int) := by
  have reads := readGrouped?_digits areDigits nonempty
  unfold readGroupedInt?
  split
  next => exact absurd (areDigits '-' (.head _)) (by decide)
  next => exact absurd (areDigits '+' (.head _)) (by decide)
  next => simp [reads]

/-- Integers that may be grouped are read back as well. -/
@[simp] theorem readGroupedInt?_ofInt (number : Int) :
    readGroupedInt? (ofInt number) = some number := by
  unfold ofInt
  split
  next negative =>
    have magnitude : -(number.natAbs : Int) = number := by omega
    have reads := readGrouped?_digits (areDigits_ofNat number.natAbs) (ofNat_ne_nil _)
    simp only [readGroupedInt?, reads, value_ofNat]
    exact congrArg some magnitude
  next positive =>
    rw [readGroupedInt?_digits (areDigits_ofNat _) (ofNat_ne_nil _), value_ofNat]
    exact congrArg some (by omega)

end Digits

end TextTemplate
