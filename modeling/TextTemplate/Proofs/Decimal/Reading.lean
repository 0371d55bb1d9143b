import Mathlib.Data.List.TakeWhile
import TextTemplate.Decimal.Text
import TextTemplate.Proofs.Text.Runs

/-! # Decimals are read back

A decimal that is spelled with digits, a point and an exponent is read as the digits say, with the
scale of the spelling. The forms that decimals are written in are spellings of that kind. -/

namespace TextTemplate.Decimal

/-! ### Spellings -/

@[simp] theorem withSign_append (unscaled : Int) (text rest : List Char) :
    withSign unscaled text ++ rest = withSign unscaled (text ++ rest) := by
  unfold withSign
  split <;> rfl

/-- Digits and a sign have no exponent mark and no point. -/
theorem of_mem_withSign (unscaled : Int) {digits : List Char} (areDigits : Digits.AreDigits digits) :
    ∀ c ∈ withSign unscaled digits, isExponentMark c = false ∧ c ≠ '.' := by
  intro c isMember
  have classified : c = '-' ∨ c.isDigit = true := by
    unfold withSign at isMember
    split at isMember
    · exact (List.mem_cons.mp isMember).imp_right (areDigits c)
    · exact .inr (areDigits c isMember)
  constructor
  · rw [Bool.eq_false_iff]
    intro isMark
    rcases (by simpa [isExponentMark] using isMark : c = 'e' ∨ c = 'E') with rfl | rfl <;>
      exact absurd classified (by decide)
  · rintro rfl
    exact absurd classified (by decide)

/-- Digits with a sign are the integer of that sign. -/
theorem readGroupedInt?_withSign {unscaled : Int} {digits : List Char}
    (areDigits : Digits.AreDigits digits) (nonempty : digits ≠ [])
    (same : Digits.value digits = unscaled.natAbs) :
    Digits.readGroupedInt? (withSign unscaled digits) = some unscaled := by
  unfold withSign
  split
  next negative =>
    have magnitude : -(unscaled.natAbs : Int) = unscaled := by omega
    simp only [Digits.readGroupedInt?, Digits.readGrouped?_digits areDigits nonempty, same]
    exact congrArg some magnitude
  next positive =>
    rw [Digits.readGroupedInt?_digits areDigits nonempty, same]
    exact congrArg some (by omega)

/-- What stands before an exponent is cut off as it is. -/
theorem cut_exponent (text : List Char) {exponent : List Char}
    (plain : ∀ c ∈ text, isExponentMark c = false)
    (starts : StopsRun (fun c => !isExponentMark c) exponent) :
    (text ++ exponent).takeWhile (fun c => !isExponentMark c) = text ∧
      (text ++ exponent).dropWhile (fun c => !isExponentMark c) = exponent := by
  have isRun : ∀ c ∈ text, (!isExponentMark c) = true := fun c isMember => by
    simp [plain c isMember]
  exact ⟨takeWhile_run isRun starts, dropWhile_run isRun starts⟩

/-- A spelling without a point has the scale of its exponent. -/
theorem read?_whole (unscaled : Int) (digits : List Char) {exponent : Int}
    {exponentText : List Char}
    (areDigits : Digits.AreDigits digits) (nonempty : digits ≠ [])
    (same : Digits.value digits = unscaled.natAbs)
    (starts : StopsRun (fun c => !isExponentMark c) exponentText)
    (read : readExponent? exponentText = some exponent)
    (fits : Digits.fitsWord (-exponent) = true) :
    read? (withSign unscaled (digits ++ exponentText)) = some ⟨unscaled, -exponent⟩ := by
  have members := of_mem_withSign unscaled areDigits
  obtain ⟨taken, dropped⟩ := cut_exponent _ (fun c isMember => (members c isMember).1) starts
  have noPoint : (withSign unscaled digits).dropWhile (· ≠ '.') = [] := by
    rw [List.dropWhile_eq_nil_iff]
    exact fun c isMember => by simpa using (members c isMember).2
  have split : splitPoint (withSign unscaled digits) = (withSign unscaled digits, 0) := by
    rw [splitPoint, noPoint]
  have integer := readGroupedInt?_withSign areDigits nonempty same
  rw [withSign_append] at taken dropped
  simp only [read?, taken, dropped, read, split, integer, bind, Option.bind, Int.natCast_zero,
    Int.zero_sub, fits, if_true, pure]

/-- A spelling with a point has the scale of its fraction, less its exponent. -/
theorem read?_pointed (unscaled : Int) (whole fraction : List Char) {exponent : Int}
    {exponentText : List Char}
    (areDigits : Digits.AreDigits (whole ++ fraction)) (nonempty : whole ≠ [])
    (same : Digits.value (whole ++ fraction) = unscaled.natAbs)
    (starts : StopsRun (fun c => !isExponentMark c) exponentText)
    (read : readExponent? exponentText = some exponent)
    (fits : Digits.fitsWord (fraction.length - exponent) = true) :
    read? (withSign unscaled (whole ++ '.' :: (fraction ++ exponentText))) =
      some ⟨unscaled, fraction.length - exponent⟩ := by
  obtain ⟨wholeDigits, fractionDigits⟩ := Digits.areDigits_append.mp areDigits
  have members := of_mem_withSign unscaled wholeDigits
  have fractionMembers := of_mem_withSign 0 fractionDigits
  -- Neither the sign nor a digit nor the point marks an exponent, so all of them are in front of
  -- it.
  obtain ⟨taken, dropped⟩ := cut_exponent (withSign unscaled (whole ++ '.' :: fraction))
    (fun c isMember => by
      rw [← withSign_append, List.mem_append, List.mem_cons] at isMember
      rcases isMember with isWhole | rfl | isFraction
      · exact (members c isWhole).1
      · rfl
      · exact (fractionMembers c isFraction).1) starts
  have isRun : ∀ c ∈ withSign unscaled whole, (decide (c ≠ '.')) = true := fun c isMember => by
    simpa using (members c isMember).2
  have stops : StopsRun (fun c => decide (c ≠ '.')) ('.' :: fraction) := by simp
  have kept : fraction.filter (· ≠ '_') = fraction :=
    List.filter_eq_self.mpr fun c isMember => by
      have isDigit := fractionDigits c isMember
      simp only [decide_eq_true_eq]
      rintro rfl
      exact absurd isDigit (by decide)
  have split : splitPoint (withSign unscaled (whole ++ '.' :: fraction)) =
      (withSign unscaled (whole ++ fraction), fraction.length) := by
    rw [splitPoint, ← withSign_append, dropWhile_run isRun stops, takeWhile_run isRun stops]
    simp only [kept, withSign_append]
  have integer := readGroupedInt?_withSign areDigits (by simp [nonempty]) same
  rw [withSign_append, List.append_assoc, List.cons_append] at taken dropped
  simp only [read?, taken, dropped, read, split, integer, bind, Option.bind, fits, if_true, pure]

/-! ### The interchange form -/

/-- The scale of a decimal that may be read is well within a word. -/
theorem fitsWord_of_bounded {scale : Int} (bounded : scale.natAbs ≤ 10000) :
    Digits.fitsWord scale = true := by
  have large : (10000 : Int) < Nat.pow 2 63 := by decide
  simp only [Digits.fitsWord, Bool.and_eq_true, decide_eq_true_eq]
  omega

/-- Powers of ten are positive. -/
theorem tenPow_pos (exponent : Nat) : 0 < tenPow exponent :=
  Int.natCast_pos.mpr (Nat.pow_pos (by decide))

@[simp] theorem natAbs_tenPow (exponent : Nat) : (tenPow exponent).natAbs = 10 ^ exponent := rfl

/-- A positive factor leaves the sign. -/
theorem withSign_mul_tenPow (unscaled : Int) (exponent : Nat) (text : List Char) :
    withSign (unscaled * tenPow exponent) text = withSign unscaled text := by
  have positive := tenPow_pos exponent
  have sign : unscaled * tenPow exponent < 0 ↔ unscaled < 0 :=
    ⟨fun negative => Int.neg_of_mul_neg_left negative positive,
      fun negative => Int.mul_neg_of_neg_of_pos negative positive⟩
  simp only [withSign, sign]

/-- Zeros behind digits are factors of ten. -/
theorem value_append_zeros (digits : List Char) (count : Nat) :
    Digits.value (digits ++ List.replicate count '0') = Digits.value digits * 10 ^ count := by
  rw [Digits.value_append, Digits.value_replicate_zero, List.length_replicate, Nat.add_zero,
    Nat.mul_comm]

/-- Zeros in front of digits do not count. -/
theorem value_zeros_append (digits : List Char) (count : Nat) :
    Digits.value (List.replicate count '0' ++ digits) = Digits.value digits := by
  rw [Digits.value_append, Digits.value_replicate_zero, Nat.mul_zero, Nat.zero_add]

/-- The mantissa of one digit before the point is read with the scale that its digits have. -/
theorem read?_scientific {unscaled scale : Int} {digits : List Char}
    (areDigits : Digits.AreDigits digits) (nonempty : digits ≠ [])
    (same : Digits.value digits = unscaled.natAbs) (bounded : scale.natAbs ≤ 10000) :
    read? (withSign unscaled (scientific digits (-(scale - digits.length + 1)))) =
      some ⟨unscaled, scale⟩ := by
  have starts (exponent : Int) :
      StopsRun (fun c => !isExponentMark c) ('E' :: Digits.ofInt exponent) := by
    simp [isExponentMark]
  have read (exponent : Int) : readExponent? ('E' :: Digits.ofInt exponent) = some exponent :=
    Digits.readInt?_ofInt exponent
  -- With one digit there is no point, and the spelling is that of a whole number.
  match digits with
  | [] => exact absurd rfl nonempty
  | [digit] =>
      have exact : -(-(scale - 1 + 1)) = scale := by omega
      have reads := read?_whole unscaled _ areDigits nonempty same (starts (-(scale - 1 + 1))) (read _)
        (by rw [exact]; exact fitsWord_of_bounded bounded)
      rw [exact] at reads
      simpa [scientific] using reads
  | first :: second :: rest =>
      have exact : ((second :: rest).length : Int) -
          -(scale - ((first :: second :: rest).length : Int) + 1) = scale := by
        simp only [List.length_cons]
        omega
      have reads := read?_pointed unscaled [first] _ areDigits (by simp) same
        (starts (-(scale - ((first :: second :: rest).length : Int) + 1))) (read _)
        (by rw [exact]; exact fitsWord_of_bounded bounded)
      rw [exact] at reads
      simpa [scientific] using reads

/-- A positive scale puts a point among the digits, with zeros in front where they do not reach it. -/
theorem plainDigits_of_pos (digits : List Char) {scale : Int} (positive : 0 < scale) :
    ∃ whole fraction zeros, plainDigits digits scale = whole ++ '.' :: fraction ∧ whole ≠ [] ∧
      (fraction.length : Int) = scale ∧
      whole ++ fraction = List.replicate zeros '0' ++ digits ∧
      zeros = scale.toNat + 1 - digits.length := by
  rw [plainDigits, if_neg (by omega)]
  generalize padding : scale.toNat + 1 - digits.length = zeros
  have length : (List.replicate zeros '0' ++ digits).length = zeros + digits.length := by simp
  have digitsBefore : 0 < zeros + digits.length - scale.toNat := by omega
  refine ⟨_, _, zeros, rfl, ?_, ?_, List.take_append_drop _ _, rfl⟩
  · intro empty
    have := congrArg List.length empty
    rw [List.length_take, length, List.length_nil] at this
    omega
  · rw [List.length_drop, length]
    omega

/-- Digits with zeros and a point where the scale wants them are read with that scale, or with none
if the zeros stand before the point. -/
theorem read?_plainDigits {unscaled scale : Int} {digits : List Char}
    (areDigits : Digits.AreDigits digits) (nonempty : digits ≠ [])
    (same : Digits.value digits = unscaled.natAbs) (bounded : scale.natAbs ≤ 10000) :
    read? (withSign unscaled (plainDigits digits scale)) =
      some (if scale ≤ 0 then ⟨unscaled * tenPow (-scale).toNat, 0⟩ else ⟨unscaled, scale⟩) := by
  by_cases whole : scale ≤ 0
  · rw [plainDigits, if_pos whole, if_pos whole]
    have reads := read?_whole (unscaled * tenPow (-scale).toNat)
      (digits ++ List.replicate (-scale).toNat '0') (by simp [areDigits])
      (by simp [nonempty])
      (by rw [value_append_zeros, same, Int.natAbs_mul, natAbs_tenPow]) (stopsRun_nil _) rfl rfl
    rwa [List.append_nil, withSign_mul_tenPow] at reads
  · rw [if_neg whole]
    obtain ⟨whole, fraction, zeros, text, nonempty, length, padded, -⟩ :=
      plainDigits_of_pos digits (Int.not_le.mp whole)
    have place : (fraction.length : Int) - 0 = scale := by omega
    have reads := read?_pointed unscaled whole fraction
      (by rw [padded]; simp [areDigits]) nonempty
      (by rw [padded, value_zeros_append, same]) (stopsRun_nil _) rfl
      (by rw [place]; exact fitsWord_of_bounded bounded)
    rwa [List.append_nil, place, ← text] at reads

/-- All digits with a positive exponent are read with the scale that the exponent says. -/
theorem read?_trailing {unscaled scale : Int} {digits : List Char}
    (areDigits : Digits.AreDigits digits) (nonempty : digits ≠ [])
    (same : Digits.value digits = unscaled.natAbs) (bounded : scale.natAbs ≤ 10000)
    (large : scale < 0) :
    read? (withSign unscaled (digits ++ ['e', '+'] ++ Digits.ofInt (-scale))) =
      some ⟨unscaled, scale⟩ := by
  have read : readExponent? ('e' :: '+' :: Digits.ofInt (-scale)) = some (-scale) := by
    have magnitude : ((-scale).natAbs : Int) = -scale := by omega
    have all : (Digits.ofNat (-scale).natAbs).all Char.isDigit = true :=
      List.all_eq_true.mpr (Digits.areDigits_ofNat _)
    rw [Digits.ofInt, if_neg (by omega), readExponent?]
    simp only [Digits.readInt?, ne_eq, Digits.ofNat_ne_nil, not_false_eq_true, all, and_self,
      if_true, Digits.value_ofNat, Option.map_some, Int.ofNat_eq_natCast, magnitude]
  have reads := read?_whole unscaled _ areDigits nonempty same
    (stopsRun_cons.mpr (by rfl)) read (by rw [Int.neg_neg]; exact fitsWord_of_bounded bounded)
  rw [Int.neg_neg] at reads
  simpa using reads

@[simp] theorem compare_self (d : Decimal) : d.compare d = .eq := by
  simp [compare]

/-- Zeros behind digits are digits of a larger number. -/
theorem ofNat_mul_pow {number : Nat} (positive : 0 < number) (count : Nat) :
    Digits.ofNat (number * 10 ^ count) = Digits.ofNat number ++ List.replicate count '0' := by
  induction count with
  | zero => simp
  | succ count ih =>
      have power : 0 < number * 10 ^ count := Nat.mul_pos positive (Nat.pow_pos (by decide))
      have large : 10 ≤ number * 10 ^ (count + 1) := by
        rw [pow_succ, ← mul_assoc]
        omega
      rw [Digits.ofNat, Nat.toDigits_eq_if (by decide), if_neg (by omega), pow_succ, ← mul_assoc,
        Nat.mul_div_cancel _ (by decide), Nat.mul_mod_left, ← Digits.ofNat, ih,
        List.replicate_succ', List.append_assoc]
      rfl

/-- The interchange form of an integer has the zeros that a negative scale stands for, if they are
few. -/
theorem dataText_units {unscaled scale : Int} (nonzero : unscaled ≠ 0) (whole : scale ≤ 0)
    (few : -scale ≤ trailingZeroLimit) :
    dataText ⟨unscaled * tenPow (-scale).toNat, 0⟩ = dataText ⟨unscaled, scale⟩ := by
  have positive : 0 < unscaled.natAbs := Int.natAbs_pos.mpr nonzero
  have nonzero' : unscaled * tenPow (-scale).toNat ≠ 0 :=
    Int.mul_ne_zero nonzero (Int.ne_of_gt (tenPow_pos _))
  have near (digits : List Char) (place : Int) (isWhole : place ≤ 0) :
      ¬leadingZeroLimit < place - digits.length := by
    simp only [leadingZeroLimit]
    omega
  simp only [dataText, if_neg nonzero, if_neg nonzero', if_neg (near _ _ whole),
    if_neg (near _ 0 (Int.le_refl 0)), if_neg (Int.not_lt.mpr few), if_neg (show
      ¬trailingZeroLimit < -0 by decide), withSign_mul_tenPow, Int.natAbs_mul, natAbs_tenPow,
    ofNat_mul_pow positive, plainDigits, if_pos whole, if_pos (Int.le_refl 0)]
  simp

/-- A decimal in the interchange form is read back as a decimal of the same value, whose scale is no
larger and whose interchange form is the same. -/
theorem read?_dataText {d : Decimal} (bounded : d.scale.natAbs ≤ 10000) :
    ∃ again : Decimal, read? d.dataText = some again ∧ again.scale.natAbs ≤ 10000 ∧
      again.compare d = .eq ∧ again.dataText = d.dataText := by
  have areDigits := Digits.areDigits_ofNat d.unscaled.natAbs
  have nonempty := Digits.ofNat_ne_nil d.unscaled.natAbs
  have same := Digits.value_ofNat d.unscaled.natAbs
  by_cases zero : d.unscaled = 0
  · have text : d.dataText = ['0'] := by rw [dataText, if_pos zero]
    refine ⟨⟨0, 0⟩, by rw [text]; rfl, by decide, ?_, by rw [text]; rfl⟩
    simp [compare, unscaledAt, zero]
  -- The cases are the notations: one digit before the point, an exponent, or all digits.
  by_cases small : leadingZeroLimit < d.scale - (Digits.ofNat d.unscaled.natAbs).length
  · refine ⟨d, ?_, bounded, compare_self d, rfl⟩
    rw [dataText, if_neg zero]
    simp only [if_pos small]
    exact read?_scientific areDigits nonempty same bounded
  by_cases large : trailingZeroLimit < -d.scale
  · refine ⟨d, ?_, bounded, compare_self d, rfl⟩
    rw [dataText, if_neg zero]
    simp only [if_neg small, if_pos large]
    refine read?_trailing areDigits nonempty same bounded ?_
    simp only [trailingZeroLimit] at large
    omega
  have read := read?_plainDigits areDigits nonempty same bounded
  have text : d.dataText =
      withSign d.unscaled (plainDigits (Digits.ofNat d.unscaled.natAbs) d.scale) := by
    rw [dataText, if_neg zero]
    simp only [if_neg small, if_neg large]
  rw [← text] at read
  by_cases whole : d.scale ≤ 0
  · rw [if_pos whole] at read
    -- The zeros before the point are digits now, so the scale has changed and the value has not.
    refine ⟨_, read, Nat.zero_le _, ?_, dataText_units zero whole (Int.not_lt.mp large)⟩
    have scale : max 0 d.scale = 0 := by omega
    simp [compare, unscaledAt, scale, tenPow]
  · rw [if_neg whole] at read
    exact ⟨d, read, bounded, compare_self d, rfl⟩

end TextTemplate.Decimal
