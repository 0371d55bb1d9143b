import Mathlib.Data.List.TakeDrop
import TextTemplate.Text.Blank

/-! # Texts as bytes

The bytes of a text in UTF-8, and the two accesses that can go wrong in them: reading the byte at
an index, and cutting out what stands between two offsets. An index has to lie inside the text, and
an offset at the edge of a character. A character of several bytes consists of bytes from 128 on
only, so no byte of it is mistaken for a character of its own. -/

namespace TextTemplate

/-! ### Lengths -/

attribute [local simp] byteLength

/-- The bytes of two texts add up. -/
theorem byteLength_append (left right : List Char) :
    byteLength (left ++ right) = byteLength left + byteLength right := by
  induction left with
  | nil => exact (Nat.zero_add _).symm
  | cons c rest ih => rw [List.cons_append, byteLength, byteLength, ih, Nat.add_assoc]

/-- Only the empty text takes no bytes. -/
theorem byteLength_eq_zero_iff {text : List Char} : byteLength text = 0 ↔ text = [] := by
  cases text with
  | nil => simp
  | cons c rest => simp [Nat.ne_of_gt c.utf8Size_pos]

/-- A character takes at least one byte. -/
theorem length_le_byteLength (text : List Char) : text.length ≤ byteLength text := by
  induction text with
  | nil => exact Nat.le_refl _
  | cons c rest ih =>
      rw [List.length_cons, byteLength]
      have := c.utf8Size_pos
      omega

/-- A character below 128 takes one byte. -/
theorem utf8Size_ascii {c : Char} (ascii : c.toNat < 128) : c.utf8Size = 1 := by
  rw [Char.utf8Size_eq_one_iff, UInt32.le_iff_toNat_le]
  exact Nat.le_of_lt_succ ascii

/-- A text of such characters has as many bytes as characters. -/
theorem byteLength_ascii {text : List Char} (ascii : ∀ c ∈ text, c.toNat < 128) :
    byteLength text = text.length := by
  induction text with
  | nil => rfl
  | cons c rest ih =>
      obtain ⟨here, there⟩ := List.forall_mem_cons.mp ascii
      rw [byteLength, ih there, utf8Size_ascii here, List.length_cons, Nat.add_comm]

/-! ### Bytes -/

/-- The bytes of a character, each as the character that has it as its code. -/
def charBytes (c : Char) : List Char := (String.utf8EncodeChar c).map Char.ofUInt8

/-- The bytes of a text. -/
def bytes (text : List Char) : List Char := text.flatMap charBytes

section Bytes

variable {c : Char}

@[simp] theorem length_charBytes (c : Char) : (charBytes c).length = c.utf8Size := by
  simp [charBytes]

/-- A character below 128 is a byte of its own. -/
theorem charBytes_ascii (ascii : c.toNat < 128) : charBytes c = [c] := by
  have low : c.val.toNat ≤ 127 := Nat.le_of_lt_succ ascii
  have same : Char.ofUInt8 (UInt8.ofNat c.val.toNat) = c := by
    apply Char.ext
    apply UInt32.toNat_inj.mp
    change (UInt8.ofNat c.val.toNat).toNat = c.val.toNat
    rw [UInt8.toNat_ofNat', Nat.mod_eq_of_lt (by omega)]
  rw [charBytes, String.utf8EncodeChar, if_pos low, List.map_singleton, same]

/-- The bytes of any other character are from 128 on. -/
theorem wide_charBytes (wide : 128 ≤ c.toNat) : ∀ byte ∈ charBytes c, 128 ≤ byte.toNat := by
  -- Every byte is a remainder with a mark of at least 128 added, and still less than 256.
  have marked : ∀ rest mark : Nat, 128 ≤ mark → rest + mark < 256 →
      128 ≤ (Char.ofUInt8 (UInt8.ofNat (rest + mark))).toNat := fun rest mark isMark fits => by
    change 128 ≤ (UInt8.ofNat (rest + mark)).toNat
    rw [UInt8.toNat_ofNat', Nat.mod_eq_of_lt fits]
    omega
  have notLow : ¬c.val.toNat ≤ 127 := Nat.not_le.mpr wide
  rw [charBytes, String.utf8EncodeChar, if_neg notLow]
  split
  · simp only [List.map_cons, List.map_nil, List.forall_mem_cons]
    exact ⟨marked _ _ (by omega) (by omega), marked _ _ (by omega) (by omega), nofun⟩
  · split
    · simp only [List.map_cons, List.map_nil, List.forall_mem_cons]
      exact ⟨marked _ _ (by omega) (by omega), marked _ _ (by omega) (by omega),
        marked _ _ (by omega) (by omega), nofun⟩
    · simp only [List.map_cons, List.map_nil, List.forall_mem_cons]
      exact ⟨marked _ _ (by omega) (by omega), marked _ _ (by omega) (by omega),
        marked _ _ (by omega) (by omega), marked _ _ (by omega) (by omega), nofun⟩

/-- The bytes of a text are those of its parts. -/
theorem bytes_append (left right : List Char) : bytes (left ++ right) = bytes left ++ bytes right :=
  List.flatMap_append

/-- The bytes of a text start with those of its first character. -/
theorem bytes_cons (c : Char) (rest : List Char) : bytes (c :: rest) = charBytes c ++ bytes rest :=
  List.flatMap_cons

/-- A text of characters below 128 is made of its bytes. -/
theorem bytes_ascii {text : List Char} (ascii : ∀ c ∈ text, c.toNat < 128) : bytes text = text := by
  induction text with
  | nil => rfl
  | cons c rest ih =>
      obtain ⟨here, there⟩ := List.forall_mem_cons.mp ascii
      rw [bytes_cons, charBytes_ascii here, ih there, List.singleton_append]

@[simp] theorem length_bytes (text : List Char) : (bytes text).length = byteLength text := by
  induction text with
  | nil => rfl
  | cons c rest ih => rw [bytes_cons, List.length_append, length_charBytes, ih, byteLength]

end Bytes

/-! ### Bytes as characters -/

/-- Whether only characters below 128 are of a kind, so that bytes can be tested for it. -/
def IsNarrow (kind : Char → Bool) : Prop := ∀ c, kind c = true → c.toNat < 128

/-- Digits are characters of one byte. -/
theorem isNarrow_isDigit : IsNarrow Char.isDigit := fun c isDigit => by
  simp only [Char.isDigit, Bool.and_eq_true, decide_eq_true_eq, UInt32.le_iff_toNat_le] at isDigit
  exact Nat.lt_of_le_of_lt isDigit.2 (by decide)

/-- So are letters. -/
theorem isNarrow_isAlpha : IsNarrow Char.isAlpha := fun c isAlpha => by
  rcases Bool.or_eq_true_iff.mp isAlpha with isUpper | isLower
  · have le : c.val ≤ 'Z'.val := (of_decide_eq_true isUpper).2
    exact Nat.lt_of_le_of_lt (UInt32.le_iff_toNat_le.mp le) (by decide)
  · have le : c.val ≤ 'z'.val := of_decide_eq_true (Bool.and_eq_true_iff.mp isLower).2
    exact Nat.lt_of_le_of_lt (UInt32.le_iff_toNat_le.mp le) (by decide)

/-- A single character below 128 is narrow as a kind. -/
theorem isNarrow_beq {symbol : Char} (ascii : symbol.toNat < 128) : IsNarrow (· == symbol) :=
  fun c same => by rwa [eq_of_beq same]

/-- So are the characters of either of two such kinds. -/
theorem IsNarrow.or {kind other : Char → Bool} (first : IsNarrow kind) (second : IsNarrow other) :
    IsNarrow fun c => kind c || other c := fun c either => by
  rcases Bool.or_eq_true_iff.mp either with here | there
  · exact first c here
  · exact second c there

/-- So are separators. -/
theorem isNarrow_isSeparator : IsNarrow isSeparator :=
  ((((isNarrow_beq (by decide)).or (isNarrow_beq (by decide))).or (isNarrow_beq (by decide))).or
    (isNarrow_beq (by decide))).or (isNarrow_beq (by decide))

/-- So are the characters that names start with. -/
theorem isNarrow_isNameStart : IsNarrow isNameStart :=
  isNarrow_isAlpha.or (isNarrow_beq (by decide))

/-- So are the characters of names. -/
theorem isNarrow_isNameChar : IsNarrow isNameChar :=
  (isNarrow_isAlpha.or isNarrow_isDigit).or (isNarrow_beq (by decide))

/-- The first byte of a character. -/
def lead (c : Char) : Char := (charBytes c).headD c

/-- A character of one byte is its first byte. -/
theorem lead_ascii {c : Char} (ascii : c.toNat < 128) : lead c = c := by
  rw [lead, charBytes_ascii ascii]
  rfl

/-- The first byte of a character is the first of its bytes. -/
theorem head?_charBytes (c : Char) : (charBytes c).head? = some (lead c) := by
  cases isBytes : charBytes c with
  | nil =>
      have := c.utf8Size_pos
      rw [← length_charBytes, isBytes] at this
      cases this
  | cons first others => rw [lead, isBytes]; rfl

/-- A first byte is of a narrow kind when its character is. -/
theorem IsNarrow.lead {kind : Char → Bool} (narrow : IsNarrow kind) (c : Char) :
    kind (lead c) = kind c := by
  by_cases ascii : c.toNat < 128
  · rw [lead_ascii ascii]
  · have wide := wide_charBytes (Nat.le_of_not_lt ascii) (TextTemplate.lead c)
      (List.mem_of_mem_head? (head?_charBytes c))
    rw [Bool.eq_false_iff.mpr fun here => ascii (narrow c here),
      Bool.eq_false_iff.mpr fun here => absurd (narrow _ here) (by omega)]

/-- And it is a character below 128 only when its character is. -/
theorem lead_eq_iff {symbol c : Char} (ascii : symbol.toNat < 128) :
    lead c = symbol ↔ c = symbol := by
  simpa using (isNarrow_beq ascii).lead c

/-! ### Reading a byte -/

/-- The byte at an index; `none` outside of the text. -/
def byte? (text : List Char) (index : Nat) : Option Char := (bytes text)[index]?

section Byte

variable {before rest : List Char} {c : Char} {text : List Char}

/-- The bytes behind a part of the text are those of what follows it. -/
theorem byte?_append (before rest : List Char) (index : Nat) :
    byte? (before ++ rest) (byteLength before + index) = byte? rest index := by
  rw [byte?, bytes_append, List.getElem?_append_right (by simp), length_bytes,
    Nat.add_sub_cancel_left, byte?]

/-- Behind the text there is no byte. -/
theorem byte?_eq_none_iff {index : Nat} : byte? text index = none ↔ byteLength text ≤ index := by
  rw [byte?, List.getElem?_eq_none_iff, length_bytes]

/-- Inside a character of several bytes all bytes are from 128 on. -/
theorem byte?_wide (rest : List Char) (wide : 128 ≤ c.toNat) {index : Nat}
    (inside : index < c.utf8Size) :
    ∃ byte, byte? (c :: rest) index = some byte ∧ 128 ≤ byte.toNat := by
  rw [← length_charBytes c] at inside
  refine ⟨(charBytes c)[index], ?_, wide_charBytes wide _ (List.getElem_mem inside)⟩
  rw [byte?, bytes_cons, List.getElem?_append_left inside, List.getElem?_eq_getElem inside]

end Byte

/-! ### Cutting -/

/-- A text divided behind its first `count` bytes; `none` inside a character and past the end. -/
def splitBytes? (count : Nat) : List Char → Option (List Char × List Char)
  | [] => if count = 0 then some ([], []) else none
  | c :: rest =>
      if count = 0 then some ([], c :: rest)
      else if c.utf8Size ≤ count then
        (splitBytes? (count - c.utf8Size) rest).map fun (before, after) => (c :: before, after)
      else none

/-- The text between two offsets: `none` if they are in the wrong order, or if one of them lies past
the end of the text or inside a character. -/
def cut? (text : List Char) (start stop : Nat) : Option (List Char) :=
  if start ≤ stop then
    (splitBytes? start text).bind fun (_, rest) => (splitBytes? (stop - start) rest).map (·.1)
  else none

/-- A text is divided at the edge of a character. -/
theorem splitBytes?_eq_some_iff {count : Nat} {text before after : List Char} :
    splitBytes? count text = some (before, after) ↔
      text = before ++ after ∧ byteLength before = count := by
  induction text generalizing count before with
  | nil =>
      rw [splitBytes?, Option.ite_none_right_eq_some, Option.some.injEq, Prod.mk.injEq,
        List.nil_eq_append_iff]
      constructor
      · rintro ⟨rfl, rfl, rfl⟩
        exact ⟨⟨rfl, rfl⟩, rfl⟩
      · rintro ⟨⟨rfl, rfl⟩, rfl⟩
        exact ⟨rfl, rfl, rfl⟩
  | cons c rest ih =>
      have positive := c.utf8Size_pos
      -- Whether the first character belongs to the front decides which branch the division takes.
      cases before with
      | nil =>
          rw [splitBytes?, byteLength]
          constructor
          · intro split
            split at split
            next isZero =>
              obtain ⟨-, rfl⟩ := Prod.mk.inj (Option.some.inj split)
              exact ⟨rfl, isZero.symm⟩
            next => split at split <;> simp at split
          · rintro ⟨rfl, rfl⟩
            rfl
      | cons first before =>
          rw [splitBytes?, byteLength, List.cons_append, List.cons.injEq]
          constructor
          · intro split
            split at split
            next => cases split
            next =>
              rw [Option.ite_none_right_eq_some, Option.map_eq_some_iff] at split
              obtain ⟨fits, ⟨before', after'⟩, split, same⟩ := split
              cases same
              obtain ⟨rfl, size⟩ := ih.mp split
              exact ⟨⟨rfl, rfl⟩, by omega⟩
          · rintro ⟨⟨rfl, rfl⟩, size⟩
            rw [if_neg (by omega), if_pos (by omega), ih.mpr ⟨rfl, by omega⟩]
            rfl

/-- What a cut gives is the part of the text between the two offsets. -/
theorem cut?_eq_some_iff {text part : List Char} {start stop : Nat} :
    cut? text start stop = some part ↔ ∃ before after, text = before ++ (part ++ after) ∧
      byteLength before = start ∧ stop = start + byteLength part := by
  simp only [cut?, Option.ite_none_right_eq_some, Option.bind_eq_some_iff, Option.map_eq_some_iff,
    Prod.exists, splitBytes?_eq_some_iff]
  constructor
  · rintro ⟨ordered, before, _, ⟨rfl, size⟩, _, after, ⟨rfl, length⟩, rfl⟩
    exact ⟨before, after, rfl, size, by omega⟩
  · rintro ⟨before, after, rfl, size, rfl⟩
    exact ⟨Nat.le_add_right _ _, before, _, ⟨rfl, size⟩, part, after, ⟨rfl, by omega⟩, rfl⟩

/-- What a cut gives stands in the text between the two offsets. -/
theorem exists_of_cut? {text part : List Char} {start stop : Nat}
    (here : cut? text start stop = some part) :
    ∃ before after, text = before ++ (part ++ after) ∧
      byteLength before = start ∧ stop = start + byteLength part :=
  cut?_eq_some_iff.mp here

/-- What stands in a text between two offsets is what the cut gives. -/
theorem cut?_of_parts {text part : List Char} {start stop : Nat} (before after : List Char)
    (isText : text = before ++ (part ++ after)) (isStart : byteLength before = start)
    (isStop : stop = start + byteLength part) : cut? text start stop = some part :=
  cut?_eq_some_iff.mpr ⟨before, after, isText, isStart, isStop⟩

/-- A part of a text is cut out between the offset where it starts and the one behind it. -/
theorem cut?_append (before part after : List Char) :
    cut? (before ++ (part ++ after)) (byteLength before) (byteLength before + byteLength part) =
      some part :=
  cut?_of_parts before after rfl rfl rfl

/-- Whether an offset lies at the edge of a character, the ends of the text included. -/
def IsEdge (text : List Char) (offset : Nat) : Prop :=
  ∃ before after, text = before ++ after ∧ byteLength before = offset

/-- There is a cut exactly between offsets that are in order and at the edges of characters. -/
theorem isSome_cut?_iff {text : List Char} {start stop : Nat} :
    (cut? text start stop).isSome ↔ start ≤ stop ∧ IsEdge text start ∧ IsEdge text stop := by
  constructor
  · intro isSome
    obtain ⟨part, isCut⟩ := Option.isSome_iff_exists.mp isSome
    obtain ⟨before, after, rfl, rfl, rfl⟩ := exists_of_cut? isCut
    exact ⟨Nat.le_add_right _ _, ⟨before, part ++ after, rfl, rfl⟩,
      ⟨before ++ part, after, by simp, byteLength_append before part⟩⟩
  · rintro ⟨ordered, ⟨before, rest, rfl, rfl⟩, ⟨left, after, same, rfl⟩⟩
    -- One of two parts in front of a text comes in front of the other: here the shorter one.
    obtain ⟨part, rfl, rfl⟩ | ⟨part, rfl, rfl⟩ := List.append_eq_append_iff.mp same
    · have isCut := cut?_append before part after
      rw [← byteLength_append] at isCut
      exact isCut ▸ rfl
    · rw [byteLength_append] at ordered
      obtain rfl := byteLength_eq_zero_iff.mp (show byteLength part = 0 by omega)
      have isCut := cut?_append left [] rest
      rw [byteLength, Nat.add_zero, List.nil_append] at isCut
      rw [List.append_nil, isCut]
      rfl

section Cuts

variable {text right : List Char} {start stop : Nat}

/-- A cut leads from the edge of a character to that of another one. -/
theorem isEdge_of_cut? {part : List Char} (here : cut? text start stop = some part) :
    IsEdge text start ∧ IsEdge text stop :=
  (isSome_cut?_iff.mp (here ▸ rfl)).2

/-- A cut ends behind its part. -/
theorem stop_of_cut? {part : List Char} (here : cut? text start stop = some part) :
    stop = start + byteLength part := by
  obtain ⟨_, _, _, _, isStop⟩ := exists_of_cut? here
  exact isStop

/-- A cut lies inside the text. -/
theorem le_of_cut? {part : List Char} (here : cut? text start stop = some part) :
    stop ≤ byteLength text := by
  obtain ⟨_, _, rfl, rfl, rfl⟩ := exists_of_cut? here
  simp only [byteLength_append]
  omega

/-- The first part of a cut is a cut. -/
theorem cut?_left (left : List Char) (here : cut? text start stop = some (left ++ right)) :
    cut? text start (start + byteLength left) = some left := by
  obtain ⟨before, after, rfl, rfl, -⟩ := exists_of_cut? here
  rw [List.append_assoc]
  exact cut?_append _ _ _

/-- The rest of a cut is a cut. -/
theorem cut?_right (left : List Char) (here : cut? text start stop = some (left ++ right)) :
    cut? text (start + byteLength left) stop = some right := by
  obtain ⟨before, after, rfl, rfl, rfl⟩ := exists_of_cut? here
  exact cut?_of_parts (before ++ left) after (by simp) (byteLength_append _ _) (by
    rw [byteLength_append, Nat.add_assoc])

/-- Behind its first character, a cut goes on. -/
theorem cut?_next {c : Char} (here : cut? text start stop = some (c :: right)) :
    cut? text (start + c.utf8Size) stop = some right := cut?_right [c] here

/-- The first character of a cut ends inside it. -/
theorem next_le_of_cut? {c : Char} (here : cut? text start stop = some (c :: right)) :
    start + c.utf8Size ≤ stop := by
  rw [stop_of_cut? here, byteLength]
  omega

/-- Behind characters that are bytes of their own, a cut goes on as many bytes later. -/
theorem cut?_ascii {left : List Char} (ascii : ∀ c ∈ left, c.toNat < 128)
    (here : cut? text start stop = some (left ++ right)) :
    cut? text (start + left.length) stop = some right := by
  rw [← byteLength_ascii ascii]
  exact cut?_right left here

/-- Behind a character that is a byte of its own, a cut goes on with the next byte. -/
theorem cut?_cons {c : Char} (ascii : c.toNat < 128)
    (here : cut? text start stop = some (c :: right)) :
    cut? text (start + 1) stop = some right := by
  have behind := cut?_right [c] here
  rwa [byteLength, utf8Size_ascii ascii] at behind

/-- Two cuts of which the second one starts where the first one stops make up one. -/
theorem cut?_join {left : List Char} {middle : Nat} (first : cut? text start middle = some left)
    (second : cut? text middle stop = some right) :
    cut? text start stop = some (left ++ right) := by
  obtain ⟨before, after, isText, isStart, isMiddle⟩ := exists_of_cut? first
  obtain ⟨before', after', isText', isMiddle', isStop⟩ := exists_of_cut? second
  -- The text is divided at the middle in one way only.
  have split : splitBytes? middle text = some (before ++ left, after) :=
    splitBytes?_eq_some_iff.mpr ⟨by rw [isText, List.append_assoc], by
      rw [byteLength_append, isStart, isMiddle]⟩
  rw [splitBytes?_eq_some_iff.mpr ⟨isText', isMiddle'⟩] at split
  obtain ⟨-, rfl⟩ := Prod.mk.inj (Option.some.inj split)
  exact cut?_of_parts before after' (by rw [isText, List.append_assoc]) isStart (by
    rw [byteLength_append, isStop, isMiddle, Nat.add_assoc])

/-- A cut of a part is one of the text. -/
theorem cut?_of_part {part taken : List Char} {first last : Nat}
    (here : cut? text start stop = some part) (inside : cut? part first last = some taken) :
    cut? text (start + first) (start + last) = some taken := by
  obtain ⟨before, after, rfl, rfl, -⟩ := exists_of_cut? here
  obtain ⟨left, right, rfl, rfl, rfl⟩ := exists_of_cut? inside
  exact cut?_of_parts (before ++ left) (right ++ after) (by simp) (byteLength_append _ _)
    (Nat.add_assoc _ _ _).symm

/-- The whole text is a cut. -/
theorem cut?_whole (text : List Char) : cut? text 0 (byteLength text) = some text :=
  cut?_of_parts [] [] (by simp) rfl (Nat.zero_add _).symm

/-- The byte at the start of a cut is the first one of its first character. -/
theorem byte?_of_cut? {c : Char} (here : cut? text start stop = some (c :: right)) :
    byte? text start = some (lead c) := by
  obtain ⟨before, after, rfl, rfl, -⟩ := exists_of_cut? here
  rw [← Nat.add_zero (byteLength before), byte?_append, byte?, List.cons_append, bytes_cons,
    List.getElem?_append_left (by simpa using c.utf8Size_pos), ← List.head?_eq_getElem?,
    head?_charBytes]

/-- The byte at the start of the rest of a text is the first one of what follows, if anything. -/
theorem byte?_rest {rest : List Char} (here : cut? text start (byteLength text) = some rest) :
    byte? text start = rest.head?.map lead := by
  cases rest with
  | nil =>
      have isStop := stop_of_cut? here
      exact byte?_eq_none_iff.mpr (by rw [isStop]; exact Nat.le_refl _)
  | cons c more => exact byte?_of_cut? here

/-- What makes no difference between a byte from 128 on and the one after it makes none over the
rest of a character of several bytes. -/
theorem eq_of_wide {α : Type} {f : Nat → α} {c : Char}
    (passes : ∀ index byte, byte? text index = some byte → 128 ≤ byte.toNat →
      f index = f (index + 1))
    (here : cut? text start stop = some (c :: right)) (wide : 128 ≤ c.toNat) {inside : Nat}
    (fits : inside ≤ c.utf8Size) : f (start + inside) = f (start + c.utf8Size) := by
  obtain ⟨before, after, isText, rfl, -⟩ := exists_of_cut? here
  -- The induction is on the number of bytes that are left of the character.
  induction left : c.utf8Size - inside generalizing inside with
  | zero => rw [show inside = c.utf8Size by omega]
  | succ left ih =>
      obtain ⟨byte, isByte, isWide⟩ := byte?_wide (right ++ after) wide (show inside < _ by omega)
      rw [passes _ byte (by rw [isText, byte?_append, List.cons_append, isByte]) isWide,
        Nat.add_assoc, ih (by omega) (by omega)]

/-- The bytes of a cut stand between its offsets. -/
theorem bytes_of_cut? {part : List Char} (here : cut? text start stop = some part) :
    ((bytes text).take stop).drop start = bytes part := by
  obtain ⟨before, after, rfl, rfl, rfl⟩ := exists_of_cut? here
  rw [← List.append_assoc, bytes_append, bytes_append, List.take_left' (by simp),
    List.drop_left' (by simp)]

end Cuts

end TextTemplate
