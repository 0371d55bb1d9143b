import Mathlib.Data.List.DropRight
import Mathlib.Order.Monotone.Basic
import TextTemplate.Proofs.Checked.Position
import TextTemplate.Proofs.Source.Positions

/-! # What positions count

The line of an offset counts the line feeds in front of it, and its column the characters behind the
last of them. At the edges of characters this is all that there is to it, so that no two edges have
the same position. Inside of a character, all of its bytes but one are taken off the column, those
as well that are still to come, so the column may fall behind that of an offset in front of it; the
order of two offsets is compared with that of their positions exactly. -/

namespace TextTemplate

/-! ### The order of positions -/

/-- A position comes before another if it is in an earlier line, or in the same line and an earlier
column. -/
theorem Position.lt_iff {p q : Position} : p < q ↔
    p.line.toNat < q.line.toNat ∨
      p.line.toNat = q.line.toNat ∧ p.column.toNat < q.column.toNat := by
  rw [lt_iff_le_not_ge, le_iff, le_iff]
  omega

namespace Source

variable {source : Source} {text before after left right : List Char} {start stop offset : Nat}

/-! ### Counting -/

/-- The characters behind the last line feed of a text. -/
def lastLine (text : List Char) : List Char := text.rtakeWhile (· ≠ '\n')

/-- The last line of a text is no longer than the text. -/
theorem length_lastLine_le (text : List Char) : (lastLine text).length ≤ text.length :=
  (List.rtakeWhile_suffix _ text).length_le

/-- Characters without a line feed lengthen the last line. -/
theorem lastLine_append (noFeed : '\n' ∉ right) :
    lastLine (left ++ right) = lastLine left ++ right := by
  have others : ∀ c ∈ right.reverse, (fun c => decide (c ≠ '\n')) c = true := by
    intro c isMember
    apply decide_eq_true
    rintro rfl
    exact noFeed (List.mem_reverse.mp isMember)
  rw [lastLine, List.rtakeWhile, List.reverse_append, List.takeWhile_append_of_pos others,
    List.reverse_append, List.reverse_reverse]
  rfl

/-- Line and column count the line feeds of a text and the characters behind the last of them. -/
theorem foldl_advance_first (text : List Char) :
    text.foldl advance (1, 1) = (1 + text.count '\n', 1 + (lastLine text).length) := by
  induction text using List.reverseRecOn with
  | nil => rfl
  | append_singleton before c ih =>
      rw [List.foldl_append, ih, List.foldl_cons, List.foldl_nil, advance, List.count_append]
      by_cases isFeed : c = '\n'
      · subst isFeed
        have ended : lastLine (before ++ ['\n']) = [] :=
          List.rtakeWhile_concat_neg _ _ _ (by decide)
        rw [if_pos rfl, ended]
        rfl
      · have noFeed : '\n' ∉ [c] := by simpa using Ne.symm isFeed
        rw [if_neg isFeed, lastLine_append noFeed, List.count_eq_zero_of_not_mem noFeed,
          List.length_append, List.length_singleton]
        rfl

/-! ### Whole characters -/

/-- The characters of a text that end in front of an offset or at it. -/
def passed : List Char → Nat → List Char
  | [], _ => []
  | c :: rest, offset =>
      if c.utf8Size ≤ offset then c :: passed rest (offset - c.utf8Size) else []

/-- How many bytes of a character are still to come behind the one at an offset inside of it. At the
edges of characters there are none. -/
def pending : List Char → Nat → Nat
  | [], _ => 0
  | c :: rest, offset =>
      if c.utf8Size ≤ offset then pending rest (offset - c.utf8Size)
      else if offset = 0 then 0
      else c.utf8Size - 1 - offset

/-- What has been passed is the start of the text. -/
theorem prefix_passed (text : List Char) (offset : Nat) : passed text offset <+: text := by
  induction text generalizing offset with
  | nil => exact List.prefix_rfl
  | cons c rest ih =>
      rw [passed]
      split
      · exact (List.prefix_cons_inj c).mpr (ih _)
      · exact List.nil_prefix

/-- Behind a larger offset at least the same characters have been passed. -/
theorem passed_mono (text : List Char) (le : start ≤ stop) :
    passed text start <+: passed text stop := by
  induction text generalizing start stop with
  | nil => exact List.prefix_rfl
  | cons c rest ih =>
      rw [passed, passed]
      by_cases whole : c.utf8Size ≤ start
      · rw [if_pos whole, if_pos (Nat.le_trans whole le)]
        exact (List.prefix_cons_inj c).mpr (ih (Nat.sub_le_sub_right le _))
      · rw [if_neg whole]
        exact List.nil_prefix

/-- At the edge of a character, all characters in front of it have been passed. -/
theorem passed_append (before after : List Char) :
    passed (before ++ after) (byteLength before) = before := by
  induction before with
  | nil =>
      cases after with
      | nil => rfl
      | cons c rest => exact if_neg (Nat.not_le.mpr c.utf8Size_pos)
  | cons c before ih =>
      rw [List.cons_append, byteLength, passed, if_pos (Nat.le_add_right _ _),
        Nat.add_sub_cancel_left, ih]

/-- At the edge of a character, no bytes are still to come. -/
theorem pending_append (before after : List Char) :
    pending (before ++ after) (byteLength before) = 0 := by
  induction before with
  | nil =>
      cases after with
      | nil => rfl
      | cons c rest =>
          rw [List.nil_append, byteLength, pending, if_neg (Nat.not_le.mpr c.utf8Size_pos),
            if_pos rfl]
  | cons c before ih =>
      rw [List.cons_append, byteLength, pending, if_pos (Nat.le_add_right _ _),
        Nat.add_sub_cancel_left, ih]

/-! ### Positions -/

/-- The place of an offset is that of the characters passed, less the bytes to come. -/
theorem placeFrom_eq_passed (line : Nat) {column : Nat} (positive : 0 < column)
    (text : List Char) (offset : Nat) :
    placeFrom line column text offset =
      (((passed text offset).foldl advance (line, column)).1,
        ((passed text offset).foldl advance (line, column)).2 - 1 - pending text offset + 1) := by
  induction text generalizing line column offset with
  | nil =>
      rw [placeFrom, passed, pending, List.foldl_nil]
      exact Prod.ext rfl (by simp only; omega)
  | cons c rest ih =>
      have size := c.utf8Size_pos
      rw [placeFrom, passed, pending]
      by_cases whole : c.utf8Size ≤ offset
      · have further : offset ≠ 0 := by omega
        rw [if_neg further, if_pos whole, if_pos whole, if_pos whole, List.foldl_cons, advance]
        by_cases isFeed : c = '\n'
        · rw [if_pos isFeed, if_pos isFeed]
          exact ih _ Nat.one_pos _
        · rw [if_neg isFeed, if_neg isFeed]
          exact ih _ (Nat.succ_pos _) _
      · rw [if_neg whole, if_neg whole, if_neg whole, List.foldl_nil]
        by_cases atStart : offset = 0
        · rw [if_pos atStart, if_pos atStart]
          exact Prod.ext rfl (by simp only; omega)
        · -- The bytes still to come are taken off, but never more than the column has.
          rw [if_neg atStart, if_neg atStart]
          exact Prod.ext rfl (by simp only; omega)

/-- The position of any offset of a short text counts the characters passed, less the bytes to
come. -/
theorem toNat_position (short : source.size < 2 ^ 32 - 1) (offset : Nat) :
    (source.position offset).line.toNat = 1 + (passed source.text offset).count '\n' ∧
      (source.position offset).column.toNat =
        1 + ((lastLine (passed source.text offset)).length - pending source.text offset) := by
  -- There are fewer line feeds and characters than bytes, so that no count wraps around.
  have fewer := (prefix_passed source.text offset).length_le
  have bytes := length_le_byteLength source.text
  have feeds := List.count_le_length (a := '\n') (l := passed source.text offset)
  have columns := length_lastLine_le (passed source.text offset)
  rw [size] at short
  rw [position, placeFrom_eq_passed 1 Nat.one_pos, foldl_advance_first]
  simp only [UInt32.toNat_ofNat']
  omega

/-- The position behind the first characters of a short text counts them. -/
theorem toNat_position_of_eq_append (short : source.size < 2 ^ 32 - 1)
    (isText : source.text = before ++ after) :
    (source.position (byteLength before)).line.toNat = 1 + before.count '\n' ∧
      (source.position (byteLength before)).column.toNat = 1 + (lastLine before).length := by
  have counts := toNat_position short (byteLength before)
  rw [isText, passed_append, pending_append] at counts
  exact counts

/-- Offsets past the end have the position of the end. -/
theorem position_min (source : Source) (offset : Nat) :
    source.position (min offset source.size) = source.position offset := by
  rw [position, position, size, Checked.placeFrom_min]

/-- Positions at the edges of characters of a short text grow with the offset. -/
theorem position_strictMonoOn (short : source.size < 2 ^ 32 - 1) :
    StrictMonoOn source.position {offset | IsEdge source.text offset} := by
  intro start isStart stop isStop lt
  obtain ⟨part, here⟩ := Option.isSome_iff_exists.mp
    (isSome_cut?_iff.mpr ⟨Nat.le_of_lt lt, isStart, isStop⟩)
  obtain ⟨before, after, isText, rfl, rfl⟩ := cut?_eq_some_iff.mp here
  have nonempty : part ≠ [] := by
    rintro rfl
    rw [byteLength] at lt
    omega
  have first := toNat_position_of_eq_append short isText
  rw [← List.append_assoc] at isText
  have second := toNat_position_of_eq_append short isText
  rw [byteLength_append] at second
  rw [Position.lt_iff, first.1, first.2, second.1, second.2, List.count_append]
  -- Either a later line has been reached, or more characters of the same one.
  by_cases isFeed : '\n' ∈ part
  · have more := List.count_pos_iff.mpr isFeed
    omega
  · have longer := List.length_pos_iff.mpr nonempty
    rw [lastLine_append isFeed, List.length_append, List.count_eq_zero_of_not_mem isFeed]
    omega

/-- At the edges of the characters of a short text, and past its end, a position counts the line
feeds in front of it and the characters behind the last of them; it is found in the tables. So
positions come in the order of the edges, and no two edges have the same one. -/
theorem position_counts (short : source.size < 2 ^ 32 - 1) :
    (∀ offset before after, source.text = before ++ after →
      byteLength before = min offset source.size →
      (∀ overflow, Checked.position overflow source offset = some (source.position offset)) ∧
        (source.position offset).line.toNat = 1 + before.count '\n' ∧
        (source.position offset).column.toNat = 1 + (before.rtakeWhile (· ≠ '\n')).length) ∧
      StrictMonoOn source.position {offset | IsEdge source.text offset} ∧
      Set.InjOn source.position {offset | IsEdge source.text offset} := by
  refine ⟨?_, position_strictMonoOn short, (position_strictMonoOn short).injOn⟩
  intro offset before after isText isOffset
  have counts := toNat_position_of_eq_append short isText
  rw [isOffset, position_min] at counts
  have fits (overflow : Checked.Overflow) : overflow.Fits source := ⟨fun _ => short⟩
  exact ⟨fun overflow => Checked.position_eq overflow source offset, counts⟩

/-- Characters of one to four bytes on the second line of a text. -/
theorem position_counts_of_wide :
    let source : Source := .ofString "page" "x\né€𝄞a"
    source.size < 2 ^ 32 - 1 ∧ (source.position 11).line.toNat = 2 ∧
      (source.position 11).column.toNat = 4 ∧ source.position 7 < source.position 11 := by
  intro source
  have short : source.size < 2 ^ 32 - 1 := by decide
  obtain ⟨counts, increasing, -⟩ := position_counts short
  obtain ⟨-, line, column⟩ := counts 11 "x\né€𝄞".toList ['a'] (by decide) (by decide)
  exact ⟨short, line, column,
    increasing ⟨"x\né€".toList, "𝄞a".toList, by decide, by decide⟩
      ⟨"x\né€𝄞".toList, ['a'], by decide, by decide⟩ (by decide)⟩

/-! ### Inside of characters -/

/-- The characters that end behind the first of two offsets, and not behind the second one. -/
def between (text : List Char) (start stop : Nat) : List Char :=
  (passed text stop).drop (passed text start).length

/-- What has been passed at the second of two offsets is what has been at the first, and what ends
between them. -/
theorem passed_between (text : List Char) (le : start ≤ stop) :
    passed text stop = passed text start ++ between text start stop := by
  rw [between]
  exact (List.prefix_iff_eq_append.mp (passed_mono text le)).symm

/-- Two offsets of a short text have positions in order exactly if a line feed ends between them,
the first one has the first column, or no fewer characters end between them than bytes are still to
come at the second one, less those at the first one. -/
theorem position_le_iff (short : source.size < 2 ^ 32 - 1) (le : start ≤ stop) :
    source.position start ≤ source.position stop ↔
      '\n' ∈ between source.text start stop ∨ (source.position start).column = 1 ∨
        pending source.text stop ≤
          (between source.text start stop).length + pending source.text start := by
  have first := toNat_position short start
  have second := toNat_position short stop
  rw [passed_between source.text le, List.count_append] at second
  have isFirst : (source.position start).column = 1 ↔
      (lastLine (passed source.text start)).length ≤ pending source.text start := by
    rw [← UInt32.toNat_inj, first.2]
    change 1 + _ = 1 ↔ _
    omega
  rw [Position.le_iff, first.1, second.1, first.2, second.2, isFirst]
  by_cases isFeed : '\n' ∈ between source.text start stop
  · have more := List.count_pos_iff.mpr isFeed
    simp only [isFeed, true_or, iff_true]
    omega
  · rw [lastLine_append isFeed, List.length_append, List.count_eq_zero_of_not_mem isFeed]
    simp only [isFeed, false_or]
    omega

/-- The span between any two offsets of a short text is found in the tables, and ends at the larger
one. It ends before it starts exactly if both are in one line, the first one does not have the first
column, and fewer characters end between them than bytes are still to come at the second one, less
those at the first one. So it never does where it ends at the edge of a character or past the end of
the text. -/
theorem span_ordered_iff (short : source.size < 2 ^ 32 - 1) (start stop : Nat) :
    (∀ overflow, Checked.span overflow source start stop =
        some ⟨source.position start, source.position (max stop start)⟩) ∧
      (source.position start ≤ source.position (max stop start) ↔
        '\n' ∈ between source.text start (max stop start) ∨
          (source.position start).column = 1 ∨
          pending source.text (max stop start) ≤
            (between source.text start (max stop start)).length + pending source.text start) ∧
      (IsEdge source.text (min stop source.size) →
        source.position start ≤ source.position (max stop start)) := by
  have fits (overflow : Checked.Overflow) : overflow.Fits source := ⟨fun _ => short⟩
  refine ⟨fun overflow => Checked.span_eq overflow source start stop,
    position_le_iff short (Nat.le_max_right _ _), ?_⟩
  intro isEdge
  rcases Nat.le_total stop start with le | le
  · rw [Nat.max_eq_right le]
  · -- Past the end nothing is different from the end itself, which is an edge.
    rw [Nat.max_eq_left le, ← position_min source start, ← position_min source stop,
      position_le_iff short (by omega)]
    obtain ⟨before, after, isText, isStop⟩ := isEdge
    have none : pending source.text (min stop source.size) = 0 := by
      rw [isText, ← isStop, pending_append]
    exact .inr (.inr (none ▸ Nat.zero_le _))

/-- The span of the first byte of a character of three ends before it starts. -/
theorem span_not_ordered_inside :
    let source : Source := .ofString "page" "a€"
    source.size < 2 ^ 32 - 1 ∧ source.span 1 2 = ⟨⟨1, 2⟩, ⟨1, 1⟩⟩ ∧
      ¬source.position 1 ≤ source.position 2 := by
  intro source
  have short : source.size < 2 ^ 32 - 1 := by decide
  exact ⟨short, by decide, mt (span_ordered_iff short 1 2).2.1.mp (by decide)⟩

end Source

end TextTemplate
