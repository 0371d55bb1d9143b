import Mathlib.Algebra.Group.Nat.Defs
import TextTemplate.Diagnostic
import TextTemplate.Proofs.Text.Bytes

/-! # Positions from tables

A position can be looked up in two tables that are made once for a source: one of the offsets at
which its lines start, and one of its characters of several bytes. Every index into the tables and
every cut of the text is checked here, and so is every sum that is kept as a word, where such sums
are caught: a result of `none` means that an access is out of place or a sum too large. No access
ever is, and no sum in a source of fewer than `2 ^ 32 - 1` bytes. The positions and lines are those
of the source. -/

namespace TextTemplate.Checked

/-! ### Sums of words -/

/-- What becomes of a sum that is too large for a word: it wraps around, or it is caught and ends
the program. -/
inductive Overflow where
  | wraps
  | caught
  deriving DecidableEq

namespace Overflow

/-- The word after a count, of which the lower 32 bits are kept; `none` if the sum is caught. -/
def next? (overflow : Overflow) (count : Nat) : Option UInt32 :=
  let word := UInt32.ofNat count
  if overflow = .caught ∧ 2 ^ 32 ≤ word.toNat + 1 then none else some (word + 1)

/-- Sources in which no sum is caught: all of them where sums wrap around, and otherwise those whose
offsets and the numbers after them are words. -/
class Fits (overflow : Overflow) (source : Source) : Prop where
  short : overflow = .caught → source.size < 2 ^ 32 - 1

instance fits_wraps (source : Source) : Fits .wraps source := ⟨nofun⟩

/-- Where no sum is caught, every count up to the size of the source has a word after it. -/
theorem next?_eq (overflow : Overflow) {source : Source} [overflow.Fits source] {count : Nat}
    (le : count ≤ source.size) : overflow.next? count = some (UInt32.ofNat (count + 1)) := by
  have small : ¬(overflow = .caught ∧ 2 ^ 32 ≤ (UInt32.ofNat count).toNat + 1) := by
    rintro ⟨isCaught, large⟩
    have short : source.size < 2 ^ 32 - 1 := Fits.short isCaught
    rw [UInt32.toNat_ofNat'] at large
    have := Nat.mod_le count (2 ^ 32)
    omega
  rw [next?, if_neg small, UInt32.ofNat_add]
  rfl

/-- The largest word has none after it. -/
theorem next?_caught : Overflow.caught.next? (2 ^ 32 - 1) = none := by decide

end Overflow

/-! ### Tables -/

/-- The offsets behind the line feeds of a text that starts at `offset`. -/
def lineStops (offset : Nat) : List Char → List Nat
  | [] => []
  | c :: rest =>
      if c = '\n' then (offset + c.utf8Size) :: lineStops (offset + c.utf8Size) rest
      else lineStops (offset + c.utf8Size) rest

/-- The offsets at which the lines of a source start. -/
def lineStarts (source : Source) : List Nat := 0 :: lineStops 0 source.text

/-- The offset of every character of several bytes in a text that starts at `offset`, with the
number of bytes besides the first that it and all before it have. Before the text there are `extra`
such bytes. -/
def wideChars (offset extra : Nat) : List Char → List (Nat × Nat)
  | [] => []
  | c :: rest =>
      if c.toNat < 128 then wideChars (offset + c.utf8Size) extra rest
      else
        (offset, extra + (c.utf8Size - 1)) ::
          wideChars (offset + c.utf8Size) (extra + (c.utf8Size - 1)) rest

/-- The index of a number in a sorted table; without it, the index that it would have. -/
def search (table : List Nat) (number : Nat) : Except Nat Nat :=
  let index := (table.takeWhile (· < number)).length
  if table[index]? = some number then .ok index else .error index

/-- A difference; `none` if it is below zero. -/
def minus? (left right : Nat) : Option Nat := if right ≤ left then some (left - right) else none

/-- How many bytes besides the first the characters have that start before an offset. -/
def skippedBytes (table : List (Nat × Nat)) (offset : Nat) : Option Nat :=
  match (table.takeWhile (·.1 < offset)).length with
  | 0 => some 0
  | index + 1 => (table[index]?).map (·.2)

/-! ### Lookups -/

/-- The index of the line that an offset lies in. -/
def lineIndex (source : Source) (offset : Nat) : Option Nat :=
  match search (lineStarts source) offset with
  | .ok index => some index
  | .error index => minus? index 1

/-- The position of an offset. -/
def position (overflow : Overflow) (source : Source) (offset : Nat) : Option Position := do
  let offset := min offset source.size
  let index ← lineIndex source offset
  let lineStart ← (lineStarts source)[index]?
  let before ← skippedBytes (wideChars 0 0 source.text) offset
  let outside ← skippedBytes (wideChars 0 0 source.text) lineStart
  let skipped ← minus? before outside
  let length ← minus? offset lineStart
  let column := length - skipped
  return ⟨← overflow.next? index, ← overflow.next? column⟩

/-- The span between two offsets. -/
def span (overflow : Overflow) (source : Source) (start stop : Nat) : Option Span := do
  return ⟨← position overflow source start, ← position overflow source (max stop start)⟩

/-- The line of a number. The first `none` stands for a cut out of place, and the second one for a
number that no line has. -/
def line (source : Source) : Nat → Option (Option (List Char))
  | 0 => some none
  | index + 1 =>
      match (lineStarts source)[index]? with
      | none => some none
      | some start => do
          let stop := (((lineStarts source)[index + 1]?).map (· - 1)).getD source.size
          let content ← cut? source.text start stop
          return some (Source.dropReturns content)

/-! ### Lines -/

/-- The line that an offset lies in, and where it starts. The line of index `index` starts at
`start`, and those after it at `stops`. -/
def lineAt (offset index start : Nat) : List Nat → Nat × Nat
  | [] => (index, start)
  | stop :: stops => if stop ≤ offset then lineAt offset (index + 1) stop stops else (index, start)

/-- All line feeds of a text lie behind its start. -/
theorem lt_of_mem_lineStops {offset stop : Nat} {text : List Char}
    (isStop : stop ∈ lineStops offset text) : offset < stop := by
  induction text generalizing offset with
  | nil => cases isStop
  | cons c rest ih =>
      have positive := c.utf8Size_pos
      rw [lineStops] at isStop
      split at isStop
      next =>
        rcases List.mem_cons.mp isStop with rfl | isStop
        · omega
        · have := ih isStop
          omega
      next =>
        have := ih isStop
        omega

/-- Every line feed is a byte of its own. -/
theorem length_lineStops_le (offset : Nat) (text : List Char) :
    (lineStops offset text).length ≤ byteLength text := by
  induction text generalizing offset with
  | nil => exact Nat.le_refl _
  | cons c rest ih =>
      have others := ih (offset + c.utf8Size)
      have positive := c.utf8Size_pos
      rw [lineStops, byteLength]
      split
      next =>
        rw [List.length_cons]
        omega
      next => omega

/-- The starts of lines are sorted. -/
theorem pairwise_lineStops (offset : Nat) (text : List Char) :
    (lineStops offset text).Pairwise (· < ·) := by
  induction text generalizing offset with
  | nil => exact .nil
  | cons c rest ih =>
      rw [lineStops]
      split
      next => exact List.pairwise_cons.mpr ⟨fun _ isStop => lt_of_mem_lineStops isStop, ih _⟩
      next => exact ih _

/-- Before the next line starts, an offset lies in the line itself. -/
theorem lineAt_of_lt {offset index start : Nat} {stops : List Nat}
    (before : ∀ stop ∈ stops, offset < stop) :
    lineAt offset index start stops = (index, start) := by
  cases stops with
  | nil => rfl
  | cons stop stops => rw [lineAt, if_neg (Nat.not_le.mpr (before stop (.head _)))]

/-- The line of an offset is the given one or one of those after it, and starts before the
offset. -/
theorem lineAt_start {offset start : Nat} (index : Nat) (stops : List Nat) (le : start ≤ offset) :
    (lineAt offset index start stops).2 ≤ offset ∧
      ((lineAt offset index start stops).2 = start ∨
        (lineAt offset index start stops).2 ∈ stops) := by
  induction stops generalizing index start with
  | nil => exact ⟨le, .inl rfl⟩
  | cons stop stops ih =>
      rw [lineAt]
      split
      next fits =>
        obtain ⟨le, isStart | isStop⟩ := ih (index + 1) fits
        · exact ⟨le, .inr (by rw [isStart]; exact .head _)⟩
        · exact ⟨le, .inr (.tail _ isStop)⟩
      next => exact ⟨le, .inl rfl⟩

/-- The search in a sorted table ends at the line of the offset. -/
theorem search_eq {offset start : Nat} {stops : List Nat}
    (sorted : (start :: stops).Pairwise (· < ·)) (le : start ≤ offset) (index : Nat) :
    ∃ found, lineAt offset index start stops = (index + found, ((start :: stops)[found]?).getD 0) ∧
      found < (start :: stops).length ∧
      (search (start :: stops) offset = .ok found ∨
        search (start :: stops) offset = .error (found + 1)) := by
  induction stops generalizing start index with
  | nil =>
      refine ⟨0, rfl, Nat.one_pos, ?_⟩
      rcases Nat.eq_or_lt_of_le le with rfl | lt
      · exact .inl (by simp [search])
      · exact .inr (by simp [search, lt])
  | cons stop stops ih =>
      obtain ⟨first, others⟩ := List.pairwise_cons.mp sorted
      rw [lineAt]
      split
      next fits =>
        obtain ⟨found, isLine, inside, isFound⟩ := ih others fits (index + 1)
        refine ⟨found + 1, by rw [isLine]; simp; omega, by simpa using inside, ?_⟩
        have lt : start < offset := Nat.lt_of_lt_of_le (first stop (.head _)) fits
        -- The number before is passed, and moves every index by one.
        have moved : search (start :: stop :: stops) offset =
            ((search (stop :: stops) offset).map (· + 1)).mapError (· + 1) := by
          simp only [search]
          rw [List.takeWhile_cons_of_pos (by simpa using lt), List.length_cons,
            List.getElem?_cons_succ]
          split <;> rfl
        rcases isFound with isFound | isFound
        · exact .inl (by rw [moved, isFound]; rfl)
        · exact .inr (by rw [moved, isFound]; rfl)
      next behind =>
        refine ⟨0, rfl, Nat.succ_pos _, ?_⟩
        rcases Nat.eq_or_lt_of_le le with rfl | lt
        · exact .inl (by simp [search])
        · have notEqual : stop ≠ offset := by omega
          exact .inr (by simp [search, lt, Nat.le_of_not_le behind, notEqual])

/-! ### Columns -/

/-- How many bytes besides the first the characters have that start before an offset, if there are
`extra` before those of the table. -/
def skippedFrom (offset extra : Nat) : List (Nat × Nat) → Nat
  | [] => extra
  | (start, total) :: rest => if start < offset then skippedFrom offset total rest else extra

/-- The lookup in the table finds an entry, and it is the last one before the offset. -/
theorem skippedBytes_eq (table : List (Nat × Nat)) (offset : Nat) :
    skippedBytes table offset = some (skippedFrom offset 0 table) := by
  suffices found : ∀ extra, (match (table.takeWhile (·.1 < offset)).length with
      | 0 => some extra
      | index + 1 => (table[index]?).map (·.2)) = some (skippedFrom offset extra table) from found 0
  induction table with
  | nil => exact fun _ => rfl
  | cons entry rest ih =>
      intro extra
      by_cases before : entry.1 < offset
      · rw [skippedFrom, if_pos before, List.takeWhile_cons_of_pos (by simpa using before),
          List.length_cons, ← ih entry.2]
        cases (rest.takeWhile (·.1 < offset)).length <;> rfl
      · rw [skippedFrom, if_neg before, List.takeWhile_cons_of_neg (by simpa using before)]
        rfl

/-- All characters of a text start at or behind its start. -/
theorem le_of_mem_wideChars {offset extra : Nat} {entry : Nat × Nat} {text : List Char}
    (isEntry : entry ∈ wideChars offset extra text) : offset ≤ entry.1 := by
  induction text generalizing offset extra with
  | nil => cases isEntry
  | cons c rest ih =>
      rw [wideChars] at isEntry
      split at isEntry
      next => exact Nat.le_trans (Nat.le_add_right _ _) (ih isEntry)
      next =>
        rcases List.mem_cons.mp isEntry with rfl | isEntry
        · exact Nat.le_refl _
        · exact Nat.le_trans (Nat.le_add_right _ _) (ih isEntry)

/-- Up to the start of a text, its characters have no bytes. -/
theorem skippedFrom_of_le {offset start extra : Nat} {text : List Char} (le : offset ≤ start) :
    skippedFrom offset extra (wideChars start extra text) = extra := by
  cases entries : wideChars start extra text with
  | nil => rfl
  | cons entry rest =>
      have isEntry : entry ∈ wideChars start extra text := entries ▸ .head _
      have behind := le_of_mem_wideChars isEntry
      rw [skippedFrom, if_neg (by omega)]

/-- Behind the first character of a text, its bytes are among those to skip. -/
theorem skippedFrom_cons {target offset : Nat} (extra : Nat) (c : Char) (rest : List Char)
    (lt : offset < target) :
    skippedFrom target extra (wideChars offset extra (c :: rest)) =
      skippedFrom target (extra + (c.utf8Size - 1))
        (wideChars (offset + c.utf8Size) (extra + (c.utf8Size - 1)) rest) := by
  rw [wideChars]
  split
  next ascii =>
    rw [utf8Size_ascii ascii]
    rfl
  next => rw [skippedFrom, if_pos lt]

/-- How many bytes are to be skipped before a line that starts at `first`, seen from an offset in a
text: `outside` if the line has started there, and otherwise `extra` and those up to its start. -/
def skippedBefore (outside extra offset : Nat) (text : List Char) (first : Nat) : Nat :=
  if first ≤ offset then outside else skippedFrom first extra (wideChars offset extra text)

/-- Seen from behind a line feed, the lines there start with all that is to be skipped so far. -/
theorem skippedBefore_feed {outside extra offset first : Nat} {c : Char} (rest : List Char)
    (one : c.utf8Size = 1)
    (isFirst : first = offset + c.utf8Size ∨ offset + c.utf8Size < first) :
    skippedBefore outside extra offset (c :: rest) first =
      skippedBefore extra extra (offset + c.utf8Size) rest first := by
  rw [skippedBefore, skippedBefore, if_neg (by omega), skippedFrom_cons extra c rest (by omega),
    one, Nat.sub_self, Nat.add_zero]
  rcases isFirst with rfl | behind
  · rw [one, if_pos (Nat.le_refl _), skippedFrom_of_le (Nat.le_refl _)]
  · rw [if_neg (by omega)]

/-- Seen from behind any other character, the bytes of that character are to be skipped as well. -/
theorem skippedBefore_cons {outside extra offset first : Nat} (c : Char) (rest : List Char)
    (isFirst : first ≤ offset ∨ offset + c.utf8Size < first) :
    skippedBefore outside extra offset (c :: rest) first =
      skippedBefore outside (extra + (c.utf8Size - 1)) (offset + c.utf8Size) rest first := by
  rw [skippedBefore, skippedBefore]
  rcases isFirst with here | behind
  · rw [if_pos here, if_pos (by omega)]
  · rw [if_neg (by omega), if_neg (by omega), skippedFrom_cons extra c rest (by omega)]

/-- What the tables say about an offset in a text is what counting along the text gives. The text
starts at `offset`, in a line that starts at `start`; before it and before the line there are
`extra` and `outside` bytes to skip. -/
theorem placeFrom_eq {target : Nat} (text : List Char)
    {offset index start extra outside line first : Nat}
    (isLine : lineAt target index start (lineStops offset text) = (line, first))
    (inLine : start ≤ offset) (fewer : outside ≤ extra) (fits : extra - outside ≤ offset - start)
    (behind : offset ≤ target) (within : target ≤ offset + byteLength text) :
    skippedBefore outside extra offset text first ≤
        skippedFrom target extra (wideChars offset extra text) ∧
      Source.placeFrom (index + 1) (offset - start - (extra - outside) + 1) text
          (target - offset) =
        (line + 1, target - first - (skippedFrom target extra (wideChars offset extra text) -
          skippedBefore outside extra offset text first) + 1) := by
  -- The induction keeps the place in the line and the bytes that have been skipped on the way.
  induction text generalizing offset index start extra outside with
  | nil =>
      obtain rfl : target = offset := by rw [byteLength] at within; omega
      cases isLine
      rw [skippedBefore, if_pos inLine]
      exact ⟨fewer, rfl⟩
  | cons c rest ih =>
      have positive := c.utf8Size_pos
      rw [byteLength] at within
      rcases Nat.eq_or_lt_of_le behind with rfl | lt
      · -- At the start of the text nothing is counted.
        rw [lineAt_of_lt fun stop isStop => lt_of_mem_lineStops isStop] at isLine
        cases isLine
        rw [skippedBefore, if_pos inLine, skippedFrom_of_le (Nat.le_refl _), Nat.sub_self,
          Source.placeFrom, if_pos rfl]
        exact ⟨fewer, rfl⟩
      have notHere : target - offset ≠ 0 := by omega
      rw [skippedFrom_cons extra c rest lt, Source.placeFrom, if_neg notHere]
      rw [lineStops] at isLine
      by_cases whole : c.utf8Size ≤ target - offset
      · have further : offset + c.utf8Size ≤ target := by omega
        have left : target - offset - c.utf8Size = target - (offset + c.utf8Size) := by omega
        rw [if_pos whole, left]
        by_cases isFeed : c = '\n'
        · -- The next line starts behind the character, and nothing before it is skipped there.
          have one : c.utf8Size = 1 := by rw [isFeed]; decide
          rw [if_pos isFeed, lineAt, if_pos further] at isLine
          have isFirst := (lineAt_start (index + 1) (lineStops (offset + c.utf8Size) rest)
            further).2
          rw [isLine] at isFirst
          have step := ih isLine (Nat.le_refl _) (Nat.le_refl extra) (by omega) further (by omega)
          rw [Nat.sub_self, Nat.sub_self] at step
          rw [if_pos isFeed, skippedBefore_feed rest one (isFirst.imp_right lt_of_mem_lineStops),
            show extra + (c.utf8Size - 1) = extra by omega]
          exact step
        · rw [if_neg isFeed] at isLine ⊢
          have isFirst := (lineAt_start index (lineStops (offset + c.utf8Size) rest)
            (Nat.le_trans inLine behind)).2
          rw [isLine] at isFirst
          -- In the same line the column grows by one, whatever the size of the character.
          have column : offset + c.utf8Size - start - (extra + (c.utf8Size - 1) - outside) + 1 =
              offset - start - (extra - outside) + 1 + 1 := by omega
          rw [← column, skippedBefore_cons c rest
            (isFirst.imp (fun same => same ▸ inLine) lt_of_mem_lineStops)]
          exact ih isLine (by omega) (by omega) (by omega) further (by omega)
      · -- Inside a character all of its bytes are skipped but one.
        have le : target ≤ offset + c.utf8Size := by omega
        have noFeed : c ≠ '\n' := by
          rintro rfl
          exact whole (by rw [show ('\n' : Char).utf8Size = 1 by decide]; omega)
        rw [if_neg noFeed, lineAt_of_lt fun stop isStop =>
          Nat.lt_of_le_of_lt le (lt_of_mem_lineStops isStop)] at isLine
        cases isLine
        rw [skippedBefore, if_pos inLine, skippedFrom_of_le le, if_neg whole]
        exact ⟨by omega, Prod.ext rfl (by simp only; omega)⟩

/-- Offsets past the end have the position of the end. -/
theorem placeFrom_min (line column : Nat) (text : List Char) (offset : Nat) :
    Source.placeFrom line column text (min offset (byteLength text)) =
      Source.placeFrom line column text offset := by
  induction text generalizing line column offset with
  | nil => rfl
  | cons c rest ih =>
      have positive := c.utf8Size_pos
      rw [byteLength]
      by_cases within : offset ≤ c.utf8Size + byteLength rest
      · rw [Nat.min_eq_left within]
      · -- Past the end the character is passed whole, with the text or without it.
        have past : byteLength rest ≤ offset - c.utf8Size := by omega
        have same : ∀ line column, Source.placeFrom line column rest (byteLength rest) =
            Source.placeFrom line column rest (offset - c.utf8Size) := fun line column => by
          rw [← ih line column (offset - c.utf8Size), Nat.min_eq_right past]
        have passed : c.utf8Size ≤ offset ∧ offset ≠ 0 := by omega
        have filled : c.utf8Size + byteLength rest ≠ 0 := by omega
        rw [Nat.min_eq_right (Nat.le_of_not_le within), Source.placeFrom, Source.placeFrom,
          if_neg filled, if_neg passed.2, if_pos passed.1, if_pos (Nat.le_add_right _ _),
          Nat.add_sub_cancel_left, same, same]

/-- The line of an offset is found in the table. -/
theorem lineIndex_eq (source : Source) (offset : Nat) : ∃ index first,
    lineAt offset 0 0 (lineStops 0 source.text) = (index, first) ∧
      lineIndex source offset = some index ∧ (lineStarts source)[index]? = some first := by
  have sorted : (lineStarts source).Pairwise (· < ·) := List.pairwise_cons.mpr
    ⟨fun _ isStop => lt_of_mem_lineStops isStop, pairwise_lineStops _ _⟩
  obtain ⟨index, isLine, inside, isFound⟩ := search_eq sorted (Nat.zero_le offset) 0
  refine ⟨index, (lineStarts source)[index], ?_, ?_, List.getElem?_eq_getElem inside⟩
  · rw [isLine, Nat.zero_add, List.getElem?_eq_getElem inside, Option.getD_some]
    rfl
  · rcases isFound with isFound | isFound <;> rw [lineIndex, lineStarts, isFound]
    simp [minus?]

/-- The tables give the position of every offset. -/
theorem position_eq (overflow : Overflow) (source : Source) [overflow.Fits source] (offset : Nat) :
    position overflow source offset = some (source.position offset) := by
  have le : min offset source.size ≤ 0 + byteLength source.text := by
    rw [Nat.zero_add]
    exact Nat.min_le_right _ _
  obtain ⟨index, first, isLine, isIndex, isFirst⟩ :=
    lineIndex_eq source (min offset source.size)
  obtain ⟨fewer, place⟩ := placeFrom_eq source.text isLine (Nat.le_refl 0) (Nat.le_refl 0)
    (Nat.le_refl 0) (Nat.zero_le _) le
  -- Nothing is skipped before the start of the text, so the line that starts there is no exception.
  have atStart : skippedBefore 0 0 0 source.text first =
      skippedFrom first 0 (wideChars 0 0 source.text) := by
    rw [skippedBefore]
    split
    next le => rw [skippedFrom_of_le le]
    next => rfl
  have before := (lineAt_start 0 (lineStops 0 source.text) (Nat.zero_le (min offset source.size))).1
  rw [isLine] at before
  rw [atStart] at fewer place
  have isPlace : Source.placeFrom 1 1 source.text offset = (index + 1, _) :=
    (placeFrom_min 1 1 source.text offset).symm.trans place
  -- Neither number is larger than the source, so the words after them are there.
  have line_le : index ≤ source.size := by
    have inside := (List.getElem?_eq_some_iff.mp isFirst).1
    have fewerLines := length_lineStops_le 0 source.text
    rw [lineStarts, List.length_cons] at inside
    rw [Source.size]
    omega
  have column_le (skipped : Nat) : min offset source.size - first - skipped ≤ source.size := by
    omega
  simp only [position, isIndex, isFirst, skippedBytes_eq, minus?, if_pos fewer, if_pos before,
    Option.bind_eq_bind, Option.bind_some, Option.pure_def, Source.position, isPlace,
    overflow.next?_eq line_le, overflow.next?_eq (column_le _)]

/-- The span between two offsets is found in the tables. -/
theorem span_eq (overflow : Overflow) (source : Source) [overflow.Fits source] (start stop : Nat) :
    span overflow source start stop = some (source.span start stop) := by
  rw [span, position_eq, position_eq]
  rfl

/-- Without a line feed, no line starts behind the first one. -/
theorem lineStops_eq_nil (offset : Nat) {text : List Char} (noFeed : '\n' ∉ text) :
    lineStops offset text = [] := by
  induction text generalizing offset with
  | nil => rfl
  | cons c rest ih =>
      obtain ⟨notHere, notThere⟩ := not_or.mp (mt List.mem_cons.mpr noFeed)
      rw [lineStops, if_neg (Ne.symm notHere), ih _ notThere]

/-- A text of characters below 128 has none of several bytes. -/
theorem wideChars_eq_nil (offset extra : Nat) {text : List Char}
    (ascii : ∀ c ∈ text, c.toNat < 128) : wideChars offset extra text = [] := by
  induction text generalizing offset with
  | nil => rfl
  | cons c rest ih =>
      obtain ⟨here, there⟩ := List.forall_mem_cons.mp ascii
      rw [wideChars, if_pos here, ih _ there]

/-- Where sums are caught, a single line may be too long for its end to have a position. -/
theorem position_caught {source : Source} (noFeed : '\n' ∉ source.text)
    (ascii : ∀ c ∈ source.text, c.toNat < 128) (long : source.size = 2 ^ 32 - 1) :
    position .caught source source.size = none := by
  have isLine : lineIndex source source.size = some 0 := by
    have nonempty : 0 < source.size := by omega
    simp [lineIndex, lineStarts, lineStops_eq_nil 0 noFeed, search, nonempty, minus?]
  have isCaught : Overflow.caught.next? source.size = none := by rw [long, Overflow.next?_caught]
  simp [position, isLine, lineStarts, wideChars_eq_nil 0 0 ascii, skippedBytes, minus?, isCaught]

/-! ### Cuts of lines -/

/-- A line ends at its line feed. -/
theorem lines_append {content : List Char} (noFeed : '\n' ∉ content) (rest : List Char) :
    Source.lines (content ++ '\n' :: rest) = content :: Source.lines rest := by
  induction content with
  | nil => simp [Source.lines]
  | cons c content ih =>
      obtain ⟨notHere, notThere⟩ := not_or.mp (mt List.mem_cons.mpr noFeed)
      rw [List.cons_append, Source.lines, if_neg (Ne.symm notHere), ih notThere]

/-- Without a line feed a text is one line. -/
theorem lines_eq {content : List Char} (noFeed : '\n' ∉ content) :
    Source.lines content = [content] := by
  induction content with
  | nil => rfl
  | cons c content ih =>
      obtain ⟨notHere, notThere⟩ := not_or.mp (mt List.mem_cons.mpr noFeed)
      rw [Source.lines, if_neg (Ne.symm notHere), ih notThere]

/-- There are as many lines as starts of lines. -/
theorem length_lines (offset : Nat) (text : List Char) :
    (Source.lines text).length = (lineStops offset text).length + 1 := by
  induction text generalizing offset with
  | nil => rfl
  | cons c rest ih =>
      have others := ih (offset + c.utf8Size)
      rw [Source.lines, lineStops]
      split
      next => rw [List.length_cons, others, List.length_cons]
      next =>
        cases isLines : Source.lines rest with
        | nil =>
            rw [isLines, List.length_nil] at others
            exact absurd others (Nat.succ_ne_zero _).symm
        | cons line lines =>
            rw [isLines, List.length_cons] at others
            exact others

/-- Between the starts of two lines, and between the last one and the end, the text of a line is cut
out. `content` is what has been passed of the first line. -/
theorem cut?_lines (before content rest : List Char) (noFeed : '\n' ∉ content) (index : Nat) :
    (byteLength before :: lineStops (byteLength (before ++ content)) rest)[index]?.bind
        (fun start => cut? (before ++ (content ++ rest)) start
          ((((byteLength before :: lineStops (byteLength (before ++ content)) rest)[index + 1]?).map
            (· - 1)).getD (byteLength (before ++ (content ++ rest))))) =
      (Source.lines (content ++ rest))[index]? := by
  have feed : ('\n' : Char).utf8Size = 1 := by decide
  -- The rest is moved to what has been passed of the line, and at a line feed to what is before it.
  induction rest generalizing before content index with
  | nil =>
      rw [List.append_nil, lines_eq noFeed, lineStops]
      cases index with
      | zero =>
          simpa [byteLength_append] using cut?_append before content []
      | succ index => rfl
  | cons c rest ih =>
      rw [lineStops]
      by_cases isFeed : c = '\n'
      · subst isFeed
        rw [if_pos rfl, lines_append noFeed]
        cases index with
        | zero =>
            simpa [byteLength_append, feed] using cut?_append before content ('\n' :: rest)
        | succ index =>
            have further := ih (before ++ (content ++ ['\n'])) [] (by simp) index
            have behind : byteLength (before ++ (content ++ ['\n'])) =
                byteLength (before ++ content) + ('\n' : Char).utf8Size := by
              simp [byteLength_append, byteLength, Nat.add_assoc]
            rw [List.append_nil, behind] at further
            simpa using further
      · have further := ih before (content ++ [c]) (by simp [noFeed, Ne.symm isFeed]) index
        rw [if_neg isFeed]
        simpa [byteLength_append, byteLength, Nat.add_assoc] using further

/-- The line of every number is cut out of the text. -/
theorem line_eq (source : Source) (number : Nat) :
    line source number = some (source.line? number) := by
  cases number with
  | zero => rfl
  | succ index =>
      have found := cut?_lines [] [] source.text (by simp) index
      rw [Source.line?, if_neg (Nat.succ_ne_zero index), Nat.add_sub_cancel]
      simp only [List.nil_append, byteLength] at found
      rw [line, lineStarts]
      cases isStart : (0 :: lineStops 0 source.text)[index]? with
      | none =>
          rw [isStart, Option.bind_none] at found
          simp only [← found, Option.map_none]
      | some start =>
          rw [isStart, Option.bind_some] at found
          have inside : index < (Source.lines source.text).length := by
            rw [length_lines 0]
            exact (List.getElem?_eq_some_iff.mp isStart).1
          rw [List.getElem?_eq_getElem inside] at found ⊢
          simp only [Source.size, found, Option.bind_eq_bind, Option.bind_some, Option.pure_def,
            Option.map_some]

end TextTemplate.Checked
