import Mathlib.Algebra.Group.Nat.Defs
import Mathlib.Order.Basic
import TextTemplate.Proofs.Text.Bytes
import TextTemplate.Source.Basic

/-! # The order of positions and spans

Positions are ordered by line and column. In a text that is short enough for both to fit into their
words, positions at the edges of characters come in the order of the offsets. Inside of a character
of several bytes they do not: the column falls back there. -/

namespace TextTemplate

/-! ### Positions -/

namespace Position

variable {p q : Position}

instance : LE Position := ⟨fun p q => p.le q = true⟩

/-- Positions are compared by their lines first and then by their columns. -/
theorem le_iff : p ≤ q ↔
    p.line.toNat < q.line.toNat ∨
      p.line.toNat = q.line.toNat ∧ p.column.toNat ≤ q.column.toNat := by
  change p.le q = true ↔ _
  simp [Position.le, UInt32.lt_iff_toNat_lt, UInt32.le_iff_toNat_le, ← UInt32.toNat_inj]

instance : Preorder Position where
  le_refl p := le_iff.mpr (.inr ⟨rfl, Nat.le_refl _⟩)
  le_trans p q r first second := by
    rw [le_iff] at first second ⊢
    omega

/-- Of two positions in order the first is the earlier one. -/
theorem earlier_of_le (ordered : p ≤ q) : p.earlier q = p := if_pos ordered

/-- Of two positions in order the second is the later one. -/
theorem later_of_le (ordered : p ≤ q) : p.later q = q := if_pos ordered

end Position

/-! ### Spans -/

namespace Span

variable {p q : Position} {span : Span} {left right spans : List Span}

/-- Whether a stretch lies inside another one. -/
def Contains (outer inner : Span) : Prop := outer.start ≤ inner.start ∧ inner.stop ≤ outer.stop

/-- A stretch lies inside itself. -/
theorem contains_self (span : Span) : span.Contains span := ⟨le_refl _, le_refl _⟩

/-- A stretch inside of one that lies inside another lies there, too. -/
theorem Contains.trans {outer middle inner : Span} (first : outer.Contains middle)
    (second : middle.Contains inner) : outer.Contains inner :=
  ⟨first.1.trans second.1, second.2.trans first.2⟩

/-- Two stretches of which the second one begins and ends later are covered by the one from the
start of the first to the end of the second. -/
theorem merge_of_le {first second : Span} (starts : first.start ≤ second.start)
    (stops : first.stop ≤ second.stop) : first.merge second = ⟨first.start, second.stop⟩ := by
  rw [merge, Position.earlier_of_le starts, Position.later_of_le stops]

/-- Whether stretches follow one another without overlap between two positions. -/
def InOrder : Position → Position → List Span → Prop
  | p, q, [] => p ≤ q
  | p, q, span :: rest => p ≤ span.start ∧ span.start ≤ span.stop ∧ InOrder span.stop q rest

/-- Whether stretches follow one another without a gap from one position to another. -/
def Tile : Position → Position → List Span → Prop
  | p, q, [] => p = q
  | p, q, span :: rest => span.start = p ∧ p ≤ span.stop ∧ Tile span.stop q rest

/-- The positions around stretches in order are in order. -/
theorem InOrder.le (ordered : InOrder p q spans) : p ≤ q := by
  induction spans generalizing p with
  | nil => exact ordered
  | cons span rest ih => exact (ordered.1.trans ordered.2.1).trans (ih ordered.2.2)

/-- Stretches in order lie between the two positions. -/
theorem InOrder.bounds (ordered : InOrder p q spans) :
    ∀ span ∈ spans, p ≤ span.start ∧ span.stop ≤ q := by
  induction spans generalizing p with
  | nil => exact nofun
  | cons span rest ih =>
      obtain ⟨before, extent, others⟩ := ordered
      refine List.forall_mem_cons.mpr ⟨⟨before, others.le⟩, fun other isOther => ?_⟩
      obtain ⟨later, inside⟩ := ih others other isOther
      exact ⟨(before.trans extent).trans later, inside⟩

/-- The first position may be an earlier one. -/
theorem InOrder.mono_left {p' : Position} (ordered : InOrder p q spans) (le : p' ≤ p) :
    InOrder p' q spans := by
  cases spans with
  | nil => exact le.trans ordered
  | cons span rest => exact ⟨le.trans ordered.1, ordered.2⟩

/-- The last position may be a later one. -/
theorem InOrder.mono_right {q' : Position} (ordered : InOrder p q spans) (le : q ≤ q') :
    InOrder p q' spans := by
  induction spans generalizing p with
  | nil => exact ordered.trans le
  | cons span rest ih => exact ⟨ordered.1, ordered.2.1, ih ordered.2.2⟩

/-- Stretches in order are divided at a position between them. -/
theorem inOrder_append :
    InOrder p q (left ++ right) ↔ ∃ middle, InOrder p middle left ∧ InOrder middle q right := by
  induction left generalizing p with
  | nil =>
      exact ⟨fun ordered => ⟨p, le_refl p, ordered⟩, fun ⟨_, le, ordered⟩ => ordered.mono_left le⟩
  | cons span rest ih =>
      simp only [List.cons_append, InOrder, ih, exists_and_left, and_assoc]

/-- A stretch among others has those before it in front of it and the others behind it. -/
theorem inOrder_split : InOrder p q (left ++ span :: right) ↔
    InOrder p span.start left ∧ span.start ≤ span.stop ∧ InOrder span.stop q right := by
  rw [inOrder_append]
  constructor
  · rintro ⟨middle, before, le, extent, behind⟩
    exact ⟨before.mono_right le, extent, behind⟩
  · rintro ⟨before, extent, behind⟩
    exact ⟨_, before, le_refl _, extent, behind⟩

/-- Stretches without a gap between them are in order. -/
theorem Tile.inOrder (tile : Tile p q spans) : InOrder p q spans := by
  induction spans generalizing p with
  | nil => exact (show p = q from tile) ▸ le_refl p
  | cons span rest ih =>
      obtain ⟨rfl, extent, others⟩ := tile
      exact ⟨le_refl _, extent, ih others⟩

end Span

/-! ### Positions of offsets -/

namespace Source

variable {source : Source} {start stop : Nat} {part : List Char}

/-- The line and column behind a character. -/
def advance (place : Nat × Nat) (c : Char) : Nat × Nat :=
  if c = '\n' then (place.1 + 1, 1) else (place.1, place.2 + 1)

/-- Behind whole characters, line and column are those that the characters make. -/
theorem placeFrom_append (line column : Nat) (before after : List Char) :
    placeFrom line column (before ++ after) (byteLength before) =
      before.foldl advance (line, column) := by
  induction before generalizing line column with
  | nil => cases after <;> simp [placeFrom, byteLength]
  | cons c rest ih =>
      have positive := c.utf8Size_pos
      rw [List.cons_append, placeFrom, byteLength, if_neg (by omega), if_pos (by omega),
        Nat.add_sub_cancel_left, List.foldl_cons, advance]
      split
      · exact ih _ _
      · exact ih _ _

/-- Lines and columns grow by at most one with every character, and never fall back. -/
theorem foldl_advance (place : Nat × Nat) (text : List Char) :
    (text.foldl advance place).1 ≤ place.1 + text.length ∧
      (text.foldl advance place).2 ≤ place.2 + text.length ∧
      (place.1 < (text.foldl advance place).1 ∨
        place.1 = (text.foldl advance place).1 ∧ place.2 ≤ (text.foldl advance place).2) := by
  induction text generalizing place with
  | nil => simp
  | cons c rest ih =>
      obtain ⟨lines, columns, grows⟩ := ih (advance place c)
      rw [List.foldl_cons, List.length_cons]
      by_cases newline : c = '\n'
      · simp only [advance, if_pos newline] at lines columns grows ⊢
        omega
      · simp only [advance, if_neg newline] at lines columns grows ⊢
        omega

/-- The position behind the first characters of a text. -/
theorem position_of_eq_append {before after : List Char}
    (isText : source.text = before ++ after) :
    source.position (byteLength before) =
      ⟨UInt32.ofNat (before.foldl advance (1, 1)).1,
        UInt32.ofNat (before.foldl advance (1, 1)).2⟩ := by
  rw [position, isText, placeFrom_append]

/-- The first offset has the first position. -/
@[simp] theorem position_zero (source : Source) : source.position 0 = .first :=
  position_of_eq_append (List.nil_append source.text).symm

/-- The span between two offsets in order has their positions. -/
theorem span_of_le (ordered : start ≤ stop) :
    source.span start stop = ⟨source.position start, source.position stop⟩ := by
  rw [span, Nat.max_eq_left ordered]

/-- Positions of a short text come in the order of the offsets at the edges of its characters. -/
theorem position_le_of_cut? (short : source.size < 2 ^ 32 - 1)
    (here : cut? source.text start stop = some part) :
    source.position start ≤ source.position stop := by
  obtain ⟨before, after, isText, rfl, rfl⟩ := cut?_eq_some_iff.mp here
  have first := position_of_eq_append isText
  rw [← List.append_assoc] at isText
  have second := position_of_eq_append isText
  rw [List.foldl_append, byteLength_append] at second
  -- Both places fit into their words, so that no count wraps around.
  have fits : before.length + part.length < 2 ^ 32 - 1 := by
    have count := length_le_byteLength source.text
    rw [size] at short
    simp only [isText, List.length_append] at count short
    omega
  have grown := foldl_advance (1, 1) before
  have further := foldl_advance (before.foldl advance (1, 1)) part
  rw [first, second, Position.le_iff]
  simp only [UInt32.toNat_ofNat']
  omega

end Source

end TextTemplate
