import TextTemplate.Text.Digits

/-! # Positions and spans

A position is a line and a column, both counted from one; columns count characters. Both are kept
in words of 32 bits, so counts that are larger wrap around. -/

namespace TextTemplate

/-- A word read as a count. -/
instance coeWordNat : Coe UInt32 Nat := ⟨UInt32.toNat⟩

/-- A place in a text. -/
structure Position where
  line : UInt32
  column : UInt32
  deriving DecidableEq

namespace Position

/-- The first position of a text. -/
def first : Position := ⟨1, 1⟩

/-- Whether a position comes before another or is the same. -/
def le (p q : Position) : Bool := p.line < q.line || (p.line == q.line && p.column ≤ q.column)

/-- The earlier of two positions. -/
def earlier (p q : Position) : Position := if p.le q then p else q

/-- The later of two positions. -/
def later (p q : Position) : Position := if p.le q then q else p

/-- The displayed form: line and column with a colon between them. -/
def display (p : Position) : List Char := Digits.ofNat p.line ++ ':' :: Digits.ofNat p.column

end Position

/-- A stretch of a text, from its first position to the position after its last. -/
structure Span where
  start : Position
  stop : Position
  deriving DecidableEq

namespace Span

instance : Inhabited Span := ⟨⟨.first, .first⟩⟩

/-- The empty stretch at a position. -/
def point (p : Position) : Span := ⟨p, p⟩

/-- The smallest stretch that covers both. -/
def merge (left right : Span) : Span :=
  ⟨left.start.earlier right.start, left.stop.later right.stop⟩

/-- The displayed form, which is that of the start. -/
def display (span : Span) : List Char := span.start.display

end Span

end TextTemplate
