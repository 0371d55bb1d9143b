import TextTemplate.Source.Span
import TextTemplate.Text.Blank

/-! # Source texts

A named text, with the position of every byte offset and the text of every line. Offsets count the
bytes of the UTF-8 form, as every stage of reading does. -/

namespace TextTemplate

/-- A text with the name that diagnostics give it. -/
structure Source where
  name : String
  text : List Char

namespace Source

/-- A source of a string. -/
def ofString (name text : String) : Source := ⟨name, text.toList⟩

/-- The length of the text in bytes. -/
def size (source : Source) : Nat := byteLength source.text

/-! ### Positions -/

/-- The line and column `offset` bytes after a given one, where the text goes on. Past the end they
are those after the last character. Inside a character of several bytes, all but the first of its
bytes are taken off the column. -/
def placeFrom (line column : Nat) : List Char → Nat → Nat × Nat
  | [], _ => (line, column)
  | c :: rest, offset =>
      if offset = 0 then (line, column)
      else if c.utf8Size ≤ offset then
        if c = '\n' then placeFrom (line + 1) 1 rest (offset - c.utf8Size)
        else placeFrom line (column + 1) rest (offset - c.utf8Size)
      else (line, column - 1 + offset + 1 - c.utf8Size + 1)

/-- The position of a byte offset. -/
def position (source : Source) (offset : Nat) : Position :=
  let (line, column) := placeFrom 1 1 source.text offset
  ⟨UInt32.ofNat line, UInt32.ofNat column⟩

/-- The span of the bytes from `start` up to `stop`; an empty one if `stop` comes first. -/
def span (source : Source) (start stop : Nat) : Span :=
  ⟨source.position start, source.position (max stop start)⟩

/-- The span of the whole text. -/
def wholeSpan (source : Source) : Span := source.span 0 source.size

/-! ### Lines -/

/-- The lines of a text, without the line feeds between them. -/
def lines : List Char → List (List Char)
  | [] => [[]]
  | c :: rest =>
      if c = '\n' then [] :: lines rest
      else
        match lines rest with
        | line :: others => (c :: line) :: others
        | [] => [[c]]

/-- How many lines the text has. -/
def lineCount (source : Source) : Nat := (lines source.text).length

/-- A line without the carriage returns at its end. -/
def dropReturns (line : List Char) : List Char := (line.reverse.dropWhile (· == '\r')).reverse

/-- The line of a number, counted from one; `none` if there is no such line. -/
def line? (source : Source) (number : Nat) : Option (List Char) :=
  if number = 0 then none else ((lines source.text)[number - 1]?).map dropReturns

end Source

/-- Something found between two byte offsets of a text. -/
structure Located (α : Type) where
  item : α
  start : Nat
  stop : Nat
  deriving DecidableEq

namespace Located

/-- The span of what was found. -/
def span {α : Type} (found : Located α) (source : Source) : Span :=
  source.span found.start found.stop

end Located

end TextTemplate
