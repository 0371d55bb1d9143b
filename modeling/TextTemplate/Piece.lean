import TextTemplate.Fault

/-! # Pieces of a template

A template is a sequence of texts and tags. The scan for tags starts anew after the end of each
tag, so every character belongs to one piece, whatever the tags mean. -/

namespace TextTemplate

/-- A tag: braces with a marker around an inner text. -/
structure Tag where
  kind : TagKind
  /-- The offset of the tag. -/
  start : Nat
  inner : List Char
  deriving DecidableEq

namespace Tag

/-- The offset of the inner text. -/
def innerStart (tag : Tag) : Nat := tag.start + 2

/-- The offset of the closer. -/
def innerStop (tag : Tag) : Nat := tag.innerStart + byteLength tag.inner

/-- The offset after the closer. -/
def stop (tag : Tag) : Nat := tag.innerStop + 2

end Tag

/-- A piece of a template. -/
inductive Piece where
  /-- A text between tags. -/
  | text (content : List Char) (start : Nat)
  | tag (tag : Tag)
  /-- The opener of a tag that is not closed. What follows it belongs to no piece. -/
  | unclosed (kind : TagKind) (start : Nat)
  deriving DecidableEq

/-! ### Closers -/

namespace TagKind

/-- The number of characters before the first closer. -/
def firstCloser? (kind : TagKind) : List Char → Option Nat
  | [] => none
  | c :: rest =>
      if kind.closer.isPrefixOf (c :: rest) then some 0
      else (kind.firstCloser? rest).map (· + 1)

/-- The number of characters before the first closer outside of quotes. Inside them a backslash
takes the next character with it. -/
def unquotedCloser? (kind : TagKind) : Option Char → List Char → Option Nat
  | _, [] => none
  | some quote, '\\' :: _ :: rest => (kind.unquotedCloser? (some quote) rest).map (· + 2)
  | some quote, c :: rest =>
      (kind.unquotedCloser? (if c = quote then none else some quote) rest).map (· + 1)
  | none, c :: rest =>
      if c = '"' ∨ c = '\'' then (kind.unquotedCloser? (some c) rest).map (· + 1)
      else if kind.closer.isPrefixOf (c :: rest) then some 0
      else (kind.unquotedCloser? none rest).map (· + 1)

/-- The length of the inner text of a tag, given everything after its opener. In comments quotes
mean nothing; in other tags a closer inside quotes counts only when there is none outside. -/
def innerLength? (kind : TagKind) (text : List Char) : Option Nat :=
  match kind with
  | .comment => kind.firstCloser? text
  | .interpolation | .statement => (kind.unquotedCloser? none text).or (kind.firstCloser? text)

/-- The form of the tag that opens with the characters `c :: rest`, if one does. -/
def openedBy? (c : Char) (rest : List Char) : Option TagKind :=
  if c = '\x7b' then rest.head?.bind ofMarker? else none

end TagKind

/-! ### Scanning -/

namespace Piece

/-- Pieces with a character of text in front. -/
def consText (c : Char) (start : Nat) : List Piece → List Piece
  | .text content _ :: rest => .text (c :: content) start :: rest
  | pieces => .text [c] start :: pieces

/-- The pieces of a text that starts at `offset`, after passing over `skip` characters of the tag
before. -/
def scan (offset skip : Nat) : List Char → List Piece
  | [] => []
  | c :: rest =>
      match skip with
      | skip + 1 => scan (offset + c.utf8Size) skip rest
      | 0 =>
          match TagKind.openedBy? c rest with
          | none => consText c offset (scan (offset + c.utf8Size) 0 rest)
          | some kind =>
              match kind.innerLength? (rest.drop 1) with
              | none => [.unclosed kind offset]
              | some length =>
                  -- The opener has one more character, and the closer has two.
                  .tag ⟨kind, offset, (rest.drop 1).take length⟩ ::
                    scan (offset + c.utf8Size) (length + 3) rest

end Piece

namespace Source

/-- The pieces of a source. -/
def pieces (source : Source) : List Piece := Piece.scan 0 0 source.text

/-- The span of a tag. -/
def tagSpan (source : Source) (tag : Tag) : Span := source.span tag.start tag.stop

end Source

end TextTemplate
