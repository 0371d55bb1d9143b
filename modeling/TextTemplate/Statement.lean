import TextTemplate.Piece
import TextTemplate.Token.Basic

/-! # Statements

What the inner text of a statement tag says: its word, what comes after the word, and, for loops,
the names and the source that the rest consists of. -/

namespace TextTemplate

/-! ### Words -/

/-- What a statement's word does. -/
inductive Keyword where
  /-- Opens a block. -/
  | opens (block : BlockKind)
  /-- Closes a block. -/
  | closes (block : BlockKind)
  /-- Starts a branch with a condition. -/
  | elseIf
  /-- Starts the last branch. -/
  | otherwise
  deriving DecidableEq

namespace Keyword

/-- The keyword of a word. -/
def ofWord? (word : List Char) : Option Keyword :=
  if word = "if".toList then some (.opens .choice)
  else if word = "elif".toList then some .elseIf
  else if word = "else".toList then some .otherwise
  else if word = "endif".toList then some (.closes .choice)
  else if word = "for".toList then some (.opens .loop)
  else if word = "endfor".toList then some (.closes .loop)
  else none

/-- The block that a keyword belongs to. -/
def block : Keyword → BlockKind
  | .opens block | .closes block => block
  | .elseIf | .otherwise => .choice

end Keyword

/-! ### Statements -/

/-- A statement: its word and the text after it, without the blanks around. -/
structure Statement where
  word : List Char
  arguments : List Char
  /-- The offset of the text after the word. -/
  start : Nat
  deriving DecidableEq

namespace Statement

/-- The keyword of the statement. -/
def keyword? (statement : Statement) : Option Keyword := Keyword.ofWord? statement.word

/-- The offset after the statement. -/
def stop (statement : Statement) : Nat := statement.start + byteLength statement.arguments

/-- The statement of an inner text at an offset. -/
def ofText (offset : Nat) (text : List Char) : Statement :=
  let body := trimStart text
  let word := body.takeWhile isNameChar
  let rest := body.drop word.length
  let arguments := trimStart rest
  ⟨word, trimEnd arguments, offset + (byteLength text - byteLength arguments)⟩

end Statement

namespace Tag

/-- The statement of a tag. -/
def statement (tag : Tag) : Statement := .ofText tag.innerStart tag.inner

/-- The keyword of a statement tag. -/
def keyword? (tag : Tag) : Option Keyword :=
  match tag.kind with
  | .statement => tag.statement.keyword?
  | .interpolation | .comment => none

end Tag

/-! ### Loop headers -/

/-- What a loop says about itself: the names of the entry and of its place, and the source. -/
structure LoopHeader where
  item : String
  index : Option String
  /-- The text of the source expression. -/
  source : List Char
  /-- The offset of the source expression. -/
  start : Nat
  deriving DecidableEq

namespace LoopHeader

/-- Whether a text starts with the word `in`. -/
def startsWithIn : List Char → Bool
  | 'i' :: 'n' :: rest => !rest.head?.any isNameChar
  | _ => false

/-- The texts before and after the first word `in` that a separator precedes. -/
def splitAtIn? : List Char → Option (List Char × List Char)
  | [] => none
  | c :: rest =>
      if isSeparator c ∧ startsWithIn rest then some ([c], rest.drop 2)
      else (splitAtIn? rest).map fun (before, after) => (c :: before, after)

/-- The parts of a text between commas. -/
def splitAtCommas : List Char → List (List Char)
  | [] => [[]]
  | c :: rest =>
      if c = ',' then [] :: splitAtCommas rest
      else
        match splitAtCommas rest with
        | part :: others => (c :: part) :: others
        | [] => [[c]]

/-- Whether a text is a name. -/
def isName (text : List Char) : Bool := text.head?.any isNameStart && text.all isNameChar

/-- The header of a loop. `inner` is the tag's inner text, which a message about the header shows. -/
def ofStatement (statement : Statement) (inner : List Char) : Except Cause LoopHeader :=
  let malformed := Cause.malformedHeader (String.ofList (trim inner))
  match splitAtIn? statement.arguments with
  | none => .error malformed
  | some (before, after) =>
      let names := (splitAtCommas before).map trim
      -- A reserved name is reported as one even where the header has other faults.
      match names.find? fun name => reservedWords.contains (String.ofList name) with
      | some name => .error (.reservedName (String.ofList name))
      | none =>
          let source := trimStart after
          let start := statement.stop - byteLength source
          if !names.all isName ∨ source.isEmpty then .error malformed
          else
            match names with
            | [item] => .ok ⟨String.ofList item, none, source, start⟩
            | [item, index] =>
                .ok ⟨String.ofList item, some (String.ofList index), source, start⟩
            | _ => .error malformed

end LoopHeader

end TextTemplate
