import TextTemplate.Json.Basic
import TextTemplate.Text.Digits

/-! # Reading JSON

The text is first cut into lexemes: brackets, commas, colons, and strings, numbers and words as
whole values. Then one pass over the lexemes, with the open arrays and objects on a stack, builds
the tree. Reading stops after one complete value, so that a text with something after it can still
be told apart from a text without any value. -/

namespace TextTemplate.Json

/-! ### Strings -/

/-- A piece of a string: a character as it stands, or the number of a `\u` escape. -/
inductive StringPiece where
  | plain (c : Char)
  | code (unit : Nat)

/-- The character that a one-letter escape stands for. -/
def escapedChar? : Char → Option Char
  | '"' => some '"'
  | '\\' => some '\\'
  | '/' => some '/'
  | 'b' => some '\x08'
  | 'f' => some '\x0c'
  | 'n' => some '\n'
  | 'r' => some '\r'
  | 't' => some '\t'
  | _ => none

/-- The pieces of a string up to its closing quote, and the number of characters read, the quote
included. Control characters and unknown escapes are refused. -/
def stringPieces? : List Char → Option (List StringPiece × Nat)
  | [] => none
  | '"' :: _ => some ([], 1)
  | '\\' :: 'u' :: a :: b :: c :: d :: rest => do
      let unit ← Digits.readHex? [a, b, c, d]
      let (pieces, count) ← stringPieces? rest
      return (.code unit :: pieces, count + 6)
  | '\\' :: e :: rest => do
      let c ← escapedChar? e
      let (pieces, count) ← stringPieces? rest
      return (.plain c :: pieces, count + 2)
  | c :: rest => do
      -- A backslash gets here only where the text ends with it.
      if c.toNat < 0x20 ∨ c = '\\' then none
      else
        let (pieces, count) ← stringPieces? rest
        return (.plain c :: pieces, count + 1)

/-- Whether a number is the first half of a surrogate pair. -/
def isHighSurrogate (code : Nat) : Bool := 0xD800 ≤ code && code < 0xDC00

/-- Whether a number is the second half of a surrogate pair. -/
def isLowSurrogate (code : Nat) : Bool := 0xDC00 ≤ code && code < 0xE000

/-- The characters of a string; `none` when half of a surrogate pair stands alone. -/
def decodePieces? : List StringPiece → Option (List Char)
  | [] => some []
  | .plain c :: rest => (decodePieces? rest).map (c :: ·)
  | .code high :: .code low :: rest =>
      if isHighSurrogate high then
        if isLowSurrogate low then
          let point := 0x10000 + (high - 0xD800) * 0x400 + (low - 0xDC00)
          (decodePieces? rest).map (Char.ofNat point :: ·)
        else none
      else if isLowSurrogate high then none
      -- The second number may be the first half of the next pair.
      else (decodePieces? (.code low :: rest)).map (Char.ofNat high :: ·)
  | .code unit :: rest =>
      if isHighSurrogate unit || isLowSurrogate unit then none
      else (decodePieces? rest).map (Char.ofNat unit :: ·)

/-! ### Numbers -/

/-- The length of the run of digits at the start. -/
def digitRun (text : List Char) : Nat := (text.takeWhile Char.isDigit).length

/-- The length of a fraction at the start: zero if there is none. -/
def fractionLength? : List Char → Option Nat
  | '.' :: rest => if digitRun rest = 0 then none else some (digitRun rest + 1)
  | _ => some 0

/-- The length of an exponent at the start: zero if there is none. -/
def exponentLength? : List Char → Option Nat
  | mark :: rest =>
      if mark = 'e' ∨ mark = 'E' then
        let (sign, digits) := match rest with
          | '+' :: digits => (1, digits)
          | '-' :: digits => (1, digits)
          | digits => (0, digits)
        if digitRun digits = 0 then none else some (digitRun digits + sign + 1)
      else some 0
  | [] => some 0

/-- The length of a number's whole part at the start: digits without a needless zero in front. -/
def wholeLength? (text : List Char) : Option Nat :=
  let count := digitRun text
  if count = 0 then none
  else if 1 < count ∧ text.head? = some '0' then none
  else some count

/-- The length of the number that the text starts with. -/
def numberLength? (text : List Char) : Option Nat := do
  let sign := if text.head? = some '-' then 1 else 0
  let whole ← wholeLength? (text.drop sign)
  let fraction ← fractionLength? (text.drop (sign + whole))
  let exponent ← exponentLength? (text.drop (sign + whole + fraction))
  return sign + whole + fraction + exponent

/-- Whether the text is a number and nothing else. -/
def isNumber (text : List Char) : Bool := numberLength? text == some text.length

/-! ### Lexemes -/

/-- A lexeme of a JSON text. -/
inductive Lexeme where
  | openArray
  | closeArray
  | openObject
  | closeObject
  | comma
  | colon
  /-- A string, number or word. -/
  | scalar (value : Json)
  /-- A place where no lexeme starts. -/
  | invalid

/-- Whether a character may stand between lexemes. -/
def isBlank (c : Char) : Bool := c == ' ' || c == '\t' || c == '\n' || c == '\r'

/-- The word at the start, if it is one of the three that JSON has. -/
def word? (text : List Char) : Option (Json × Nat) :=
  if "null".toList.isPrefixOf text then some (.null, 4)
  else if "true".toList.isPrefixOf text then some (.boolean true, 4)
  else if "false".toList.isPrefixOf text then some (.boolean false, 5)
  else none

/-- The lexeme at the start of `c :: rest`, where `c` is not blank, and the number of characters
of `rest` that belong to it. -/
def lexeme (c : Char) (rest : List Char) : Lexeme × Nat :=
  if c = '[' then (.openArray, 0)
  else if c = ']' then (.closeArray, 0)
  else if c = '\x7b' then (.openObject, 0)
  else if c = '\x7d' then (.closeObject, 0)
  else if c = ',' then (.comma, 0)
  else if c = ':' then (.colon, 0)
  else if c = '"' then
    match stringPieces? rest with
    | some (pieces, count) =>
        match decodePieces? pieces with
        | some chars => (.scalar (.string (String.ofList chars)), count)
        | none => (.scalar .unreadable, count)
    | none => (.invalid, 0)
  else if c = '-' ∨ c.isDigit then
    match numberLength? (c :: rest) with
    | some length => (.scalar (.number (String.ofList ((c :: rest).take length))), length - 1)
    | none => (.invalid, 0)
  else
    match word? (c :: rest) with
    | some (value, length) => (.scalar value, length - 1)
    | none => (.invalid, 0)

/-- The lexemes of a text, after passing over `skip` characters of the lexeme before. -/
def lexemes : Nat → List Char → List Lexeme
  | _, [] => []
  | skip + 1, _ :: rest => lexemes skip rest
  | 0, c :: rest =>
      if isBlank c then lexemes 0 rest
      else (lexeme c rest).1 :: lexemes (lexeme c rest).2 rest

/-! ### Trees -/

/-- An open array or object, the newest item or field first. Names without a reading are `none`. -/
inductive Frame where
  | array (items : List Json)
  | object (fields : List (Option String × Json)) (name : Option String)

/-- What may come next. -/
inductive Expecting where
  | value
  | itemOrClose
  | nameOrClose
  | name
  | colon
  | separator
  deriving DecidableEq

/-- What one lexeme leads to. -/
inductive Progress where
  | more (stack : List Frame) (expecting : Expecting)
  | done (value : Json)
  | failed

/-- A value is complete: the whole text is, or the innermost frame gets it. -/
def complete (value : Json) : List Frame → Progress
  | [] => .done value
  | .array items :: stack => .more (.array (value :: items) :: stack) .separator
  | .object fields name :: stack =>
      .more (.object ((name, value) :: fields) none :: stack) .separator

/-- The object of some fields; it has no reading if one of its names has none. -/
def ofFields (fields : List (Option String × Json)) : Json :=
  match fields.mapM fun (name, value) => name.map fun known => (known, value) with
  | some known => .object known
  | none => .unreadable

/-- A lexeme where a value must start. -/
def startValue (stack : List Frame) : Lexeme → Progress
  | .openArray => .more (.array [] :: stack) .itemOrClose
  | .openObject => .more (.object [] none :: stack) .nameOrClose
  | .scalar value => complete value stack
  | _ => .failed

/-- A lexeme that closes the innermost frame. -/
def closeFrame : List Frame → Lexeme → Progress
  | .array items :: stack, .closeArray => complete (.array items.reverse) stack
  | .object fields _ :: stack, .closeObject => complete (ofFields fields.reverse) stack
  | _, _ => .failed

/-- A lexeme that must be the name of a field. -/
def startField : List Frame → Lexeme → Progress
  | .object fields _ :: stack, .scalar (.string name) =>
      .more (.object fields (some name) :: stack) .colon
  | .object fields _ :: stack, .scalar .unreadable => .more (.object fields none :: stack) .colon
  | _, _ => .failed

/-- A lexeme after a complete item or field. -/
def separate : List Frame → Lexeme → Progress
  | .array items :: stack, .comma => .more (.array items :: stack) .value
  | .object fields name :: stack, .comma => .more (.object fields name :: stack) .name
  | stack, lexeme => closeFrame stack lexeme

/-- One step of reading. -/
def advance (stack : List Frame) : Expecting → Lexeme → Progress
  | .value, lexeme => startValue stack lexeme
  -- Only an empty array may be closed here: behind a comma an item must follow.
  | .itemOrClose, .closeArray => closeFrame stack .closeArray
  | .itemOrClose, lexeme => startValue stack lexeme
  | .nameOrClose, .closeObject => closeFrame stack .closeObject
  | .nameOrClose, lexeme => startField stack lexeme
  | .name, lexeme => startField stack lexeme
  | .colon, .colon => .more stack .value
  | .colon, _ => .failed
  | .separator, lexeme => separate stack lexeme

/-- Reads lexemes up to the end of the first value. -/
def readLexemes? : List Frame → Expecting → List Lexeme → Option (Json × List Lexeme)
  | _, _, [] => none
  | stack, expecting, lexeme :: rest =>
      match advance stack expecting lexeme with
      | .more stack' expecting' => readLexemes? stack' expecting' rest
      -- What stands behind the value may be anything, even what is no lexeme.
      | .done value => some (value, rest)
      | .failed => none

/-- The value that a text starts with, and the lexemes after it. -/
def readFirst? (text : List Char) : Option (Json × List Lexeme) :=
  readLexemes? [] .value (lexemes 0 text)

/-- The value that a text consists of. -/
def read? (text : List Char) : Option Json :=
  match readFirst? text with
  | some (value, []) => some value
  | _ => none

end TextTemplate.Json
