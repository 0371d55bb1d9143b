import TextTemplate.Token.Basic

/-! # Cutting a text into tokens

Tokens are cut off the front of a text one by one, each as long as it can be, and the separators
between them are passed over. What a token is depends on the characters of the text given, and on
the token before it: that one decides whether a minus sign belongs to a number. The first character
that starts no token is a fault. -/

namespace TextTemplate.Token

/-! ### Names -/

/-- Whether a character can stand inside a dotted name. -/
def isPathChar (c : Char) : Bool := isNameChar c || c == '.'

/-- Whether the first character that is no separator opens a parenthesis. -/
def callFollows (text : List Char) : Bool := (text.dropWhile isSeparator).head? == some '('

/-- The token of a dotted name, given what follows it. -/
def nameToken (name rest : List Char) : TokenKind :=
  if callFollows rest then .method (String.ofList name)
  else if name = "true".toList then .boolean true
  else if name = "false".toList then .boolean false
  else .identifier (String.ofList name)

/-- A name without the dots at its end. -/
def dropDots (name : List Char) : List Char := (name.reverse.dropWhile (· == '.')).reverse

/-! ### Strings -/

/-- The number of characters before the closing quote: the first one that an even number of
backslashes precedes. `run` counts the backslashes directly before the text. -/
def closingQuote? (quote : Char) : Nat → List Char → Option Nat
  | _, [] => none
  | run, c :: rest =>
      if c = quote ∧ run % 2 = 0 then some 0
      else (closingQuote? quote (if c = '\\' then run + 1 else 0) rest).map (· + 1)

/-- The character that an escape of one letter stands for; letters without a meaning stand for
themselves. -/
def escapedChar : Char → Char
  | 'n' => '\n'
  | 't' => '\t'
  | 'r' => '\r'
  | 'b' => '\x08'
  | 'f' => '\x0c'
  | 'v' => '\x0b'
  | '0' => '\x00'
  | c => c

/-- The character of a code point, or the replacement character if there is none. -/
def charOfCode (code : Nat) : Char :=
  if code.isValidChar then Char.ofNat code else '\ufffd'

/-- The text with its escapes replaced. The letters `u` and `x` need four and two hexadecimal digits
after them, and stand for themselves without. -/
def decodeEscapes : List Char → List Char
  | [] => []
  | '\\' :: 'u' :: a :: b :: c :: d :: rest =>
      match Digits.readHex? [a, b, c, d] with
      | some code => charOfCode code :: decodeEscapes rest
      | none => 'u' :: decodeEscapes (a :: b :: c :: d :: rest)
  | '\\' :: 'x' :: a :: b :: rest =>
      match Digits.readHex? [a, b] with
      | some code => charOfCode code :: decodeEscapes rest
      | none => 'x' :: decodeEscapes (a :: b :: rest)
  | '\\' :: c :: rest => escapedChar c :: decodeEscapes rest
  | c :: rest => c :: decodeEscapes rest

/-! ### Numbers -/

/-- Whether the text starts with a digit. -/
def startsWithDigit (text : List Char) : Bool := text.head?.any Char.isDigit

/-- Whether the text starts with a digit, or with a point and a digit. -/
def startsWithNumber (text : List Char) : Bool :=
  startsWithDigit text || (text.head? == some '.' && startsWithDigit (text.drop 1))

/-- The point and the digits of a fraction, if one comes first. -/
def fractionPart (text : List Char) : List Char :=
  if text.head? = some '.' ∧ startsWithDigit (text.drop 1) then
    '.' :: (text.drop 1).takeWhile Char.isDigit
  else []

/-- The mark, sign and digits of an exponent, if one comes first. -/
def exponentPart (text : List Char) : List Char :=
  if text.head? = some 'e' ∨ text.head? = some 'E' then
    let sign := (text.drop 1).takeWhile (fun c => c == '+' || c == '-') |>.take 1
    if startsWithDigit (text.drop (1 + sign.length)) then
      'e' :: sign ++ (text.drop (1 + sign.length)).takeWhile Char.isDigit
    else []
  else []

/-- The spelling of the number that comes first, with a zero before a leading point, and the number
of characters that it takes. -/
def numberPart (text : List Char) : List Char × Nat :=
  let sign := text.takeWhile (· == '-') |>.take 1
  let afterSign := text.drop sign.length
  let whole := afterSign.takeWhile Char.isDigit
  let fraction := fractionPart (afterSign.drop whole.length)
  let exponent := exponentPart (afterSign.drop (whole.length + fraction.length))
  -- The zero belongs to the spelling and not to the text, so it is not counted.
  let zero := if afterSign.head? = some '.' then ['0'] else []
  (sign ++ zero ++ whole ++ fraction ++ exponent,
    sign.length + whole.length + fraction.length + exponent.length)

/-! ### One token -/

/-- What one step finds: a token and the number of characters after the first that it takes, or a
cause between two offsets. -/
abbrev Step := Except (Located Cause) (TokenKind × Nat)

/-- The number at the start of a text. -/
def lexNumber (text : List Char) (offset : Nat) : Step :=
  let (spelling, count) := numberPart text
  let stop := offset + count
  -- A name directly behind a number would look like a part of it.
  match (text.drop count).head?.filter isNameChar with
  | some c => .error ⟨.unexpectedAfterNumber c, stop, stop + 1⟩
  | none =>
      match Numeric.parse? spelling with
      | some value =>
          if value.isFinite then .ok (.number value, count - 1)
          else .error ⟨.numberOutOfRange (String.ofList spelling), offset, stop⟩
      | none => .error ⟨.invalidNumber (String.ofList spelling), offset, stop⟩

/-- The string after its opening quote. Without a closing quote it runs to the end. -/
def lexString (quote : Char) (rest : List Char) (offset stop : Nat) : Step :=
  match closingQuote? quote 0 rest with
  | some length =>
      .ok (.text (String.ofList (decodeEscapes (rest.take length))), length + 1)
  | none => .error ⟨.unterminatedString, offset, stop⟩

/-- The longest operator symbol at the start of a text. -/
def operatorAt? (text : List Char) : Option BinaryOperator :=
  ((List.range BinaryOperator.maxSymbolLength).reverse.map fun n => text.take (n + 1)).findSome?
    BinaryOperator.ofSymbol?

/-- The operator at the start of `c :: rest`. -/
def lexOperator (c : Char) (rest : List Char) (offset : Nat) : Step :=
  match operatorAt? (c :: rest) with
  | some operator => .ok (.operator operator, operator.symbol.length - 1)
  | none =>
      if c = '!' then .ok (.unary .not, 0)
      else if c = '~' then .ok (.unary .bitNot, 0)
      else .error ⟨.unexpectedCharacter c, offset, offset + c.utf8Size⟩

/-- Whether an operand is expected after a token: at the start, and after an operator, an opening
bracket or a comma. -/
def expectsOperand : Option TokenKind → Bool
  | none => true
  | some (.operator _) | some (.unary _) | some (.opening _) | some .comma => true
  | some _ => false

/-- Whether a token closes a bracket. -/
def isClosing : Option TokenKind → Bool
  | some (.closing _) => true
  | _ => false

/-- The token at the start of `c :: rest`, where `c` is no separator. -/
def lexToken (previous : Option TokenKind) (c : Char) (rest : List Char) (offset stop : Nat) :
    Step :=
  if startsWithNumber (c :: rest) then lexNumber (c :: rest) offset
  -- A minus sign where an operator is expected is the one of a difference.
  else if c = '-' ∧ expectsOperand previous then
    if startsWithNumber rest then lexNumber (c :: rest) offset else .ok (.unary .negate, 0)
  else if c = '"' ∨ c = '\'' then lexString c rest offset stop
  else if isNameStart c then
    let name := (c :: rest).takeWhile isPathChar
    .ok (nameToken name ((c :: rest).drop name.length), name.length - 1)
  -- Behind a bracket a dot starts a key; within a path it is a character of the path.
  else if c = '.' ∧ isClosing previous ∧ rest.head?.any isNameStart then
    let name := rest.takeWhile isPathChar
    .ok (.property (String.ofList (dropDots name)), name.length)
  else if c = '(' then .ok (.opening .round, 0)
  else if c = ')' then .ok (.closing .round, 0)
  else if c = '[' then .ok (.opening .square, 0)
  else if c = ']' then .ok (.closing .square, 0)
  else if c = ',' then .ok (.comma, 0)
  else lexOperator c rest offset

/-! ### All tokens -/

/-- The tokens of a text that starts at `offset` and ends at `stop`, with their offsets, after
passing over `skip` characters of the token before. -/
def lexFrom (stop : Nat) (previous : Option TokenKind) (offset skip : Nat) :
    List Char → Except (Located Cause) (List (Located TokenKind))
  | [] => .ok []
  | c :: rest =>
      match skip with
      | skip + 1 => lexFrom stop previous (offset + c.utf8Size) skip rest
      | 0 =>
          if isSeparator c then lexFrom stop previous (offset + c.utf8Size) 0 rest
          else
            match lexToken previous c rest offset stop with
            | .error fault => .error fault
            | .ok (kind, count) =>
                match lexFrom stop (some kind) (offset + c.utf8Size) count rest with
                | .error fault => .error fault
                | .ok found =>
                    .ok (⟨kind, offset, offset + byteLength (c :: rest.take count)⟩ :: found)

/-- The tokens of the characters of a source between two offsets. -/
def lex (source : Source) (text : List Char) (start stop : Nat) : Except Fault (List Token) :=
  match lexFrom stop none start 0 text with
  | .ok found => .ok (found.map fun token => ⟨token.item, token.span source⟩)
  | .error fault => .error ⟨fault.item, fault.span source⟩

end TextTemplate.Token

namespace TextTemplate.Source

/-- The characters that start between two offsets, where the text begins at `offset`. -/
def charsBetween (start stop : Nat) : Nat → List Char → List Char
  | _, [] => []
  | offset, c :: rest =>
      if offset < start then charsBetween start stop (offset + c.utf8Size) rest
      else if offset < stop then c :: charsBetween start stop (offset + c.utf8Size) rest
      else []

/-- The tokens of the whole text. -/
def tokens (source : Source) : Except Fault (List Token) :=
  Token.lex source source.text 0 source.size

/-- The tokens between two offsets, which count at most as the length of the text. -/
def tokensBetween (source : Source) (start stop : Nat) : Except Fault (List Token) :=
  let start := min start source.size
  let stop := min stop source.size
  Token.lex source (charsBetween start stop 0 source.text) start stop

end TextTemplate.Source
