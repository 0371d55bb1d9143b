import TextTemplate.Source.Basic

/-! # Faults

What can be wrong with a template. A fault is a cause and the span that it is found at; its code,
message and advice follow from the cause. -/

namespace TextTemplate

/-- The three forms of tags. -/
inductive TagKind where
  /-- An expression whose value is shown. -/
  | interpolation
  /-- A part of a block. -/
  | statement
  /-- A remark. -/
  | comment
  deriving DecidableEq

namespace TagKind

/-- The character after the brace that opens a tag of this form. -/
def marker : TagKind → Char
  | .interpolation => '\x7b'
  | .statement => '%'
  | .comment => '#'

/-- The character before the brace that closes a tag of this form. -/
def closingMarker : TagKind → Char
  | .interpolation => '\x7d'
  | .statement => '%'
  | .comment => '#'

/-- The form whose tags open with a marker. -/
def ofMarker? (c : Char) : Option TagKind :=
  if c = '\x7b' then some .interpolation
  else if c = '%' then some .statement
  else if c = '#' then some .comment
  else none

/-- What a tag of this form opens with. -/
def opener (kind : TagKind) : List Char := ['\x7b', kind.marker]

/-- What a tag of this form closes with. -/
def closer (kind : TagKind) : List Char := [kind.closingMarker, '\x7d']

end TagKind

/-- The two kinds of blocks. -/
inductive BlockKind where
  /-- A choice between branches. -/
  | choice
  /-- A loop over entries. -/
  | loop
  deriving DecidableEq

namespace BlockKind

/-- The word that opens a block. -/
def word : BlockKind → String
  | .choice => "if"
  | .loop => "for"

/-- The word that closes a block. -/
def closingWord : BlockKind → String
  | .choice => "endif"
  | .loop => "endfor"

/-- The other kind. -/
def other : BlockKind → BlockKind
  | .choice => .loop
  | .loop => .choice

end BlockKind

/-- The two shapes of brackets. -/
inductive Bracket where
  | round
  | square
  deriving DecidableEq

namespace Bracket

/-- The opening bracket. -/
def opening : Bracket → Char
  | .round => '('
  | .square => '['

/-- The closing bracket. -/
def closing : Bracket → Char
  | .round => ')'
  | .square => ']'

/-- What messages call the bracket. -/
def name : Bracket → String
  | .round => "parenthesis"
  | .square => "bracket"

/-- The other shape. -/
def other : Bracket → Bracket
  | .round => .square
  | .square => .round

end Bracket

/-- What is wrong. -/
inductive Cause where
  /-- A character with which no token starts. -/
  | unexpectedCharacter (c : Char)
  /-- A character that may not follow a number directly. -/
  | unexpectedAfterNumber (c : Char)
  /-- A number too large for any representation. -/
  | numberOutOfRange (text : String)
  /-- A number that cannot be read. -/
  | invalidNumber (text : String)
  /-- A string without its closing quote. -/
  | unterminatedString
  /-- Nothing where an expression is required. -/
  | expectedExpression
  /-- A token in a place where no operand may start. -/
  | unexpectedToken (shown : String)
  /-- A method name without its parenthesis. -/
  | expectedCall (name : String)
  /-- An operator or bracket where an operand is required. -/
  | missingOperandBefore (symbol : String)
  /-- A comma outside a list. -/
  | unexpectedComma
  /-- A comma where an argument is required. -/
  | missingArgumentBeforeComma
  /-- An argument missing between a comma and the end of a list. -/
  | emptyArgumentBefore (bracket : Bracket)
  /-- Parentheses with nothing in them. -/
  | emptyParentheses
  /-- Index brackets with nothing in them. -/
  | missingIndex
  /-- A closing bracket while the other shape, opened at `opened`, is still open. -/
  | mismatchedBracket (closing : Bracket) (opened : Span)
  /-- A closing bracket while none is open. -/
  | unmatchedBracket (closing : Bracket)
  /-- An opening bracket that is not closed. -/
  | neverClosed (opening : Bracket)
  /-- An operator at the end. -/
  | missingOperandAtEnd
  /-- An operator without enough operands. -/
  | missingOperand
  /-- A list without enough items. -/
  | missingArgument
  /-- Operands that nothing connects. -/
  | invalidExpression
  /-- An expression with too many levels. -/
  | expressionTooDeep (limit : Nat)
  /-- A tag that is not closed. -/
  | unclosedTag (kind : TagKind)
  /-- A block that is not closed. -/
  | missingCloser (block : BlockKind)
  /-- A word that belongs to a block, outside of one. -/
  | orphan (word : String) (block : BlockKind)
  /-- A statement tag without a word. -/
  | emptyStatement
  /-- A statement tag with a word that is none of the statements. -/
  | unknownStatement (word : String)
  /-- A branch without a condition. -/
  | conditionRequired (word : String)
  /-- A conditional branch after the last one. -/
  | branchAfterElse
  /-- A second last branch. -/
  | duplicateElse
  /-- Text after a word that stands alone. -/
  | trailingText (word : String)
  /-- A loop header that is not of the right form. -/
  | malformedHeader (text : String)
  /-- A loop variable with a name that has another meaning. -/
  | reservedName (name : String)
  /-- Too many blocks inside each other. -/
  | blocksTooDeep (limit : Nat)
  deriving DecidableEq

namespace Cause

/-- The code of a cause. Codes from 100 concern expressions, codes from 200 the template. -/
def code : Cause → Nat
  | .unexpectedCharacter _ | .unexpectedAfterNumber _ | .numberOutOfRange _
  | .invalidNumber _ => 100
  | .unterminatedString => 101
  | .mismatchedBracket _ _ | .unmatchedBracket _ | .neverClosed _ => 102
  | .unexpectedToken _ | .expectedCall _ | .unexpectedComma | .invalidExpression => 103
  | .expectedExpression | .missingOperandBefore _ | .missingArgumentBeforeComma
  | .emptyArgumentBefore _ | .emptyParentheses | .missingIndex | .missingOperandAtEnd
  | .missingOperand | .missingArgument => 104
  | .unclosedTag _ => 200
  | .missingCloser _ => 201
  | .orphan _ _ => 202
  | .emptyStatement | .unknownStatement _ | .conditionRequired _ | .branchAfterElse
  | .duplicateElse | .trailingText _ | .malformedHeader _ => 203
  | .reservedName _ => 204
  | .expressionTooDeep _ | .blocksTooDeep _ => 205

/-- What a diagnostic says. -/
def message : Cause → String
  | .unexpectedCharacter c => "unexpected character '" ++ String.singleton c ++ "'"
  | .unexpectedAfterNumber c => "unexpected character '" ++ String.singleton c ++ "' after number"
  | .numberOutOfRange text => "number literal '" ++ text ++ "' is out of range"
  | .invalidNumber text => "invalid number literal '" ++ text ++ "'"
  | .unterminatedString => "unterminated string literal"
  | .expectedExpression => "expected an expression"
  | .unexpectedToken shown => "unexpected '" ++ shown ++ "'"
  | .expectedCall name => "expected '(' after '" ++ name ++ "'"
  | .missingOperandBefore symbol => "missing operand before '" ++ symbol ++ "'"
  | .unexpectedComma => "unexpected ','"
  | .missingArgumentBeforeComma => "missing argument before ','"
  | .emptyArgumentBefore bracket =>
      "empty argument before '" ++ String.singleton bracket.closing ++ "'"
  | .emptyParentheses => "empty parentheses"
  | .missingIndex => "missing index inside '[]'"
  | .mismatchedBracket closing _ =>
      "mismatched " ++ closing.name ++ ": found '" ++ String.singleton closing.closing ++
        "' while '" ++ String.singleton closing.other.opening ++ "' is open"
  | .unmatchedBracket closing =>
      "mismatched " ++ closing.name ++ ": unmatched '" ++ String.singleton closing.closing ++ "'"
  | .neverClosed opening =>
      "mismatched " ++ opening.name ++ ": '" ++ String.singleton opening.opening ++
        "' is never closed"
  | .missingOperandAtEnd => "missing operand at end of expression"
  | .missingOperand => "missing operand"
  | .missingArgument => "missing argument"
  | .invalidExpression => "invalid expression"
  | .expressionTooDeep limit => "expression nests deeper than " ++ toString limit ++ " levels"
  | .unclosedTag kind => "unclosed tag '" ++ String.ofList kind.opener ++ "'"
  | .missingCloser block => "'" ++ block.word ++ "' block is never closed"
  | .orphan word block => "'" ++ word ++ "' without an open '" ++ block.word ++ "' block"
  | .emptyStatement => "empty statement tag"
  | .unknownStatement word => "unknown statement '" ++ word ++ "'"
  | .conditionRequired word => "'" ++ word ++ "' requires a condition"
  | .branchAfterElse => "'elif' after 'else'"
  | .duplicateElse => "duplicate 'else'"
  | .trailingText word => "unexpected text after '" ++ word ++ "'"
  | .malformedHeader text => "malformed for header '" ++ text ++ "'"
  | .reservedName name => "'" ++ name ++ "' is reserved and cannot name a loop variable"
  | .blocksTooDeep limit => "blocks nest deeper than " ++ toString limit ++ " levels"

/-- What a diagnostic advises, if anything. -/
def advice? : Cause → Option String
  | .mismatchedBracket closing opened =>
      some ("close the '" ++ String.singleton closing.other.opening ++ "' at " ++
        String.ofList opened.display ++ " with '" ++ String.singleton closing.other.closing ++ "'")
  | .expressionTooDeep _ => some "split the expression or compute part of it in a method"
  | .unclosedTag kind => some ("add '" ++ String.ofList kind.closer ++ "'")
  | .missingCloser block => some ("add \x7b% " ++ block.closingWord ++ " %\x7d")
  | .unknownStatement _ => some "statements are if, elif, else, endif, for and endfor"
  | .malformedHeader _ =>
      some "expected \x7b% for item in source %\x7d or \x7b% for item, index in source %\x7d"
  | .reservedName _ => some "choose a different variable name"
  | _ => none

end Cause

/-- A cause and the span that it is found at. -/
structure Fault where
  cause : Cause
  span : Span
  deriving DecidableEq

end TextTemplate
