import TextTemplate.Expr.Basic
import TextTemplate.Interchange.Numeric
import TextTemplate.Interchange.Span

/-! # Expressions in the interchange format

An expression is a record of its kind and its span; the kind is a variant with the parts of the
expression. Reading goes one level of nesting down with every array and object. -/

namespace TextTemplate

/-! ### Operators -/

/-- The name of a binary operator in the interchange format. -/
def BinaryOperator.dataName : BinaryOperator → String
  | .or => "or"
  | .and => "and"
  | .bitOr => "bit_or"
  | .bitXor => "bit_xor"
  | .bitAnd => "bit_and"
  | .equal => "eq"
  | .notEqual => "not_eq"
  | .strictEqual => "strict_eq"
  | .strictNotEqual => "strict_not_eq"
  | .less => "less"
  | .lessEqual => "less_eq"
  | .greater => "greater"
  | .greaterEqual => "greater_eq"
  | .shiftLeft => "shl"
  | .shiftRight => "shr"
  | .unsignedShiftRight => "u_shr"
  | .add => "add"
  | .subtract => "sub"
  | .multiply => "mul"
  | .divide => "div"
  | .modulo => "mod"
  | .power => "pow"

/-- The binary operator with a name in the interchange format. -/
def BinaryOperator.ofDataName? (name : String) : Option BinaryOperator :=
  BinaryOperator.all.find? (·.dataName == name)

/-- The name of a unary operator in the interchange format. -/
def UnaryOperator.dataName : UnaryOperator → String
  | .not => "not"
  | .bitNot => "bit_not"
  | .negate => "neg"

/-- The unary operator with a name in the interchange format. -/
def UnaryOperator.ofDataName? (name : String) : Option UnaryOperator :=
  UnaryOperator.all.find? (·.dataName == name)

namespace Expr

/-! ### Writing -/

/-- The record of a literal. -/
def literalRecord (name : String) (data : Json) (span : Span) : Json :=
  .spannedVariant "literal" (.variant name data) span

mutual

/-- An expression as an interchange value. -/
def toJson : Expr → Json
  | .number value span => literalRecord "number" value.toJson span
  | .text value span => literalRecord "string" (.string value) span
  | .boolean value span => literalRecord "boolean" (.boolean value) span
  | .array items span => literalRecord "array" (.array (listToJson items)) span
  | .variable path span => .spannedVariant "variable" (.string path) span
  | .binary operator left right span =>
      .spannedVariant "binary" (.object [("op", .string operator.dataName),
        ("left", toJson left), ("right", toJson right)]) span
  | .unary operator operand span =>
      .spannedVariant "unary" (.object [("op", .string operator.dataName),
        ("operand", toJson operand)]) span
  | .call name arguments span =>
      .spannedVariant "method_call" (.object [("name", .string name),
        ("args", .array (listToJson arguments))]) span
  | .member object key span =>
      .spannedVariant "member_access" (.object [("object", toJson object),
        ("property", toJson key)]) span

/-- Expressions as interchange values. -/
def listToJson : List Expr → List Json
  | [] => []
  | expr :: rest => toJson expr :: listToJson rest

end

/-! ### Reading -/

mutual

/-- The expression of an interchange value, read with `levels` levels of nesting left. -/
def ofJson? (levels : Nat) (json : Json) : Option Expr :=
  match levels with
  | 0 => none
  | levels + 1 => do
      let (kind, span) ← json.spanned? levels
      ofKind? levels span kind

/-- The expression of a kind. -/
def ofKind? (levels : Nat) (span : Span) (kind : Json) : Option Expr :=
  match levels with
  | 0 => none
  | levels + 1 =>
      match kind.variant? with
      | some ("literal", data) => ofLiteral? levels span data
      | some ("variable", data) => data.string?.map fun path => .variable path span
      | some ("binary", data) => ofBinary? levels span data
      | some ("unary", data) => ofUnary? levels span data
      | some ("method_call", data) => ofCall? levels span data
      | some ("member_access", data) => ofMember? levels span data
      | _ => none

/-- The expression of a literal. -/
def ofLiteral? (levels : Nat) (span : Span) (data : Json) : Option Expr :=
  match levels with
  | 0 => none
  | levels + 1 =>
      match data.variant? with
      | some ("number", data) =>
          (Numeric.ofJson levels data).toOption.map fun value => .number value span
      | some ("string", data) => data.string?.map fun value => .text value span
      | some ("boolean", data) => data.boolean?.map fun value => .boolean value span
      | some ("array", data) => (listOfJson? levels data).map fun items => .array items span
      | _ => none

/-- The expression of a binary operator with its operands. -/
def ofBinary? (levels : Nat) (span : Span) (data : Json) : Option Expr :=
  match levels with
  | 0 => none
  | levels + 1 =>
      match data.record? ["op", "left", "right"] 3 with
      | some [some operator, some left, some right] => do
          return .binary (← (operator.unitVariant? levels).bind BinaryOperator.ofDataName?)
            (← ofJson? levels left) (← ofJson? levels right) span
      | _ => none

/-- The expression of a unary operator with its operand. -/
def ofUnary? (levels : Nat) (span : Span) (data : Json) : Option Expr :=
  match levels with
  | 0 => none
  | levels + 1 =>
      match data.record? ["op", "operand"] 2 with
      | some [some operator, some operand] => do
          return .unary (← (operator.unitVariant? levels).bind UnaryOperator.ofDataName?)
            (← ofJson? levels operand) span
      | _ => none

/-- The expression of a method with its arguments. -/
def ofCall? (levels : Nat) (span : Span) (data : Json) : Option Expr :=
  match levels with
  | 0 => none
  | levels + 1 =>
      match data.record? ["name", "args"] 2 with
      | some [some name, some arguments] => do
          return .call (← name.string?) (← listOfJson? levels arguments) span
      | _ => none

/-- The expression of a member access. -/
def ofMember? (levels : Nat) (span : Span) (data : Json) : Option Expr :=
  match levels with
  | 0 => none
  | levels + 1 =>
      match data.record? ["object", "property"] 2 with
      | some [some object, some key] => do
          return .member (← ofJson? levels object) (← ofJson? levels key) span
      | _ => none

/-- The expressions of an array. -/
def listOfJson? (levels : Nat) (json : Json) : Option (List Expr) :=
  match levels with
  | 0 => none
  | levels + 1 => do (← json.items?).mapM (ofJson? levels)

end

end Expr

end TextTemplate
