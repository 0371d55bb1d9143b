import TextTemplate.Interchange.Expr
import TextTemplate.Node.Basic

/-! # Nodes in the interchange format

A node is a record of its kind and its span, like an expression. -/

namespace TextTemplate.Node

/-! ### Writing -/

/-- An optional string as an interchange value. -/
def optionalString : Option String → Json
  | some value => .string value
  | none => .null

mutual

/-- A node as an interchange value. -/
def toJson : Node → Json
  | .text content span => .spannedVariant "text" (.string content) span
  | .interpolation expr span => .spannedVariant "interpolation" expr.toJson span
  | .comment content span => .spannedVariant "comment" (.string content) span
  | .loop item index source body span =>
      .spannedVariant "for" (.object [("item", .string item), ("index", optionalString index),
        ("source", source.toJson), ("body", .array (listToJson body))]) span
  | .choice branches otherwise span =>
      .spannedVariant "if" (.object [("branches", .array (branchesToJson branches)),
        ("else_body", elseToJson otherwise)]) span

/-- Nodes as interchange values. -/
def listToJson : List Node → List Json
  | [] => []
  | node :: rest => toJson node :: listToJson rest

/-- Branches as interchange values. -/
def branchesToJson : List (Expr × List Node) → List Json
  | [] => []
  | (condition, body) :: rest =>
      .object [("condition", condition.toJson), ("body", .array (listToJson body))] ::
        branchesToJson rest

/-- The last branch as an interchange value. -/
def elseToJson : Option (List Node) → Json
  | some body => .array (listToJson body)
  | none => .null

end

/-! ### Reading -/

mutual

/-- The node of an interchange value, read with `levels` levels of nesting left. -/
def ofJson? (levels : Nat) (json : Json) : Option Node :=
  match levels with
  | 0 => none
  | levels + 1 => do
      let (kind, span) ← json.spanned? levels
      ofKind? levels span kind

/-- The node of a kind. -/
def ofKind? (levels : Nat) (span : Span) (kind : Json) : Option Node :=
  match levels with
  | 0 => none
  | levels + 1 =>
      match kind.variant? with
      | some ("text", data) => data.string?.map fun content => .text content span
      | some ("interpolation", data) =>
          (Expr.ofJson? levels data).map fun expr => .interpolation expr span
      | some ("comment", data) => data.string?.map fun content => .comment content span
      | some ("for", data) => ofLoop? levels span data
      | some ("if", data) => ofChoice? levels span data
      | _ => none

/-- The node of a loop. -/
def ofLoop? (levels : Nat) (span : Span) (data : Json) : Option Node :=
  match levels with
  | 0 => none
  | levels + 1 =>
      match data.record? ["item", "index", "source", "body"] 4 with
      | some [some item, index, some source, some body] => do
          return .loop (← item.string?) (← Json.optional? Json.string? index)
            (← Expr.ofJson? levels source) (← listOfJson? levels body) span
      | _ => none

/-- The node of a choice. -/
def ofChoice? (levels : Nat) (span : Span) (data : Json) : Option Node :=
  match levels with
  | 0 => none
  | levels + 1 =>
      match data.record? ["branches", "else_body"] 2 with
      | some [some branches, otherwise] => do
          return .choice (← branchesOfJson? levels branches)
            (← Json.optional? (listOfJson? levels) otherwise) span
      | _ => none

/-- The nodes of an array. -/
def listOfJson? (levels : Nat) (json : Json) : Option (List Node) :=
  match levels with
  | 0 => none
  | levels + 1 => do (← json.items?).mapM (ofJson? levels)

/-- The branches of an array. -/
def branchesOfJson? (levels : Nat) (json : Json) : Option (List (Expr × List Node)) :=
  match levels with
  | 0 => none
  | levels + 1 => do (← json.items?).mapM (branchOfJson? levels)

/-- The branch of an interchange value. -/
def branchOfJson? (levels : Nat) (json : Json) : Option (Expr × List Node) :=
  match levels with
  | 0 => none
  | levels + 1 =>
      match json.record? ["condition", "body"] 2 with
      | some [some condition, some body] => do
          return (← Expr.ofJson? levels condition, ← listOfJson? levels body)
      | _ => none

end

end TextTemplate.Node
