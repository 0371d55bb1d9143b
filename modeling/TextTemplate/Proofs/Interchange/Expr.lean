import TextTemplate.Proofs.Expr.Words
import TextTemplate.Proofs.Interchange.Leaves

/-! # Expressions in the interchange format

An expression is read back from its interchange form exactly when its form is not nested more deeply
than there are levels left, and the format reads its numbers back. -/

namespace TextTemplate

/-- Whether the interchange format reads a word of an expression back as it is. -/
def TokenKind.IsReread : TokenKind → Prop
  | .number value => value.IsReread
  | _ => True

/-- Whether a word is a literal, if it is a number. -/
def TokenKind.IsLiteral : TokenKind → Prop
  | .number value => value.IsLiteral
  | _ => True

/-- What a text spells is a literal. -/
theorem TokenKind.IsSpelled.isLiteral {word : TokenKind} (spelled : word.IsSpelled) :
    word.IsLiteral := by
  cases word with
  | number value => exact spelled
  | _ => trivial

/-! ### Records -/

namespace Json

attribute [local simp] depth

@[simp] theorem depth_variant (name : String) (data : Json) :
    (variant name data).depth = data.depth + 1 := by
  simp [variant, depthOfFields]

@[simp] theorem depth_spannedVariant (name : String) (data : Json) (span : Span) :
    (spannedVariant name data span).depth = data.depth + 2 := by
  simp [spannedVariant, spanned, depthOfFields]

@[simp] theorem variant?_variant (name : String) (data : Json) :
    (variant name data).variant? = some (name, data) := rfl

@[simp] theorem depth_string (value : String) : (Json.string value).depth = 0 := by
  rw [depth]
  all_goals nofun

@[simp] theorem depth_boolean (value : Bool) : (Json.boolean value).depth = 0 := by
  rw [depth]
  all_goals nofun

@[simp] theorem depth_null : Json.null.depth = 0 := by
  rw [depth]
  all_goals nofun

/-- An array is one deeper than its deepest item. -/
theorem depth_array (items : List Json) : (Json.array items).depth = depthOfList items + 1 := by
  rw [Json.depth]

/-- A variant has a text if its data has one. -/
theorem writable_variant (name : String) {data : Json} (writable : data.Writable) :
    (variant name data).Writable := ⟨writable, trivial⟩

/-- A span does not change that. -/
theorem writable_spannedVariant {name : String} {data : Json} (writable : data.Writable)
    (span : Span) : (spannedVariant name data span).Writable :=
  ⟨⟨writable, trivial⟩, span.writable_toJson, trivial⟩

/-- A record of a kind and a span is read if there is a level left for the span. -/
@[simp] theorem spanned?_spanned (levels : Nat) (kind : Json) (span : Span) :
    (kind.spanned span).spanned? levels = if levels = 0 then none else some (kind, span) := by
  have fields : (kind.spanned span).record? ["kind", "span"] 2 =
      some [some kind, some span.toJson] := rfl
  simp only [spanned?, fields, Span.ofJson?_toJson]
  split <;> rfl

@[simp] theorem spanned?_spannedVariant (levels : Nat) (name : String) (data : Json) (span : Span) :
    (spannedVariant name data span).spanned? levels =
      if levels = 0 then none else some (variant name data, span) :=
  spanned?_spanned levels _ span

end Json

namespace Expr

/-! ### Texts -/

mutual

/-- Expressions have texts in the interchange format. -/
theorem writable_toJson : (expr : Expr) → expr.toJson.Writable
  | .number value span => by
      have writable := value.writable_toJson
      exact Json.writable_spannedVariant (Json.writable_variant _ writable) span
  | .text _ span => by
      refine Json.writable_spannedVariant (Json.writable_variant _ ?_) span
      trivial
  | .boolean _ span => by
      refine Json.writable_spannedVariant (Json.writable_variant _ ?_) span
      trivial
  | .array items span => by
      refine Json.writable_spannedVariant (Json.writable_variant _ ?_) span
      exact writable_listToJson items
  | .variable _ span => by
      refine Json.writable_spannedVariant ?_ span
      trivial
  | .binary _ left right span => by
      refine Json.writable_spannedVariant ?_ span
      exact ⟨trivial, writable_toJson left, writable_toJson right, trivial⟩
  | .unary _ operand span => by
      refine Json.writable_spannedVariant ?_ span
      exact ⟨trivial, writable_toJson operand, trivial⟩
  | .call _ arguments span => by
      refine Json.writable_spannedVariant ?_ span
      exact ⟨trivial, writable_listToJson arguments, trivial⟩
  | .member object key span => by
      refine Json.writable_spannedVariant ?_ span
      exact ⟨writable_toJson object, writable_toJson key, trivial⟩

/-- The expressions of a list have texts. -/
theorem writable_listToJson : (exprs : List Expr) → Json.AllWritable (listToJson exprs)
  | [] => trivial
  | expr :: rest => ⟨writable_toJson expr, writable_listToJson rest⟩

end

/-! ### Depths and readers

The levels that an expression takes up besides those of its parts, and what is read inside of
them. -/

section Readers

variable (levels : Nat) (span : Span)

-- Forms and what reads them are taken apart by their equations throughout.
attribute [local simp] toJson listToJson literalRecord ofJson? ofKind? listOfJson?

/-- A number is three levels deeper than its value, and is read if there are so many. -/
theorem ofJson?_number (value : Numeric) :
    (toJson (.number value span)).depth = value.toJson.depth + 3 ∧
      ofJson? levels (toJson (.number value span)) = if levels < 3 then none else
        (Numeric.ofJson (levels - 3) value.toJson).toOption.map (.number · span) := by
  refine ⟨by simp, ?_⟩
  rcases levels with _ | _ | _ | levels <;> simp [ofLiteral?]

/-- A text has three levels. -/
theorem ofJson?_text (value : String) :
    (toJson (.text value span)).depth = 0 + 3 ∧
      ofJson? levels (toJson (.text value span)) = if levels < 3 then none else
        some (.text value span) := by
  refine ⟨by simp, ?_⟩
  rcases levels with _ | _ | _ | levels <;> simp [ofLiteral?, Json.string?]

/-- A truth value has three levels. -/
theorem ofJson?_boolean (value : Bool) :
    (toJson (.boolean value span)).depth = 0 + 3 ∧
      ofJson? levels (toJson (.boolean value span)) = if levels < 3 then none else
        some (.boolean value span) := by
  refine ⟨by simp, ?_⟩
  rcases levels with _ | _ | _ | levels <;> simp [ofLiteral?, Json.boolean?]

/-- An array is three levels deeper than the list of its items. -/
theorem ofJson?_array (items : List Expr) :
    (toJson (.array items span)).depth = (Json.array (listToJson items)).depth + 3 ∧
      ofJson? levels (toJson (.array items span)) = if levels < 3 then none else
        (listOfJson? (levels - 3) (.array (listToJson items))).map (.array · span) := by
  refine ⟨by simp, ?_⟩
  rcases levels with _ | _ | _ | levels <;> simp [ofLiteral?]

/-- A variable has two levels. -/
theorem ofJson?_variable (path : String) :
    (toJson (.variable path span)).depth = 0 + 2 ∧
      ofJson? levels (toJson (.variable path span)) = if levels < 2 then none else
        some (.variable path span) := by
  refine ⟨by simp, ?_⟩
  rcases levels with _ | _ | levels <;> simp [Json.string?]

/-- A binary operation is three levels deeper than the deeper one of its operands. -/
theorem ofJson?_binary (operator : BinaryOperator) (left right : Expr) :
    (toJson (.binary operator left right span)).depth = max left.toJson.depth right.toJson.depth + 3 ∧
      ofJson? levels (toJson (.binary operator left right span)) = if levels < 3 then none else
        (ofJson? (levels - 3) left.toJson).bind fun left =>
          (ofJson? (levels - 3) right.toJson).map fun right => .binary operator left right span := by
  refine ⟨by simp [Json.depth, Json.depthOfFields], ?_⟩
  rcases levels with _ | _ | _ | levels <;>
    simp [ofBinary?, Json.unitVariant?, Json.record?, Json.fieldCount, Json.field?,
      Option.map_eq_bind]

/-- A prefix operation is three levels deeper than its operand. -/
theorem ofJson?_unary (operator : UnaryOperator) (operand : Expr) :
    (toJson (.unary operator operand span)).depth = operand.toJson.depth + 3 ∧
      ofJson? levels (toJson (.unary operator operand span)) = if levels < 3 then none else
        (ofJson? (levels - 3) operand.toJson).map (.unary operator · span) := by
  refine ⟨by simp [Json.depth, Json.depthOfFields], ?_⟩
  rcases levels with _ | _ | _ | levels <;>
    simp [ofUnary?, Json.unitVariant?, Json.record?, Json.fieldCount, Json.field?,
      Option.map_eq_bind]

/-- A call is three levels deeper than the list of its arguments. -/
theorem ofJson?_call (name : String) (arguments : List Expr) :
    (toJson (.call name arguments span)).depth = (Json.array (listToJson arguments)).depth + 3 ∧
      ofJson? levels (toJson (.call name arguments span)) = if levels < 3 then none else
        (listOfJson? (levels - 3) (.array (listToJson arguments))).map (.call name · span) := by
  refine ⟨by simp [Json.depth, Json.depthOfFields], ?_⟩
  rcases levels with _ | _ | _ | levels <;>
    simp [ofCall?, Json.string?, Json.record?, Json.fieldCount, Json.field?, Option.map_eq_bind]

/-- A member is three levels deeper than the deeper one of its object and its key. -/
theorem ofJson?_member (object key : Expr) :
    (toJson (.member object key span)).depth = max object.toJson.depth key.toJson.depth + 3 ∧
      ofJson? levels (toJson (.member object key span)) = if levels < 3 then none else
        (ofJson? (levels - 3) object.toJson).bind fun object =>
          (ofJson? (levels - 3) key.toJson).map fun key => .member object key span := by
  refine ⟨by simp [Json.depth, Json.depthOfFields], ?_⟩
  rcases levels with _ | _ | _ | levels <;>
    simp [ofMember?, Json.record?, Json.fieldCount, Json.field?, Option.map_eq_bind]

/-- An empty list has one level. -/
theorem listOfJson?_nil :
    (Json.array (listToJson [])).depth = 0 + 1 ∧
      listOfJson? levels (.array (listToJson [])) = if levels < 1 then none else some [] := by
  refine ⟨by simp [Json.depth, Json.depthOfList], ?_⟩
  rcases levels with _ | levels <;> simp [Json.items?]

/-- A list is one level deeper than the deepest of its expressions. -/
theorem listOfJson?_cons (expr : Expr) (rest : List Expr) :
    (Json.array (listToJson (expr :: rest))).depth =
        max expr.toJson.depth (Json.depthOfList (listToJson rest)) + 1 ∧
      listOfJson? levels (.array (listToJson (expr :: rest))) = if levels < 1 then none else
        (ofJson? (levels - 1) expr.toJson).bind fun first =>
          (listOfJson? levels (.array (listToJson rest))).map fun others => first :: others := by
  refine ⟨by simp [Json.depth, Json.depthOfList], ?_⟩
  rcases levels with _ | levels <;> simp [Json.items?, List.mapM_cons, Option.map_eq_bind]

end Readers

/-! ### Reading back -/

mutual

/-- An expression is read back exactly when its form is not too deep for the levels that are left
and its numbers are read back. -/
theorem reads_toJson_iff : (expr : Expr) → (∀ word ∈ expr.words, word.IsLiteral) →
    ∀ (levels : Nat), Reads (ofJson? levels expr.toJson) (·.same expr) ↔
      expr.toJson.depth ≤ levels ∧ ∀ word ∈ expr.words, word.IsReread
  | .number value span, literal, levels => by
      rw [(ofJson?_number levels span value).1, (ofJson?_number levels span value).2]
      refine reads_levels fun _ => ?_
      have number := Numeric.reads_toJson_iff (literal _ (.head _)) (levels - 3)
      simp [reads_map, same, number, words, TokenKind.IsReread, Nat.succ_le_iff]
  | .text value span, _, levels => by
      rw [(ofJson?_text levels span value).1, (ofJson?_text levels span value).2]
      exact reads_levels fun _ => by simp [same, words]
  | .boolean value span, _, levels => by
      rw [(ofJson?_boolean levels span value).1, (ofJson?_boolean levels span value).2]
      exact reads_levels fun _ => by simp [same, words]
  | .array items span, literal, levels => by
      rw [(ofJson?_array levels span items).1, (ofJson?_array levels span items).2]
      refine reads_levels fun _ => ?_
      have inside := reads_listToJson_iff items literal (levels - 3)
      simp [reads_map, same, inside, words]
  | .variable path span, _, levels => by
      rw [(ofJson?_variable levels span path).1, (ofJson?_variable levels span path).2]
      exact reads_levels fun _ => by simp [same, words, TokenKind.IsReread]
  | .binary operator left right span, literal, levels => by
      rw [(ofJson?_binary levels span operator left right).1,
        (ofJson?_binary levels span operator left right).2]
      rw [words, List.forall_mem_append] at literal
      refine reads_levels fun _ => ?_
      -- Both operands have the same levels left, and the deeper one decides.
      rw [reads_bind (·.same left) (·.same right) fun _ _ => by simp [same]]
      rw [reads_toJson_iff left literal.1, reads_toJson_iff right literal.2, words,
        List.forall_mem_append, Nat.max_le]
      exact and_and_and_comm
  | .unary operator operand span, literal, levels => by
      rw [(ofJson?_unary levels span operator operand).1,
        (ofJson?_unary levels span operator operand).2]
      refine reads_levels fun _ => ?_
      have inside := reads_toJson_iff operand literal (levels - 3)
      simp [reads_map, same, inside, words]
  | .call name arguments span, literal, levels => by
      rw [(ofJson?_call levels span name arguments).1,
        (ofJson?_call levels span name arguments).2]
      rw [words, List.forall_mem_cons] at literal
      refine reads_levels fun _ => ?_
      have inside := reads_listToJson_iff arguments literal.2 (levels - 3)
      simp [reads_map, same, inside, words, TokenKind.IsReread]
  | .member object key span, literal, levels => by
      rw [(ofJson?_member levels span object key).1, (ofJson?_member levels span object key).2]
      rw [words, List.forall_mem_append] at literal
      refine reads_levels fun _ => ?_
      rw [reads_bind (·.same object) (·.same key) fun _ _ => by simp [same]]
      rw [reads_toJson_iff object literal.1, reads_toJson_iff key literal.2, words,
        List.forall_mem_append, Nat.max_le]
      exact and_and_and_comm

/-- Expressions of a list are read back exactly if there are levels enough for them and their words
are. -/
theorem reads_listToJson_iff : (exprs : List Expr) →
    (∀ word ∈ wordsOfList exprs, word.IsLiteral) → ∀ (levels : Nat),
    Reads (listOfJson? levels (.array (listToJson exprs))) (sameList · exprs) ↔
      (Json.array (listToJson exprs)).depth ≤ levels ∧ ∀ word ∈ wordsOfList exprs, word.IsReread
  | [], _, levels => by
      rw [(listOfJson?_nil levels).1, (listOfJson?_nil levels).2]
      exact reads_levels fun _ => by simp [sameList, wordsOfList]
  | expr :: rest, literal, levels => by
      rw [wordsOfList, List.forall_mem_append] at literal
      rw [(listOfJson?_cons levels expr rest).1, (listOfJson?_cons levels expr rest).2]
      refine reads_levels fun enough => ?_
      rw [reads_bind (·.same expr) (sameList · rest) fun _ _ => rfl]
      rw [reads_toJson_iff expr literal.1, reads_listToJson_iff rest literal.2, Json.depth_array,
        ← Nat.le_sub_iff_add_le enough, wordsOfList, List.forall_mem_append, Nat.max_le]
      exact and_and_and_comm

end

end Expr

end TextTemplate
