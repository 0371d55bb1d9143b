import TextTemplate.Interchange.Node
import TextTemplate.Proofs.Interchange.Expr
import TextTemplate.Proofs.Node.Words

/-! # Nodes in the interchange format

Nodes are read back from their interchange form like expressions: exactly when the form is not too
deep and the numbers in it are read back. -/

namespace TextTemplate.Node

/-! ### Texts -/

mutual

/-- Nodes have texts in the interchange format. -/
theorem writable_toJson : (node : Node) → node.toJson.Writable
  | .text _ span => by
      refine Json.writable_spannedVariant ?_ span
      trivial
  | .interpolation expr span => Json.writable_spannedVariant expr.writable_toJson span
  | .comment _ span => by
      refine Json.writable_spannedVariant ?_ span
      trivial
  | .loop _ index source body span => by
      refine Json.writable_spannedVariant ?_ span
      refine ⟨trivial, ?_, source.writable_toJson, writable_listToJson body, trivial⟩
      cases index <;> trivial
  | .choice branches otherwise span => by
      refine Json.writable_spannedVariant ?_ span
      exact ⟨writable_branchesToJson branches, writable_elseToJson otherwise, trivial⟩

/-- Nodes have texts. -/
theorem writable_listToJson : (nodes : List Node) → Json.AllWritable (listToJson nodes)
  | [] => trivial
  | node :: rest => ⟨writable_toJson node, writable_listToJson rest⟩

/-- Branches have texts. -/
theorem writable_branchesToJson :
    (branches : List (Expr × List Node)) → Json.AllWritable (branchesToJson branches)
  | [] => trivial
  | (condition, body) :: rest =>
      ⟨⟨condition.writable_toJson, writable_listToJson body, trivial⟩,
        writable_branchesToJson rest⟩

/-- The last branch has a text, and so has a missing one. -/
theorem writable_elseToJson : (otherwise : Option (List Node)) → (elseToJson otherwise).Writable
  | none => trivial
  | some body => writable_listToJson body

end

/-! ### Depths and readers -/

section Readers

variable (levels : Nat) (span : Span)

-- Forms and what reads them are taken apart by their equations throughout.
attribute [local simp] toJson listToJson branchesToJson ofJson? ofKind? listOfJson? branchesOfJson?

/-- A text has two levels. -/
theorem ofJson?_text (content : String) :
    (toJson (.text content span)).depth = 0 + 2 ∧
      ofJson? levels (toJson (.text content span)) = if levels < 2 then none else
        some (.text content span) := by
  refine ⟨by simp, ?_⟩
  rcases levels with _ | _ | levels <;> simp [Json.string?]

/-- An interpolation is two levels deeper than its expression. -/
theorem ofJson?_interpolation (expr : Expr) :
    (toJson (.interpolation expr span)).depth = expr.toJson.depth + 2 ∧
      ofJson? levels (toJson (.interpolation expr span)) = if levels < 2 then none else
        (Expr.ofJson? (levels - 2) expr.toJson).map (.interpolation · span) := by
  refine ⟨by simp, ?_⟩
  rcases levels with _ | _ | levels <;> simp

/-- A comment has two levels. -/
theorem ofJson?_comment (content : String) :
    (toJson (.comment content span)).depth = 0 + 2 ∧
      ofJson? levels (toJson (.comment content span)) = if levels < 2 then none else
        some (.comment content span) := by
  refine ⟨by simp, ?_⟩
  rcases levels with _ | _ | levels <;> simp [Json.string?]

/-- The optional name of a loop is read back. -/
@[simp] theorem optional?_optionalString (index : Option String) :
    Json.optional? Json.string? (some (optionalString index)) = some index := by
  cases index <;> rfl

@[simp] theorem depth_optionalString (index : Option String) : (optionalString index).depth = 0 := by
  cases index <;> simp [optionalString]

/-- A loop is three levels deeper than what it runs through, or than its body. -/
theorem ofJson?_loop (item : String) (index : Option String) (source : Expr) (body : List Node) :
    (toJson (.loop item index source body span)).depth =
        max source.toJson.depth (Json.array (listToJson body)).depth + 3 ∧
      ofJson? levels (toJson (.loop item index source body span)) = if levels < 3 then none else
        (Expr.ofJson? (levels - 3) source.toJson).bind fun source =>
          (listOfJson? (levels - 3) (.array (listToJson body))).map fun body =>
            .loop item index source body span := by
  refine ⟨by simp [Json.depth, Json.depthOfFields], ?_⟩
  rcases levels with _ | _ | _ | levels <;>
    simp [ofLoop?, Json.string?, Json.record?, Json.fieldCount, Json.field?, Option.map_eq_bind]

/-- A choice is three levels deeper than its branches, or than its last body. -/
theorem ofJson?_choice (branches : List (Expr × List Node)) (otherwise : Option (List Node)) :
    (toJson (.choice branches otherwise span)).depth =
        max (Json.array (branchesToJson branches)).depth (elseToJson otherwise).depth + 3 ∧
      ofJson? levels (toJson (.choice branches otherwise span)) = if levels < 3 then none else
        (branchesOfJson? (levels - 3) (.array (branchesToJson branches))).bind fun branches =>
          (Json.optional? (listOfJson? (levels - 3)) (some (elseToJson otherwise))).map
            fun otherwise => .choice branches otherwise span := by
  refine ⟨by simp [Json.depth, Json.depthOfFields], ?_⟩
  rcases levels with _ | _ | _ | levels <;>
    simp [ofChoice?, Json.record?, Json.fieldCount, Json.field?, Option.map_eq_bind]

/-- An empty body has one level. -/
theorem listOfJson?_nil :
    (Json.array (listToJson [])).depth = 0 + 1 ∧
      listOfJson? levels (.array (listToJson [])) = if levels < 1 then none else some [] := by
  refine ⟨by simp [Json.depth, Json.depthOfList], ?_⟩
  rcases levels with _ | levels <;> simp [Json.items?]

/-- A body is one level deeper than the deepest of its nodes. -/
theorem listOfJson?_cons (node : Node) (rest : List Node) :
    (Json.array (listToJson (node :: rest))).depth =
        max node.toJson.depth (Json.depthOfList (listToJson rest)) + 1 ∧
      listOfJson? levels (.array (listToJson (node :: rest))) = if levels < 1 then none else
        (ofJson? (levels - 1) node.toJson).bind fun first =>
          (listOfJson? levels (.array (listToJson rest))).map fun others => first :: others := by
  refine ⟨by simp [Json.depth, Json.depthOfList], ?_⟩
  rcases levels with _ | levels <;> simp [Json.items?, List.mapM_cons, Option.map_eq_bind]

/-- An empty list of branches has one level. -/
theorem branchesOfJson?_nil :
    (Json.array (branchesToJson [])).depth = 0 + 1 ∧
      branchesOfJson? levels (.array (branchesToJson [])) =
        if levels < 1 then none else some [] := by
  refine ⟨by simp [Json.depth, Json.depthOfList], ?_⟩
  rcases levels with _ | levels <;> simp [Json.items?]

/-- The interchange form of a branch. -/
def branchToJson (condition : Expr) (body : List Node) : Json :=
  .object [("condition", condition.toJson), ("body", .array (listToJson body))]

/-- A branch is one level deeper than its condition, or than its body. -/
theorem branchOfJson?_branchToJson (condition : Expr) (body : List Node) :
    (branchToJson condition body).depth =
        max condition.toJson.depth (Json.array (listToJson body)).depth + 1 ∧
      branchOfJson? levels (branchToJson condition body) = if levels < 1 then none else
        (Expr.ofJson? (levels - 1) condition.toJson).bind fun condition =>
          (listOfJson? (levels - 1) (.array (listToJson body))).map fun body =>
            (condition, body) := by
  refine ⟨by simp [branchToJson, Json.depth, Json.depthOfFields], ?_⟩
  rcases levels with _ | levels <;>
    simp [branchToJson, branchOfJson?, Json.record?, Json.fieldCount, Json.field?,
      Option.map_eq_bind]

/-- Branches are one level deeper than the deepest of them. -/
theorem branchesOfJson?_cons (condition : Expr) (body : List Node)
    (rest : List (Expr × List Node)) :
    (Json.array (branchesToJson ((condition, body) :: rest))).depth =
        max (branchToJson condition body).depth (Json.depthOfList (branchesToJson rest)) + 1 ∧
      branchesOfJson? levels (.array (branchesToJson ((condition, body) :: rest))) =
        if levels < 1 then none else
          (branchOfJson? (levels - 1) (branchToJson condition body)).bind fun first =>
            (branchesOfJson? levels (.array (branchesToJson rest))).map
              fun others => first :: others := by
  refine ⟨by simp [branchToJson, Json.depth, Json.depthOfList], ?_⟩
  rcases levels with _ | levels <;>
    simp [branchToJson, Json.items?, List.mapM_cons, Option.map_eq_bind]

end Readers

/-! ### Reading back -/

mutual

/-- A node is read back exactly when its form is not too deep for the levels that are left and the
numbers in it are read back. -/
theorem reads_toJson_iff : (node : Node) → (∀ word ∈ node.words, word.IsLiteral) →
    ∀ (levels : Nat), Reads (ofJson? levels node.toJson) (·.same node) ↔
      node.toJson.depth ≤ levels ∧ ∀ word ∈ node.words, word.IsReread
  | .text content span, _, levels => by
      rw [(ofJson?_text levels span content).1, (ofJson?_text levels span content).2]
      exact reads_levels fun _ => by simp [same, words]
  | .interpolation expr span, literal, levels => by
      rw [(ofJson?_interpolation levels span expr).1, (ofJson?_interpolation levels span expr).2]
      refine reads_levels fun _ => ?_
      have inside := expr.reads_toJson_iff literal (levels - 2)
      simp [reads_map, same, inside, words]
  | .comment content span, _, levels => by
      rw [(ofJson?_comment levels span content).1, (ofJson?_comment levels span content).2]
      exact reads_levels fun _ => by simp [same, words]
  | .loop item index source body span, literal, levels => by
      rw [(ofJson?_loop levels span item index source body).1,
        (ofJson?_loop levels span item index source body).2]
      rw [words, List.forall_mem_append] at literal
      refine reads_levels fun _ => ?_
      rw [reads_bind (·.same source) (sameList · body) fun _ _ => by simp [same]]
      rw [source.reads_toJson_iff literal.1, reads_listToJson_iff body literal.2, words,
        List.forall_mem_append, Nat.max_le]
      exact and_and_and_comm
  | .choice branches otherwise span, literal, levels => by
      rw [(ofJson?_choice levels span branches otherwise).1,
        (ofJson?_choice levels span branches otherwise).2]
      rw [words, List.forall_mem_append] at literal
      refine reads_levels fun _ => ?_
      -- A missing last branch has a form of its own, which needs no level.
      rw [reads_bind (sameBranches · branches) (sameOption · otherwise) fun _ _ => by simp [same]]
      rw [reads_branchesToJson_iff branches literal.1, reads_elseToJson_iff otherwise literal.2,
        words, List.forall_mem_append, Nat.max_le]
      exact and_and_and_comm

/-- Nodes are read back exactly if there are levels enough for them and their words are. -/
theorem reads_listToJson_iff : (nodes : List Node) →
    (∀ word ∈ wordsOfList nodes, word.IsLiteral) → ∀ (levels : Nat),
    Reads (listOfJson? levels (.array (listToJson nodes))) (sameList · nodes) ↔
      (Json.array (listToJson nodes)).depth ≤ levels ∧ ∀ word ∈ wordsOfList nodes, word.IsReread
  | [], _, levels => by
      rw [(listOfJson?_nil levels).1, (listOfJson?_nil levels).2]
      exact reads_levels fun _ => by simp [sameList, wordsOfList]
  | node :: rest, literal, levels => by
      rw [wordsOfList, List.forall_mem_append] at literal
      rw [(listOfJson?_cons levels node rest).1, (listOfJson?_cons levels node rest).2]
      refine reads_levels fun enough => ?_
      rw [reads_bind (·.same node) (sameList · rest) fun _ _ => by simp [sameList]]
      rw [reads_toJson_iff node literal.1, reads_listToJson_iff rest literal.2, Json.depth_array,
        ← Nat.le_sub_iff_add_le enough, wordsOfList, List.forall_mem_append, Nat.max_le]
      exact and_and_and_comm

/-- The same holds of the branches of a choice. -/
theorem reads_branchesToJson_iff : (branches : List (Expr × List Node)) →
    (∀ word ∈ wordsOfBranches branches, word.IsLiteral) → ∀ (levels : Nat),
    Reads (branchesOfJson? levels (.array (branchesToJson branches))) (sameBranches · branches) ↔
      (Json.array (branchesToJson branches)).depth ≤ levels ∧
        ∀ word ∈ wordsOfBranches branches, word.IsReread
  | [], _, levels => by
      rw [(branchesOfJson?_nil levels).1, (branchesOfJson?_nil levels).2]
      exact reads_levels fun _ => by simp [sameBranches, wordsOfBranches]
  | (condition, body) :: rest, literal, levels => by
      rw [wordsOfBranches, List.forall_mem_append] at literal
      rw [(branchesOfJson?_cons levels condition body rest).1,
        (branchesOfJson?_cons levels condition body rest).2]
      refine reads_levels fun enough => ?_
      let alike (branch : Expr × List Node) := branch.1.same condition && sameList branch.2 body
      rw [reads_bind alike (sameBranches · rest) fun
        | (_, _), _ => by simp [sameBranches, alike]]
      rw [reads_branchToJson_iff condition body literal.1, reads_branchesToJson_iff rest literal.2,
        Json.depth_array, ← Nat.le_sub_iff_add_le enough, wordsOfBranches, Nat.max_le,
        and_and_and_comm, ← List.forall_mem_append]

/-- The same holds of one branch. -/
theorem reads_branchToJson_iff : (condition : Expr) → (body : List Node) →
    (∀ word ∈ condition.words ++ wordsOfList body, word.IsLiteral) → ∀ (levels : Nat),
    Reads (branchOfJson? levels (branchToJson condition body))
        (fun branch => branch.1.same condition && sameList branch.2 body) ↔
      (branchToJson condition body).depth ≤ levels ∧
        ∀ word ∈ condition.words ++ wordsOfList body, word.IsReread
  | condition, body, literal, levels => by
      rw [List.forall_mem_append] at literal
      rw [(branchOfJson?_branchToJson levels condition body).1,
        (branchOfJson?_branchToJson levels condition body).2]
      refine reads_levels fun _ => ?_
      rw [reads_bind (·.same condition) (sameList · body) fun _ _ => rfl]
      rw [condition.reads_toJson_iff literal.1, reads_listToJson_iff body literal.2,
        List.forall_mem_append, Nat.max_le]
      exact and_and_and_comm

/-- The same holds of the last branch. -/
theorem reads_elseToJson_iff : (otherwise : Option (List Node)) →
    (∀ word ∈ wordsOfOption otherwise, word.IsLiteral) → ∀ (levels : Nat),
    Reads (Json.optional? (listOfJson? levels) (some (elseToJson otherwise)))
        (sameOption · otherwise) ↔
      (elseToJson otherwise).depth ≤ levels ∧ ∀ word ∈ wordsOfOption otherwise, word.IsReread
  | none, _, levels => by simp [elseToJson, Json.optional?, sameOption, wordsOfOption]
  | some body, literal, levels => by
      have inside := reads_listToJson_iff body literal levels
      simp [elseToJson, Json.optional?, reads_map, sameOption, wordsOfOption, inside]

end

end TextTemplate.Node
