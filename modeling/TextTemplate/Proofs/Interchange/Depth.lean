import TextTemplate.Proofs.Interchange.Template

/-! # How deep the text of a template is

A level of an expression takes up to four levels of its interchange form, and a block takes up to
six. Limits that are small enough for that keep every template readable, apart from its doubles. -/

namespace TextTemplate

namespace Expr

mutual

/-- A level of an expression takes up at most four levels of its form. -/
theorem depth_toJson_le : (expr : Expr) → expr.toJson.depth ≤ 4 * expr.depth
  | .number value span => by simp [(ofJson?_number 0 span value).1, depth]
  | .text value span => by simp [(ofJson?_text 0 span value).1, depth]
  | .boolean value span => by simp [(ofJson?_boolean 0 span value).1, depth]
  | .array items span => by
      have inside := depth_listToJson_le items
      rw [(ofJson?_array 0 span items).1, Json.depth_array, depth]
      omega
  | .variable path span => by simp [(ofJson?_variable 0 span path).1, depth]
  | .binary operator left right span => by
      have insideLeft := depth_toJson_le left
      have insideRight := depth_toJson_le right
      rw [(ofJson?_binary 0 span operator left right).1, depth]
      omega
  | .unary operator operand span => by
      have inside := depth_toJson_le operand
      rw [(ofJson?_unary 0 span operator operand).1, depth]
      omega
  | .call name arguments span => by
      have inside := depth_listToJson_le arguments
      rw [(ofJson?_call 0 span name arguments).1, Json.depth_array, depth]
      omega
  | .member object key span => by
      have insideObject := depth_toJson_le object
      have insideKey := depth_toJson_le key
      rw [(ofJson?_member 0 span object key).1, depth]
      omega

/-- The items of a list take up at most four levels for each of theirs. -/
theorem depth_listToJson_le : (exprs : List Expr) →
    Json.depthOfList (listToJson exprs) ≤ 4 * depthOfList exprs
  | [] => Nat.zero_le _
  | expr :: rest => by
      have first := depth_toJson_le expr
      have others := depth_listToJson_le rest
      rw [listToJson, Json.depthOfList, depthOfList]
      omega

end

/-- An expression within a limit is no deeper than the limit, or is not composite. -/
theorem depth_le_of_within {limit : Nat} {expr : Expr} (within : expr.Within limit) :
    expr.depth ≤ max limit 1 := by
  cases expr <;> simp_all [depth]

end Expr

namespace Node

/-- Whether the forms of the expressions of events are at most so deep. -/
def Shallow (bound : Nat) (events : List Event) : Prop :=
  ∀ event ∈ events, ∀ expr, event.expr? = some expr → expr.toJson.depth ≤ bound

section Shallow

variable {bound : Nat} {event : Event} {events others : List Event}

@[simp] theorem shallow_cons : Shallow bound (event :: events) ↔
    (∀ expr, event.expr? = some expr → expr.toJson.depth ≤ bound) ∧ Shallow bound events := by
  simp [Shallow]

@[simp] theorem shallow_append :
    Shallow bound (events ++ others) ↔ Shallow bound events ∧ Shallow bound others := by
  simp only [Shallow, List.mem_append, or_imp, forall_and]

end Shallow

/-- A branch takes up two levels besides those of its body. -/
theorem depth_branchToJson_le (condition : Expr) {body : List Node} {bound depth : Nat}
    (here : condition.toJson.depth ≤ bound)
    (inside : Json.depthOfList (listToJson body) ≤ depth + bound + 2) :
    (branchToJson condition body).depth ≤ depth + bound + 4 := by
  rw [(branchOfJson?_branchToJson 0 condition body).1, Json.depth_array]
  omega

/-- Branches are as deep as the deepest of them. -/
theorem depthOfList_branches (condition : Expr) (body : List Node)
    (rest : List (Expr × List Node)) :
    Json.depthOfList (branchesToJson ((condition, body) :: rest)) =
      max (branchToJson condition body).depth (Json.depthOfList (branchesToJson rest)) := rfl

mutual

/-- A block takes up at most six levels of the form of a body, and a node without a block at most
two besides those of its expression. -/
theorem Body.depth_le {bound : Nat} : {room : Nat} → {events : List Event} → {nodes : List Node} →
    Body room events nodes → Shallow bound events →
    Json.depthOfList (listToJson nodes) ≤ 6 * room + bound + 2
  | _, _, _, .nil, _ => Nat.zero_le _
  | _, _, _, @Body.leaf room event node _ nodes isLeaf rest, shallow => by
      obtain ⟨here, others⟩ := shallow_cons.mp shallow
      have tail := rest.depth_le others
      -- A node without a block is as deep as its expression, if it has one.
      have first : node.toJson.depth ≤ bound + 2 := by
        cases event with
        | text content span =>
            cases isLeaf
            simp [(ofJson?_text 0 span content).1]
        | comment content span =>
            cases isLeaf
            simp [(ofJson?_comment 0 span content).1]
        | interpolation expr span =>
            cases isLeaf
            have inside := here expr rfl
            rw [(ofJson?_interpolation 0 span expr).1]
            omega
        | _ => cases isLeaf
      rw [listToJson, Json.depthOfList]
      omega
  | _, _, _, @Body.loop room item index source start stop _ _ body _ inside rest, shallow => by
      simp only [List.cons_append, shallow_cons, shallow_append] at shallow
      have header := shallow.1 source rfl
      have body := inside.depth_le shallow.2.1
      have tail := rest.depth_le shallow.2.2.2
      rw [listToJson, Json.depthOfList, (ofJson?_loop 0 _ item index source _).1, Json.depth_array]
      omega
  | _, _, _, @Body.choice room condition start stop _ _ branches otherwise _ inside rest,
      shallow => by
      simp only [List.cons_append, shallow_cons, shallow_append] at shallow
      have choice := inside.depth_le (shallow.1 condition rfl) shallow.2.1
      have tail := rest.depth_le shallow.2.2.2
      rw [listToJson, Json.depthOfList, (ofJson?_choice 0 _ branches otherwise).1,
        Json.depth_array]
      omega

/-- The branches of a choice are as deep as its bodies allow, and so is its last body. -/
theorem Branches.depth_le {bound : Nat} : {room : Nat} → {condition : Expr} →
    {events : List Event} → {branches : List (Expr × List Node)} →
    {otherwise : Option (List Node)} → Branches room condition events branches otherwise →
    condition.toJson.depth ≤ bound → Shallow bound events →
    Json.depthOfList (branchesToJson branches) ≤ 6 * room + bound + 4 ∧
      (elseToJson otherwise).depth ≤ 6 * room + bound + 3
  | _, condition, _, _, _, .only body, here, shallow => by
      have inside := depth_branchToJson_le condition here (body.depth_le shallow)
      rw [depthOfList_branches, branchesToJson, Json.depthOfList, elseToJson, Json.depth_null]
      omega
  | _, condition, _, _, _, .elseIf body rest, here, shallow => by
      simp only [shallow_cons, shallow_append] at shallow
      have inside := depth_branchToJson_le condition here (body.depth_le shallow.1)
      have others := rest.depth_le (shallow.2.1 _ rfl) shallow.2.2
      rw [depthOfList_branches]
      omega
  | _, condition, _, _, _, .otherwise body last, here, shallow => by
      simp only [shallow_cons, shallow_append] at shallow
      have inside := depth_branchToJson_le condition here (body.depth_le shallow.1)
      have others := last.depth_le shallow.2.2
      rw [depthOfList_branches, branchesToJson, Json.depthOfList, elseToJson, Json.depth_array]
      omega

end

end Node

namespace Template

/-- A template that compiles within limits has a text of a depth that the limits bound. -/
theorem depth_toJson_le {source : Source} {limits : Limits} {template : Template}
    (compiled : compile source limits = .ok template) :
    template.toJson.depth ≤
      6 * limits.maxBlockDepth + 4 * max limits.maxExpressionDepth 1 + 4 := by
  obtain ⟨events, said, body⟩ := Source.nodes_iff_body.mp (nodes_of_compile compiled)
  have shallow : Node.Shallow (4 * max limits.maxExpressionDepth 1) events := by
    intro event isEvent expr has
    obtain ⟨piece, -, here⟩ := said.exists_piece event isEvent
    obtain ⟨tag, text, start, isRead⟩ := Source.expression_of_event here has
    obtain ⟨tokens, -, read⟩ := bind_eq_ok_iff.mp isRead
    have within := Expr.depth_le_of_within (Expr.chain_of_ofTokens read).2
    have levels := expr.depth_toJson_le
    omega
  have inside := body.depth_le shallow
  rw [depth_toJson, Json.depth_array]
  omega

/-- The limits below which the text of every template is read whole: room for six levels for each
block and four for each level of an expression. -/
def LeavesRoom (limits : Limits) : Prop :=
  6 * limits.maxBlockDepth + 4 * max limits.maxExpressionDepth 1 + 4 ≤ Json.maxDepth
  deriving Decidable

/-- Within such limits only the doubles decide: a compiled template is read back from its exported
text, with the same name and the same nodes, exactly when they are. -/
theorem readBack_iff_of_leavesRoom {source : Source} {limits : Limits} {template : Template}
    (room : LeavesRoom limits) (compiled : compile source limits = .ok template) :
    (∃ imported, read? template.toJson.text.toList = some imported ∧
        imported.name = template.name ∧ Node.sameList imported.nodes template.nodes = true) ↔
      ∀ word ∈ Node.wordsOfList template.nodes, word.IsReread := by
  have spelled := Node.isSpelled_of_nodes (nodes_of_compile compiled)
  rw [readBack_iff fun word isWord => (spelled word isWord).isLiteral]
  exact and_iff_right (Nat.le_trans (depth_toJson_le compiled) room)

/-- Ten blocks and fifteen levels of an expression are few enough. -/
example : LeavesRoom ⟨10, 15⟩ := by decide

end Template

end TextTemplate
