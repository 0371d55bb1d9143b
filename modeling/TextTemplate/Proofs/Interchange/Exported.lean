import TextTemplate.Proofs.Interchange.Template

/-! # Templates are exported again

A template that is read back from its export has the same interchange form. Only a decimal may have
changed: zeros before its point are digits now. Nothing is asked of the tree but that its numbers
can be exported, so it holds of trees that no text is compiled to. -/

namespace TextTemplate

/-! ### Numbers -/

/-- Whether the interchange format keeps a number, up to the scale of a decimal. -/
def Numeric.IsKept : Numeric → Prop
  | .double (.finite negative place) =>
      Double.readData? (Double.dataText negative place.val) = some (.finite negative place)
  | .double _ => False
  | .integer _ => True
  | .decimal d => scaleWithinBounds d = true

/-- Whether the interchange format keeps a word of an expression. -/
def TokenKind.IsKept : TokenKind → Prop
  | .number value => value.IsKept
  | _ => True

namespace Numeric

variable {value again : Numeric}

/-- A number that is kept is read back. -/
theorem IsKept.isReread (kept : value.IsKept) : value.IsReread := by
  rcases value with (_ | _ | ⟨negative, place⟩) | i | d
  · cases kept
  · cases kept
  · exact ⟨_, kept, by simp [Double.compare?]⟩
  · trivial
  · trivial

/-- A number that is kept is exported again as it was. -/
theorem IsKept.toJson_eq (kept : value.IsKept) {levels : Nat}
    (read : (ofJson levels value.toJson).toOption = some again) : again.toJson = value.toJson := by
  rw [toOption_eq_some_iff, ofJson] at read
  split_ifs at read
  cases value with
  | double x =>
      cases x with
      | finite negative place =>
          have exact : doubleOfJson? (doubleToJson (.finite negative place)) =
              some (.finite negative place) := by
            rw [doubleToJson, doubleOfJson?, String.toList_ofList]
            exact kept
          simp only [toJson, Json.variant?, exact] at read
          cases read
          rfl
      | _ => cases kept
  | integer i =>
      simp only [toJson, Json.variant?, String.toList_ofList, Digits.readGroupedInt?_ofInt] at read
      cases read
      rfl
  | decimal d =>
      have bounded : d.scale.natAbs ≤ 10000 := of_decide_eq_true kept
      -- The decimal may have lost a negative scale, but not the text that it is exported as.
      obtain ⟨other, found, within, -, text⟩ := Decimal.read?_dataText bounded
      have within' : scaleWithinBounds other = true := decide_eq_true within
      simp only [toJson, Json.variant?, String.toList_ofList, found, within', if_true] at read
      cases read
      rw [toJson, toJson, text]

end Numeric

/-! ### Expressions -/

namespace Expr

mutual

/-- An expression that is read back is exported again as it was. -/
theorem toJson_of_ofJson? : (expr : Expr) → (∀ word ∈ expr.words, word.IsKept) →
    ∀ {levels : Nat} {again : Expr}, ofJson? levels expr.toJson = some again →
      again.toJson = expr.toJson
  | .number value span, kept, levels, _, read => by
      simp only [(ofJson?_number levels span value).2, Option.ite_none_left_eq_some,
        Option.map_eq_some_iff] at read
      obtain ⟨-, value', isRead, rfl⟩ := read
      have number : value.IsKept := kept _ (.head _)
      -- Only numbers can be read as others: all else is read back as itself, or from its parts.
      rw [toJson, toJson, number.toJson_eq isRead]
  | .text value span, _, levels, _, read => by
      simp only [(ofJson?_text levels span value).2, Option.ite_none_left_eq_some,
        Option.some_inj] at read
      rw [read.2]
  | .boolean value span, _, levels, _, read => by
      simp only [(ofJson?_boolean levels span value).2, Option.ite_none_left_eq_some,
        Option.some_inj] at read
      rw [read.2]
  | .array items span, kept, levels, _, read => by
      simp only [(ofJson?_array levels span items).2, Option.ite_none_left_eq_some,
        Option.map_eq_some_iff] at read
      obtain ⟨-, items', isRead, rfl⟩ := read
      rw [toJson, toJson, listToJson_of_listOfJson? items kept isRead]
  | .variable path span, _, levels, _, read => by
      simp only [(ofJson?_variable levels span path).2, Option.ite_none_left_eq_some,
        Option.some_inj] at read
      rw [read.2]
  | .binary operator left right span, kept, levels, _, read => by
      simp only [(ofJson?_binary levels span operator left right).2, Option.ite_none_left_eq_some,
        Option.bind_eq_some_iff, Option.map_eq_some_iff] at read
      obtain ⟨-, left', isLeft, right', isRight, rfl⟩ := read
      obtain ⟨keptLeft, keptRight⟩ := List.forall_mem_append.mp kept
      rw [toJson, toJson, toJson_of_ofJson? left keptLeft isLeft,
        toJson_of_ofJson? right keptRight isRight]
  | .unary operator operand span, kept, levels, _, read => by
      simp only [(ofJson?_unary levels span operator operand).2, Option.ite_none_left_eq_some,
        Option.map_eq_some_iff] at read
      obtain ⟨-, operand', isRead, rfl⟩ := read
      rw [toJson, toJson, toJson_of_ofJson? operand kept isRead]
  | .call name arguments span, kept, levels, _, read => by
      simp only [(ofJson?_call levels span name arguments).2, Option.ite_none_left_eq_some,
        Option.map_eq_some_iff] at read
      obtain ⟨-, arguments', isRead, rfl⟩ := read
      have keptArguments := (List.forall_mem_cons.mp kept).2
      rw [toJson, toJson, listToJson_of_listOfJson? arguments keptArguments isRead]
  | .member object key span, kept, levels, _, read => by
      simp only [(ofJson?_member levels span object key).2, Option.ite_none_left_eq_some,
        Option.bind_eq_some_iff, Option.map_eq_some_iff] at read
      obtain ⟨-, object', isObject, key', isKey, rfl⟩ := read
      obtain ⟨keptObject, keptKey⟩ := List.forall_mem_append.mp kept
      rw [toJson, toJson, toJson_of_ofJson? object keptObject isObject,
        toJson_of_ofJson? key keptKey isKey]

/-- Expressions of a list that are read back are written again in the same way. -/
theorem listToJson_of_listOfJson? : (exprs : List Expr) →
    (∀ word ∈ wordsOfList exprs, word.IsKept) → ∀ {levels : Nat} {again : List Expr},
    listOfJson? levels (.array (listToJson exprs)) = some again →
      listToJson again = listToJson exprs
  | [], _, levels, _, read => by
      simp only [(listOfJson?_nil levels).2, Option.ite_none_left_eq_some, Option.some_inj] at read
      rw [read.2]
  | expr :: rest, kept, levels, _, read => by
      simp only [(listOfJson?_cons levels expr rest).2, Option.ite_none_left_eq_some,
        Option.bind_eq_some_iff, Option.map_eq_some_iff] at read
      obtain ⟨-, first, isFirst, others, isRest, rfl⟩ := read
      obtain ⟨keptFirst, keptRest⟩ := List.forall_mem_append.mp kept
      rw [listToJson, listToJson, toJson_of_ofJson? expr keptFirst isFirst,
        listToJson_of_listOfJson? rest keptRest isRest]

end

end Expr

/-! ### Nodes -/

namespace Node

mutual

/-- A node that is read back is exported again as it was. -/
theorem toJson_of_ofJson? : (node : Node) → (∀ word ∈ node.words, word.IsKept) →
    ∀ {levels : Nat} {again : Node}, ofJson? levels node.toJson = some again →
      again.toJson = node.toJson
  | .text content span, _, levels, _, read => by
      simp only [(ofJson?_text levels span content).2, Option.ite_none_left_eq_some,
        Option.some_inj] at read
      rw [read.2]
  | .interpolation expr span, kept, levels, _, read => by
      simp only [(ofJson?_interpolation levels span expr).2, Option.ite_none_left_eq_some,
        Option.map_eq_some_iff] at read
      obtain ⟨-, expr', isRead, rfl⟩ := read
      rw [toJson, toJson, expr.toJson_of_ofJson? kept isRead]
  | .comment content span, _, levels, _, read => by
      simp only [(ofJson?_comment levels span content).2, Option.ite_none_left_eq_some,
        Option.some_inj] at read
      rw [read.2]
  | .loop item index source body span, kept, levels, _, read => by
      simp only [(ofJson?_loop levels span item index source body).2, Option.ite_none_left_eq_some,
        Option.bind_eq_some_iff, Option.map_eq_some_iff] at read
      obtain ⟨-, source', isSource, body', isBody, rfl⟩ := read
      obtain ⟨keptSource, keptBody⟩ := List.forall_mem_append.mp kept
      -- The names and the span are read as they are, so only the parts can differ.
      rw [toJson, toJson, source.toJson_of_ofJson? keptSource isSource,
        listToJson_of_listOfJson? body keptBody isBody]
  | .choice branches otherwise span, kept, levels, _, read => by
      simp only [(ofJson?_choice levels span branches otherwise).2, Option.ite_none_left_eq_some,
        Option.bind_eq_some_iff, Option.map_eq_some_iff] at read
      obtain ⟨-, branches', areBranches, otherwise', isElse, rfl⟩ := read
      obtain ⟨keptBranches, keptElse⟩ := List.forall_mem_append.mp kept
      rw [toJson, toJson, branchesToJson_of_branchesOfJson? branches keptBranches areBranches,
        elseToJson_of_optional? otherwise keptElse isElse]

/-- Nodes that are read back are written again in the same way. -/
theorem listToJson_of_listOfJson? : (nodes : List Node) →
    (∀ word ∈ wordsOfList nodes, word.IsKept) → ∀ {levels : Nat} {again : List Node},
    listOfJson? levels (.array (listToJson nodes)) = some again →
      listToJson again = listToJson nodes
  | [], _, levels, _, read => by
      simp only [(listOfJson?_nil levels).2, Option.ite_none_left_eq_some, Option.some_inj] at read
      rw [read.2]
  | node :: rest, kept, levels, _, read => by
      simp only [(listOfJson?_cons levels node rest).2, Option.ite_none_left_eq_some,
        Option.bind_eq_some_iff, Option.map_eq_some_iff] at read
      obtain ⟨-, first, isFirst, others, isRest, rfl⟩ := read
      obtain ⟨keptFirst, keptRest⟩ := List.forall_mem_append.mp kept
      rw [listToJson, listToJson, toJson_of_ofJson? node keptFirst isFirst,
        listToJson_of_listOfJson? rest keptRest isRest]

/-- So are branches. -/
theorem branchesToJson_of_branchesOfJson? : (branches : List (Expr × List Node)) →
    (∀ word ∈ wordsOfBranches branches, word.IsKept) →
    ∀ {levels : Nat} {again : List (Expr × List Node)},
    branchesOfJson? levels (.array (branchesToJson branches)) = some again →
      branchesToJson again = branchesToJson branches
  | [], _, levels, _, read => by
      simp only [(branchesOfJson?_nil levels).2, Option.ite_none_left_eq_some,
        Option.some_inj] at read
      rw [read.2]
  | (condition, body) :: rest, kept, levels, _, read => by
      simp only [(branchesOfJson?_cons levels condition body rest).2,
        (branchOfJson?_branchToJson _ condition body).2, Option.ite_none_left_eq_some,
        Option.bind_eq_some_iff, Option.map_eq_some_iff] at read
      obtain ⟨-, _, ⟨-, condition', isCondition, body', isBody, rfl⟩, others, isRest, rfl⟩ := read
      obtain ⟨keptFirst, keptRest⟩ := List.forall_mem_append.mp kept
      obtain ⟨keptCondition, keptBody⟩ := List.forall_mem_append.mp keptFirst
      rw [branchesToJson, branchesToJson, condition.toJson_of_ofJson? keptCondition isCondition,
        listToJson_of_listOfJson? body keptBody isBody,
        branchesToJson_of_branchesOfJson? rest keptRest isRest]

/-- So is the last branch, or that there is none. -/
theorem elseToJson_of_optional? : (otherwise : Option (List Node)) →
    (∀ word ∈ wordsOfOption otherwise, word.IsKept) →
    ∀ {levels : Nat} {again : Option (List Node)},
    Json.optional? (listOfJson? levels) (some (elseToJson otherwise)) = some again →
      elseToJson again = elseToJson otherwise
  | none, _, _, _, read => by
      cases read
      rfl
  | some body, kept, _, _, read => by
      simp only [elseToJson, Json.optional?, Option.map_eq_some_iff] at read
      obtain ⟨body', isBody, rfl⟩ := read
      rw [elseToJson, elseToJson, listToJson_of_listOfJson? body kept isBody]

end

end Node

/-! ### Templates -/

namespace Template

/-- The interchange format loses nothing: a template, compiled or not, is read back from its export
with the same name and the same nodes, and exported again as the same text. Its doubles must be
finite and its decimals of a bounded scale, the text may not be nested too deeply, and the digits of
its doubles have to be read as the doubles. -/
theorem read?_toJson (template : Template)
    (literal : ∀ word ∈ Node.wordsOfList template.nodes, word.IsLiteral)
    (shallow : template.toJson.depth ≤ Json.maxDepth)
    (digits : ∀ negative place,
      .number (.double (.finite negative place)) ∈ Node.wordsOfList template.nodes →
      Double.readData? (Double.dataText negative place.val) = some (.finite negative place)) :
    ∃ imported, read? template.toJson.text.toList = some imported ∧
      imported.name = template.name ∧ Node.sameList imported.nodes template.nodes = true ∧
      imported.toJson.text = template.toJson.text := by
  have kept : ∀ word ∈ Node.wordsOfList template.nodes, word.IsKept := by
    intro word isWord
    have isLiteral := literal word isWord
    rcases word with ((_ | _ | ⟨negative, place⟩) | i | d) | _
    · cases isLiteral
    · cases isLiteral
    · exact digits negative place isWord
    · trivial
    · exact isLiteral
    all_goals trivial
  have reread : ∀ word ∈ Node.wordsOfList template.nodes, word.IsReread := by
    intro word isWord
    have isKept := kept word isWord
    cases word with
    | number value => exact Numeric.IsKept.isReread isKept
    | _ => trivial
  -- The template itself is one level of the format, which leaves the others to its nodes.
  rw [depth_toJson, ← Nat.le_sub_iff_add_le (by decide)] at shallow
  obtain ⟨nodes, found, same⟩ :=
    (Node.reads_listToJson_iff template.nodes literal (Json.maxDepth - 1)).mpr ⟨shallow, reread⟩
  have exported := Node.listToJson_of_listOfJson? template.nodes kept found
  refine ⟨⟨template.name, String.ofList (Node.printList nodes), nodes⟩, ?_, rfl, same, ?_⟩
  · rw [read?_text, ofJson?_toJson, found, Option.map_some]
  · rw [toJson, toJson, exported]

/-- A tree that no text is compiled to: a choice without branches, a variable without a name, a
negative zero and a decimal with zeros before its point. -/
theorem read?_toJson_of_built :
    let span : Span := ⟨⟨0, 0⟩, ⟨4294967295, 0⟩⟩
    let zero : Double := .finite true ⟨0, by decide⟩
    let numbers : Expr :=
      .array [.number (.double zero) span, .number (.decimal ⟨15, -3⟩) span, .variable "" span] span
    let template : Template :=
      ⟨"a \"name\"\n", "", [.choice [] (some [.interpolation numbers span]) span]⟩
    template.toJson.depth ≤ Json.maxDepth ∧
      ∃ imported, read? template.toJson.text.toList = some imported ∧
        imported.name = template.name ∧ Node.sameList imported.nodes template.nodes = true ∧
        imported.toJson.text = template.toJson.text := by
  intro span zero numbers template
  have shallow : template.toJson.depth ≤ Json.maxDepth := by decide +kernel
  have words : Node.wordsOfList template.nodes =
      [.number (.double zero), .number (.decimal ⟨15, -3⟩), .identifier ""] := rfl
  have zeroDigits : Double.readData? (Double.dataText true 0) = some zero := by decide +kernel
  refine ⟨shallow, read?_toJson template ?_ shallow ?_⟩
  · rw [words]
    simp [TokenKind.IsLiteral, Numeric.IsLiteral, zero, Double.isFinite,
      Numeric.scaleWithinBounds, Numeric.maxExactDigits]
  · intro negative place isWord
    rw [words] at isWord
    simp only [List.mem_cons, TokenKind.number.injEq, Numeric.double.injEq, reduceCtorEq,
      List.not_mem_nil, or_false] at isWord
    rw [Double.finite.injEq] at isWord
    obtain ⟨rfl, rfl⟩ := isWord
    exact zeroDigits

end Template

end TextTemplate
