import TextTemplate.Proofs.Interchange.Node
import TextTemplate.Template

/-! # Templates in the interchange format

A compiled template is read back from its exported text exactly when the text is not nested more
deeply than reading allows, and the format reads the doubles in it back. The limits of compilation
bound the depth of the tree and not that of the text, which takes up to six levels for each block
and four for each expression, so a template may compile and still not be read back. -/

namespace TextTemplate.Template

/-- Templates have texts in the interchange format. -/
theorem writable_toJson (template : Template) : template.toJson.Writable :=
  ⟨trivial, Node.writable_listToJson template.nodes, trivial⟩

@[simp] theorem depth_toJson (template : Template) :
    template.toJson.depth = (Json.array (Node.listToJson template.nodes)).depth + 1 := by
  simp [toJson, Json.depth, Json.depthOfFields]

/-- A template is read from its exported text as from its interchange form. -/
theorem read?_text (template : Template) :
    read? template.toJson.text.toList = ofJson? template.toJson := by
  rw [read?, Json.text, String.toList_ofList, Json.read?_write template.writable_toJson,
    Option.bind_some]

/-- The name and the nodes of a template are read from its interchange form. -/
theorem ofJson?_toJson (template : Template) :
    ofJson? template.toJson =
      (Node.listOfJson? (Json.maxDepth - 1) (.array (Node.listToJson template.nodes))).map
        fun nodes => ⟨template.name, String.ofList (Node.printList nodes), nodes⟩ := by
  simp [ofJson?, toJson, Json.record?, Json.fieldCount, Json.field?, Json.string?,
    Option.map_eq_bind]

/-- The nodes of a compiled template are those of its source. -/
theorem nodes_of_compile {source : Source} {limits : Limits} {template : Template}
    (compiled : compile source limits = .ok template) :
    source.nodes limits = .ok template.nodes := by
  unfold compile at compiled
  split at compiled
  next nodes read =>
    cases compiled
    exact read
  next => cases compiled

/-- A template of literal words is read back from its exported text as its nodes are from their
form, which has one level less. -/
theorem readBack_iff {template : Template}
    (literal : ∀ word ∈ Node.wordsOfList template.nodes, word.IsLiteral) :
    (∃ imported, read? template.toJson.text.toList = some imported ∧
        imported.name = template.name ∧ Node.sameList imported.nodes template.nodes = true) ↔
      template.toJson.depth ≤ Json.maxDepth ∧
        ∀ word ∈ Node.wordsOfList template.nodes, word.IsReread := by
  have inside := Node.reads_listToJson_iff template.nodes literal (Json.maxDepth - 1)
  rw [Nat.le_sub_iff_add_le (by decide), ← depth_toJson] at inside
  rw [← inside, read?_text, ofJson?_toJson]
  simp [Reads]

/-- A compiled template is read back from its exported text, with the same name and the same nodes,
exactly when the text is not nested too deeply and its doubles are read back. -/
theorem read?_toJson_iff {source : Source} {limits : Limits} {template : Template}
    (compiled : compile source limits = .ok template) :
    (∃ imported, read? template.toJson.text.toList = some imported ∧
        imported.name = template.name ∧ Node.sameList imported.nodes template.nodes = true) ↔
      template.toJson.depth ≤ Json.maxDepth ∧
        ∀ word ∈ Node.wordsOfList template.nodes, word.IsReread := by
  have spelled := Node.isSpelled_of_nodes (nodes_of_compile compiled)
  exact readBack_iff fun word isWord => (spelled word isWord).isLiteral

/-- Blocks nested less deeply than compilation allows have a text that is nested too deeply. -/
theorem not_read_back_of_nested :
    ∃ template, compile ⟨"template", (List.replicate 21 "\x7b% if a %\x7d".toList).flatten ++
        (List.replicate 21 "\x7b% endif %\x7d".toList).flatten⟩ {} = .ok template ∧
      ¬∃ imported, read? template.toJson.text.toList = some imported ∧
        imported.name = template.name ∧ Node.sameList imported.nodes template.nodes = true := by
  have deep : ((compile ⟨"template", (List.replicate 21 "\x7b% if a %\x7d".toList).flatten ++
      (List.replicate 21 "\x7b% endif %\x7d".toList).flatten⟩ {}).toOption.map
        fun template => template.toJson.depth) = some 129 := by
    decide +kernel
  obtain ⟨template, compiled, depth⟩ := Option.map_eq_some_iff.mp deep
  rw [toOption_eq_some_iff] at compiled
  refine ⟨template, compiled, fun readBack => ?_⟩
  have shallow := ((read?_toJson_iff compiled).mp readBack).1
  rw [depth] at shallow
  exact absurd shallow (by decide)

end TextTemplate.Template
