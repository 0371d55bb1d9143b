import TextTemplate.Proofs.Node.Rendered
import TextTemplate.Proofs.Numeric.Steady
import TextTemplate.Proofs.Template.Printed

/-! # Printed templates are rendered as before

The text of a compiled template is read as the same tree exactly when all of its literals are
steady, and then it renders the same text for all data and methods. A literal that is not steady
changes its representation, which can show: an integer that is a zero has no sign, but the double
that it is read back as has one. -/

namespace TextTemplate.Template

variable {source : Source} {limits : Limits} {template : Template}

/-- Trees that are the same apart from the places of their parts render the same text. -/
theorem render_eq_of_alike {again : Template} (alike : Node.AllAlike Eq template.nodes again.nodes)
    (data : Value) (methods : Registry) :
    again.render data methods = template.render data methods := by
  have text : Node.renderList methods (.ofData data) again.nodes =
      Node.renderList methods (.ofData data) template.nodes :=
    alike.render_eq (Environment.agree_ofData data data) (fun _ _ => rfl) (fun _ _ _ => rfl)
  rw [render, render, text]

/-- The text of a compiled template compiles under the same limits. The new tree is the same apart
from the places of its parts if and only if all literals are steady, and if they are it renders the
same text as the template for all data and methods. -/
theorem render_print (compiled : compile source limits = .ok template) (name : String) :
    ∃ again, compile (.ofString name template.print) limits = .ok again ∧
      (Node.AllAlike Eq template.nodes again.nodes ↔
        ∀ value, .number value ∈ Node.wordsOfList template.nodes → value.IsSteady) ∧
      ((∀ value, .number value ∈ Node.wordsOfList template.nodes → value.IsSteady) →
        ∀ data methods, again.render data methods = template.render data methods) := by
  obtain ⟨again, compiledAgain, respelled⟩ := exists_compiled_print compiled name
  have same_iff : Node.AllAlike Eq template.nodes again.nodes ↔
      ∀ value, .number value ∈ Node.wordsOfList template.nodes → value.IsSteady := by
    have literal (value : Numeric) (isWord : .number value ∈ Node.wordsOfList template.nodes) :
        value.IsLiteral :=
      Node.isSpelled_of_nodes (nodes_of_compile compiled) (.number value) isWord
    constructor
    -- A literal is paired with the one number that it is read back as.
    · intro alike value isWord
      obtain ⟨_, self, rfl⟩ := respelled.exists_pair alike isWord
      exact (Numeric.respelled_self_iff (literal value isWord)).mp self
    · intro steady
      refine respelled.mono fun value isWord value' respelled => ?_
      have self := (Numeric.respelled_self_iff (literal value isWord)).mpr (steady value isWord)
      exact self.unique respelled
  exact ⟨again, compiledAgain, same_iff, fun steady data methods =>
    render_eq_of_alike (same_iff.mpr steady) data methods⟩

/-- A template with a double, a decimal and an integer that are steady. -/
theorem render_print_of_steady :
    ∃ template again,
      compile ⟨"template", "\x7b{ 1000000000000000 / -(2 - 1.5) }\x7d".toList⟩ {} =
          .ok template ∧
        compile (.ofString "again" template.print) {} = .ok again ∧
        ∀ data methods, again.render data methods = template.render data methods := by
  have words : (compile ⟨"template", "\x7b{ 1000000000000000 / -(2 - 1.5) }\x7d".toList⟩
      {}).toOption.map (fun template => Node.wordsOfList template.nodes) =
        some [.number (.integer 1000000000000000),
          .number (.double (.nearest false (2 * Double.unitsPerOne) 1)),
          .number (.decimal ⟨15, 1⟩)] := by
    decide +kernel
  obtain ⟨template, found, words⟩ := Option.map_eq_some_iff.mp words
  have compiled := toOption_eq_some_iff.mp found
  have steady : ∀ value, .number value ∈ Node.wordsOfList template.nodes → value.IsSteady := by
    intro value isWord
    rw [words] at isWord
    simp only [List.mem_cons, TokenKind.number.injEq, List.not_mem_nil, or_false] at isWord
    rcases isWord with rfl | rfl | rfl
    · exact Nat.le_refl _
    · exact ⟨false, 2, by decide, rfl⟩
    · exact .inl rfl
  obtain ⟨again, compiledAgain, -, same⟩ := render_print compiled "again"
  exact ⟨template, again, compiled, compiledAgain, same steady⟩

/-- Sixteen zeros are an integer, which is spelled as one zero, which is a double. -/
example :
    (do
      let template ← compile ⟨"template", "\x7b{ 1 / -(0000000000000000) }\x7d".toList⟩ {}
      let again ← compile (.ofString "again" template.print) {}
      return (template.render .null .empty, again.render .null .empty)).toOption =
        some ("Infinity", "-Infinity") := by
  decide +kernel

end TextTemplate.Template
