import TextTemplate.Proofs.Node.Rendered
import TextTemplate.Template

/-! # The analysis of a template is sound

A template renders the same text for any two data that have the same under the names of its
analysis, and with any two registries that have the same methods under the names of its calls. -/

namespace TextTemplate

/-- Sorting names keeps them. -/
theorem mem_sortedNames {name : String} {names : List String} :
    name ∈ sortedNames names ↔ name ∈ names := by
  rw [sortedNames, List.mem_mergeSort, List.mem_eraseDups]

namespace Template

/-- The text of a template depends on what the data has under the names that the template reads,
and on the results of the methods that it calls. -/
theorem render_eq_of_analysis (template : Template) {data data' : Value}
    {methods methods' : Registry}
    (sameData : ∀ name ∈ template.analysis.reads, data.segment? name = data'.segment? name)
    (sameMethods : ∀ name ∈ template.analysis.calls, ∀ arguments,
      methods.call? name arguments = methods'.call? name arguments) :
    template.render data methods = template.render data' methods' := by
  have alike : Node.AllAlike Eq template.nodes template.nodes := .refl (fun _ => rfl) _
  have text := alike.render_eq (Environment.agree_ofData data' data)
    (fun name isRead => sameData name (mem_sortedNames.mpr isRead))
    (fun name isCalled => sameMethods name (mem_sortedNames.mpr isCalled))
  rw [render, render, text]

/-- A name that is bound inside a loop and free behind it: the data may differ elsewhere, and so may
the methods that are not called. -/
theorem render_eq_of_shadowed :
    let span : Span := ⟨.first, .first⟩
    let template : Template := ⟨"template", "", [
      .loop "x" none (.variable "list.items" span)
        [.interpolation (.call "f" [.variable "x.key" span] span) span] span,
      .interpolation (.variable "x" span) span]⟩
    let list : Value := .object [("items", .array [.object [("key", .text "a")], .text "b"])]
    let data : Value := .object [("list", list), ("x", .text "c"), ("key", .text "d")]
    let data' : Value := .object [("other", .null), ("x", .text "c"), ("list", list)]
    let method : Method := fun arguments => arguments.headD .null
    let methods : Registry := ⟨[("f", method), ("x", fun _ => .null)]⟩
    let methods' : Registry := ⟨[("f", method)]⟩
    (∀ name ∈ template.analysis.reads, data.segment? name = data'.segment? name) ∧
      (∀ name ∈ template.analysis.calls, ∀ arguments,
        methods.call? name arguments = methods'.call? name arguments) ∧
      template.render data methods = template.render data' methods' := by
  intro span template list data data' method methods methods'
  have sameData : ∀ name ∈ template.analysis.reads, data.segment? name = data'.segment? name := by
    intro name isRead
    have isRoot : name = "list" ∨ name = "x" := by
      simpa [template, analysis, Analysis.ofNodes, mem_sortedNames, Node.readsOfList, Node.reads,
        Expr.roots, Expr.rootsOfList, pathRoot] using isRead
    rcases isRoot with rfl | rfl <;> rfl
  have sameMethods : ∀ name ∈ template.analysis.calls, ∀ arguments,
      methods.call? name arguments = methods'.call? name arguments := by
    intro name isCalled arguments
    obtain rfl : name = "f" := by
      simpa [template, analysis, Analysis.ofNodes, mem_sortedNames, Node.callsOfList, Node.calls,
        Expr.calls, Expr.callsOfList] using isCalled
    rfl
  exact ⟨sameData, sameMethods, render_eq_of_analysis template sameData sameMethods⟩

end Template

end TextTemplate
