import TextTemplate.Proofs.Interchange.Template
import TextTemplate.Proofs.Node.Printed

/-! # Printed templates are compiled back

The text of a compiled template compiles under the same limits. The new template has the same tree,
except for the places of its parts and for the representation of its numbers, which are equal and
spelled in the same way; so it has the same analysis and the same text. -/

namespace TextTemplate.Template

variable {source : Source} {limits : Limits} {template : Template}

/-- A template is compiled when the nodes of its source are read. -/
theorem compile_of_nodes {nodes : List Node} (read : source.nodes limits = .ok nodes) :
    compile source limits = .ok ⟨source.name, String.ofList source.text, nodes⟩ := by
  rw [compile, read]

/-- The text of a compiled template is compiled to nodes that are alike, with numbers that are read
from the same spelling. -/
theorem exists_compiled_print (compiled : compile source limits = .ok template) (name : String) :
    ∃ again, compile (.ofString name template.print) limits = .ok again ∧
      Node.AllAlike Numeric.Respelled template.nodes again.nodes := by
  obtain ⟨nodes, read, alike⟩ := Source.nodes_print (nodes_of_compile compiled) name
  have text : Source.ofString name template.print = ⟨name, Node.printList template.nodes⟩ := by
    rw [Source.ofString, print, String.toList_ofList]
  rw [text]
  exact ⟨_, compile_of_nodes read, alike⟩

/-- The text of a compiled template compiles under the same limits. The new tree is the same apart
from the places of its parts and from numbers that are equal, it reads the same names and calls the
same methods, and its text is the same. -/
theorem compile_print (compiled : compile source limits = .ok template) (name : String) :
    ∃ again, compile (.ofString name template.print) limits = .ok again ∧
      Node.AllAlike (fun value value' => value'.numericEq value = true) template.nodes
        again.nodes ∧
      again.analysis = template.analysis ∧ again.print = template.print := by
  obtain ⟨again, compiledAgain, alike⟩ := exists_compiled_print compiled name
  refine ⟨again, compiledAgain, alike.mono fun _ _ _ respelled => respelled.equal,
    alike.analysis_eq, ?_⟩
  rw [print, print, alike.print_eq]

/-- A template with a loop, a choice, a comment, and numbers that are spelled anew. -/
theorem compile_print_of_loop :
    ∃ template again,
      compile ⟨"template", ("a\x7b% for x,i in [01, -2.50, m(\"%\x7d\")[0]] %\x7d" ++
        "\x7b{ 1-(2 - x) ** -3 }\x7d\x7b# c #\x7d\x7b%if !x%\x7db\x7b%else%\x7d\x7b%endif%\x7d" ++
        "\x7b% endfor %\x7d").toList⟩ {} = .ok template ∧
        compile (.ofString "again" template.print) {} = .ok again ∧
        Node.AllAlike (fun value value' => value'.numericEq value = true) template.nodes
          again.nodes ∧
        again.analysis = template.analysis ∧ again.print = template.print := by
  have compiles : (compile ⟨"template", ("a\x7b% for x,i in [01, -2.50, m(\"%\x7d\")[0]] %\x7d" ++
      "\x7b{ 1-(2 - x) ** -3 }\x7d\x7b# c #\x7d\x7b%if !x%\x7db\x7b%else%\x7d\x7b%endif%\x7d" ++
      "\x7b% endfor %\x7d").toList⟩ {}).toOption.isSome = true := by
    decide +kernel
  obtain ⟨template, compiled⟩ := Option.isSome_iff_exists.mp compiles
  rw [toOption_eq_some_iff] at compiled
  obtain ⟨again, whole⟩ := compile_print compiled "again"
  exact ⟨template, again, compiled, whole⟩

end TextTemplate.Template
