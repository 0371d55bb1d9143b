import TextTemplate.Proofs.Node.Joined
import TextTemplate.Proofs.Template.Rendered

/-! # Joined templates

Templates are composed by writing one text behind the other: if both compile, so does the whole, and
it renders the text of the first and then the text of the second. Only half an opener at the end of
the first text could become a tag with what follows it. -/

namespace TextTemplate

/-! ### Bodies of joined pieces -/

/-- Nodes behind others render their text behind the others'. -/
theorem Node.renderList_append (methods : Registry) (env : Environment)
    (nodes others : List Node) :
    Node.renderList methods env (nodes ++ others) =
      Node.renderList methods env nodes ++ Node.renderList methods env others := by
  induction nodes with
  | nil => rfl
  | cons node rest ih => rw [List.cons_append, renderList, renderList, ih, List.append_assoc]

/-- The pieces of two bodies, joined, are a body whose text is that of the first and of the
second. -/
theorem Source.exists_body_join {source : Source} {limits : Limits} {pieces others : List Piece}
    {first second : List Event} {room : Nat} {nodes more : List Node}
    (said : source.Says limits pieces first) (body : Node.Body room first nodes)
    (saidMore : source.Says limits others second) (bodyMore : Node.Body room second more) :
    ∃ events whole, source.Says limits (Piece.join pieces others) events ∧
      Node.Body room events whole ∧ ∀ methods env, Node.renderList methods env whole =
        Node.renderList methods env nodes ++ Node.renderList methods env more := by
  rcases Piece.join_cases pieces others with
    same | ⟨before, content, start, content', start', rest, rfl, rfl, same⟩
  · exact ⟨_, _, same ▸ said.append saidMore, body.append bodyMore, fun methods env =>
      Node.renderList_append methods env nodes more⟩
  · -- The texts next to each other become one, so the body has one leaf for the two.
    obtain ⟨front, last, saidFront, saidLast, rfl⟩ := says_append_iff.mp said
    obtain ⟨text, nothing, here, saidNothing, rfl⟩ := says_cons_iff.mp saidLast
    cases here
    obtain rfl : nothing = [] := (Option.some.inj saidNothing).symm
    obtain ⟨text, behind, here, saidBehind, rfl⟩ := says_cons_iff.mp saidMore
    cases here
    obtain ⟨nodesFront, bodyFront, rfl⟩ := body.exists_last rfl
    obtain ⟨nodesBehind, bodyBehind, rfl⟩ := bodyMore.exists_first rfl
    refine ⟨_, _, same ▸ saidFront.append (.cons rfl saidBehind),
      bodyFront.append (.leaf rfl bodyBehind), fun methods env => ?_⟩
    simp [Node.renderList_append, Node.renderList, Node.render]

/-- The nodes of a source whose text is one text behind another, each of which is read on its own. -/
theorem Source.exists_nodes_append {first second : Source} {limits : Limits}
    {nodes more : List Node} (read : first.nodes limits = .ok nodes)
    (readMore : second.nodes limits = .ok more) (noBrace : first.text.getLast? ≠ some '\x7b')
    (name : String) :
    ∃ whole, (⟨name, first.text ++ second.text⟩ : Source).nodes limits = .ok whole ∧
      ∃ nodes' more', Node.AllAlike Eq nodes nodes' ∧ Node.AllAlike Eq more more' ∧
        ∀ methods env, Node.renderList methods env whole =
          Node.renderList methods env nodes' ++ Node.renderList methods env more' := by
  obtain ⟨events, said, body⟩ := nodes_iff_body.mp read
  obtain ⟨others, saidMore, bodyMore⟩ := nodes_iff_body.mp readMore
  let joined : Source := ⟨name, first.text ++ second.text⟩
  have pieces : joined.pieces = Piece.join first.pieces
      (Piece.scan (0 + byteLength first.text) 0 second.text) :=
    Piece.scan_append said.isStable (Nat.zero_le _) noBrace second.text
  obtain ⟨events', said', alike⟩ := said.moved (Piece.moved_scan 0 0 0 first.text) joined
  obtain ⟨others', saidMore', alikeMore⟩ := saidMore.moved
    (Piece.moved_scan 0 (0 + byteLength first.text) 0 second.text) joined
  obtain ⟨nodes', body', alikeNodes⟩ := body.alike alike
  obtain ⟨more', bodyMore', alikeMoreNodes⟩ := bodyMore.alike alikeMore
  obtain ⟨all, whole, saidWhole, bodyWhole, renders⟩ :=
    exists_body_join said' body' saidMore' bodyMore'
  exact ⟨whole, nodes_iff_body.mpr ⟨all, pieces ▸ saidWhole, bodyWhole⟩, nodes', more', alikeNodes,
    alikeMoreNodes, renders⟩

namespace Template

variable {first second : Source} {limits : Limits} {template next : Template}

/-- If two texts compile and the first one does not end with half an opener, the first text with the
second behind it compiles under the same limits, and for all data and methods it renders the text of
the first template and then the text of the second. -/
theorem render_append (compiled : compile first limits = .ok template)
    (compiledNext : compile second limits = .ok next)
    (noBrace : first.text.getLast? ≠ some '\x7b') (name : String) :
    ∃ whole, compile ⟨name, first.text ++ second.text⟩ limits = .ok whole ∧
      ∀ data methods, whole.render data methods =
        template.render data methods ++ next.render data methods := by
  obtain ⟨nodes, read, nodes', more', alike, alikeMore, renders⟩ :=
    Source.exists_nodes_append (nodes_of_compile compiled) (nodes_of_compile compiledNext) noBrace
      name
  refine ⟨_, compile_of_nodes read, fun data methods => ?_⟩
  have sameFirst : (⟨name, "", nodes'⟩ : Template).render data methods =
      template.render data methods := render_eq_of_alike alike data methods
  have sameSecond : (⟨name, "", more'⟩ : Template).render data methods =
      next.render data methods := render_eq_of_alike alikeMore data methods
  rw [← sameFirst, ← sameSecond, render, render, render, renders, String.ofList_append]

/-- A loop with closers in strings, and a text that names the loop's variable outside of it. -/
theorem render_append_of_loop :
    let first : Source := ⟨"first", ("a\x7b% for x in [\"%\x7d\", 'it\\'s \x7d\x7d'] %\x7d" ++
      "\x7b\x7bx + \"\x7d\x7d\"\x7d\x7d\x7b% endfor %\x7db").toList⟩
    let second : Source := ⟨"second", "c\x7b\x7b x \x7d\x7d\x7b# ' \x7d\x7d #\x7d".toList⟩
    first.text.getLast? ≠ some '\x7b' ∧ ∃ template next whole,
      compile first {} = .ok template ∧ compile second {} = .ok next ∧
      compile ⟨"whole", first.text ++ second.text⟩ {} = .ok whole ∧
      ∀ data methods, whole.render data methods =
        template.render data methods ++ next.render data methods := by
  intro first second
  have noBrace : first.text.getLast? ≠ some '\x7b' := by decide
  have compiles : (compile first {}).toOption.isSome = true ∧
      (compile second {}).toOption.isSome = true := by
    decide +kernel
  obtain ⟨template, compiled⟩ := Option.isSome_iff_exists.mp compiles.1
  obtain ⟨next, compiledNext⟩ := Option.isSome_iff_exists.mp compiles.2
  rw [toOption_eq_some_iff] at compiled compiledNext
  obtain ⟨whole, compiledWhole, renders⟩ := render_append compiled compiledNext noBrace "whole"
  exact ⟨noBrace, template, next, whole, compiled, compiledNext, compiledWhole, renders⟩

/-- Two halves of an opener are texts on their own. -/
example :
    ["\x7b", "\x7b 1 \x7d\x7d", "\x7b\x7b 1 \x7d\x7d"].map (fun text =>
      (compile (.ofString "template" text) {}).toOption.map (·.render .null .empty)) =
        [some "\x7b", some "\x7b 1 \x7d\x7d", some "1"] := by
  decide +kernel

end Template

end TextTemplate
