import TextTemplate.Proofs.Node.Spans
import TextTemplate.Proofs.Template.Limits

/-! # Spans in templates

Every node and every expression of a template knows the span that it was written in. These spans
are what the text says: nodes side by side leave no gap and share no character, what is inside of
something has its span inside of the other's, and expressions come one after the other. Positions
are kept in words, so this takes a source that is short enough for them. -/

namespace TextTemplate.Template

variable {source : Source} {limits : Limits} {template : Template}

/-- Whether the spans of the nodes and expressions of a template are their places in a source. -/
structure StandsIn (template : Template) (source : Source) : Prop where
  /-- The nodes stand between the two ends of the source without a gap, and so do those of every
  body between the two tags around it. -/
  tiles : Node.Tiles source 0 source.size template.nodes
  /-- Wherever nodes do, their spans lead from the start to the stop, each of them from where the
  one before it ends. -/
  adjacent : ∀ start stop nodes, Node.Tiles source start stop nodes →
    Span.Tile (source.position start) (source.position stop) (nodes.map Node.span)
  /-- The spans of the template lead from the first position to the end of the source. -/
  whole : Span.Tile .first (source.position source.size) (template.nodes.map Node.span)
  /-- The span of a node contains those of all nodes inside of it, and those of all expressions. -/
  nodes : ∀ node ∈ Node.partsOfList template.nodes,
    (∀ inner ∈ node.parts, node.span.Contains inner.span) ∧
      ∀ expr ∈ node.exprs, ∀ part ∈ expr.parts, node.span.Contains part.span
  /-- The span of an expression contains those of its parts, and its operands come one after the
  other in it. -/
  exprs : ∀ expr ∈ Node.exprsOfList template.nodes, ∀ part ∈ expr.parts,
    (∀ inner ∈ part.parts, part.span.Contains inner.span) ∧
      Span.InOrder part.span.start part.span.stop (part.operands.map Expr.span)
  /-- The expressions of different tags come one after the other as well. -/
  inOrder : Span.InOrder .first (source.position source.size)
    ((Node.exprsOfList template.nodes).map Expr.span)

/-- Every template that is compiled from a short source stands in it. -/
theorem standsIn_of_compile (short : source.size < 2 ^ 32 - 1)
    (compiled : compile source limits = .ok template) : template.StandsIn source := by
  obtain ⟨nodes, read, rfl⟩ := compile_eq_ok_iff.mp compiled
  have tiles := Node.tiles_of_nodes short read
  have whole := tiles.tile short
  obtain ⟨inOrder, nested⟩ := tiles.stand short
  rw [Source.position_zero] at whole inOrder
  refine ⟨tiles, fun _ _ _ others => others.tile short, whole, fun node isNode => ?_,
    fun expr isExpr part isPart => ?_, inOrder⟩
  · have encloses := (tiles.within short node isNode).2
    refine ⟨encloses.nodes, fun expr isExpr part isPart => ?_⟩
    have inside := encloses.exprs.1.bounds _ (List.mem_map_of_mem isExpr)
    exact .trans inside ((encloses.exprs.2 expr isExpr).of_part isPart).1
  · have nested := ((nested expr isExpr).of_part isPart).2
    exact ⟨fun inner isInner => (nested.of_part isInner).1, (Expr.isNested_iff.mp nested).1⟩

/-- A loop around a choice, with characters of several bytes and expressions over several lines. -/
theorem standsIn_of_lines :
    let source : Source := ⟨"template", ("é\n\x7b% for x,\n i in [(1 + 2)\n * y, 'ß'] %\x7d\n" ++
      "é\x7b% if f( x )[0].a %\x7d\x7b# c\n #\x7d\x7b% elif !i %\x7d\x7b\x7b x\n\x7d\x7d" ++
      "\x7b% else %\x7d\x7b% endif %\x7d\n\x7b% endfor %\x7d\n").toList⟩
    source.size < 2 ^ 32 - 1 ∧
      ∃ template, compile source {} = .ok template ∧ template.StandsIn source := by
  intro source
  have short : source.size < 2 ^ 32 - 1 := by decide +kernel
  have compiles : (compile source {}).toOption.isSome = true := by decide +kernel
  obtain ⟨template, compiled⟩ := Option.isSome_iff_exists.mp compiles
  rw [toOption_eq_some_iff] at compiled
  exact ⟨short, template, compiled, standsIn_of_compile short compiled⟩

end TextTemplate.Template
