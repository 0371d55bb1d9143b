import TextTemplate.Proofs.Interchange.Template
import TextTemplate.Proofs.Node.Depth

/-! # What limits cut off

Limits refuse the sources whose trees are too deep for them, and change nothing else: what pieces
say does not depend on the limits as long as their expressions are within them, and a body is the
same in any room that it fits. -/

namespace TextTemplate

/-- What is within a limit is within every larger one. -/
theorem Expr.NoneDeeper.mono {limit larger : Nat} {exprs : List Expr}
    (within : NoneDeeper limit exprs) (le : limit ≤ larger) : NoneDeeper larger exprs :=
  fun expr isMember isComposite => Nat.le_trans (within expr isMember isComposite) le

/-- Whether limits allow a tree: its blocks lie inside each other at most so deep, and no composite
expression in it is deeper than an expression may be. -/
structure Limits.Allow (limits : Limits) (nodes : List Node) : Prop where
  blocks : Node.blockDepthOfList nodes ≤ limits.maxBlockDepth
  exprs : ∀ expr ∈ Node.exprsOfList nodes, expr.Within limits.maxExpressionDepth

instance (limit : Nat) (expr : Expr) : Decidable (expr.Within limit) :=
  inferInstanceAs (Decidable (∀ part ∈ expr.parts, part.isComposite → part.depth ≤ limit))

instance (limits : Limits) (nodes : List Node) : Decidable (limits.Allow nodes) :=
  decidable_of_iff (Node.blockDepthOfList nodes ≤ limits.maxBlockDepth ∧
      ∀ expr ∈ Node.exprsOfList nodes, expr.Within limits.maxExpressionDepth)
    ⟨fun both => ⟨both.1, both.2⟩, fun allowed => ⟨allowed.blocks, allowed.exprs⟩⟩

namespace Source

variable {source : Source} {limits larger : Limits}

/-! ### Expressions and events -/

/-- An expression is read under limits when it is read under larger ones and is not too deep. -/
theorem expression_iff_of_le (le : limits.maxExpressionDepth ≤ larger.maxExpressionDepth)
    {tag : Tag} {text : List Char} {start : Nat} {expr : Expr} :
    Node.Parser.expression source limits tag text start = .ok expr ↔
      Node.Parser.expression source larger tag text start = .ok expr ∧
        expr.Within limits.maxExpressionDepth := by
  simp only [Node.Parser.expression, bind_eq_ok_iff]
  constructor
  · rintro ⟨tokens, lexed, read⟩
    obtain ⟨chain, within⟩ := Expr.chain_of_ofTokens read
    exact ⟨⟨tokens, lexed, Expr.ofTokens_of_chain chain (Expr.NoneDeeper.mono within le)⟩, within⟩
  · rintro ⟨⟨tokens, lexed, read⟩, within⟩
    exact ⟨tokens, lexed, Expr.ofTokens_of_chain (Expr.chain_of_ofTokens read).1 within⟩

/-- Whether an event has an expression within the limits shows in the expression that it is made
of. -/
theorem exists_within_iff {event : Event} {limit : Nat} {isRead : Expr → Prop}
    {make : Expr → Event} (has : ∀ expr, (make expr).expr? = some expr) :
    (∃ expr, (isRead expr ∧ expr.Within limit) ∧ event = make expr) ↔
      (∃ expr, isRead expr ∧ event = make expr) ∧
        ∀ expr, event.expr? = some expr → expr.Within limit := by
  constructor
  · rintro ⟨expr, ⟨read, within⟩, rfl⟩
    refine ⟨⟨expr, read, rfl⟩, fun other isOther => ?_⟩
    rw [has, Option.some.injEq] at isOther
    exact isOther ▸ within
  · rintro ⟨⟨expr, read, rfl⟩, within⟩
    exact ⟨expr, ⟨read, within expr (has expr)⟩, rfl⟩

/-- A piece says under limits what it says under larger ones, if its expression is not too deep. -/
theorem event_iff_of_le (le : limits.maxExpressionDepth ≤ larger.maxExpressionDepth)
    {piece : Piece} {event : Event} :
    source.event? limits piece = some event ↔ source.event? larger piece = some event ∧
      ∀ expr, event.expr? = some expr → expr.Within limits.maxExpressionDepth := by
  cases piece with
  | text content start =>
      refine iff_self_and.mpr fun said expr has => ?_
      cases said
      cases has
  | unclosed kind start => simp [event?]
  | tag tag =>
      cases kind : tag.kind with
      | comment =>
          simp only [event?, kind]
          refine iff_self_and.mpr fun said expr has => ?_
          cases said
          cases has
      | interpolation =>
          simp only [event?, kind, Option.map_eq_some_iff, toOption_eq_some_iff,
            expression_iff_of_le le, eq_comm (b := event)]
          exact exists_within_iff fun _ => rfl
      | statement =>
          cases isKeyword : tag.keyword? with
          | none =>
              have noKeyword : tag.statement.keyword? = none := by
                simpa [Tag.keyword?, kind] using isKeyword
              simp [event?, statementEvent?, kind, noKeyword]
          | some keyword =>
              -- Only the expression of a statement depends on the limits, not its form.
              rcases keyword with (_ | _) | block | _ | _
              case opens.loop =>
                cases header : LoopHeader.ofStatement tag.statement tag.inner with
                | error => simp [event_loop_iff isKeyword, header]
                | ok found =>
                    simp only [event_loop_iff isKeyword, header, Except.ok.injEq,
                      exists_and_left, exists_eq_left', expression_iff_of_le le]
                    exact exists_within_iff fun _ => rfl
              case opens.choice =>
                rw [event_choice_iff isKeyword, event_choice_iff isKeyword, and_assoc]
                simp only [expression_iff_of_le le]
                exact and_congr_right fun _ => exists_within_iff fun _ => rfl
              case elseIf =>
                rw [event_elseIf_iff isKeyword, event_elseIf_iff isKeyword, and_assoc]
                simp only [expression_iff_of_le le]
                exact and_congr_right fun _ => exists_within_iff fun _ => rfl
              case otherwise =>
                simp only [event_otherwise_iff isKeyword]
                refine iff_self_and.mpr ?_
                rintro ⟨-, rfl⟩ expr has
                cases has
              case closes =>
                simp only [event_closes_iff isKeyword]
                refine iff_self_and.mpr ?_
                rintro ⟨-, rfl⟩ expr has
                cases has

/-- Pieces say under limits what they say under larger ones, if no expression is too deep. -/
theorem says_iff_of_le (le : limits.maxExpressionDepth ≤ larger.maxExpressionDepth)
    {pieces : List Piece} {events : List Event} :
    source.Says limits pieces events ↔ source.Says larger pieces events ∧
      ∀ expr ∈ events.filterMap Event.expr?, expr.Within limits.maxExpressionDepth := by
  induction pieces generalizing events with
  | nil =>
      refine iff_self_and.mpr fun said => ?_
      cases said
      exact nofun
  | cons piece rest ih =>
      simp only [says_cons_iff, event_iff_of_le le, ih]
      constructor
      · rintro ⟨event, others, ⟨said, here⟩, ⟨tail, there⟩, rfl⟩
        refine ⟨⟨event, others, said, tail, rfl⟩, fun expr isMember => ?_⟩
        obtain ⟨other, isOther, has⟩ := List.mem_filterMap.mp isMember
        rcases List.mem_cons.mp isOther with rfl | isRest
        · exact here expr has
        · exact there expr (List.mem_filterMap.mpr ⟨other, isRest, has⟩)
      · rintro ⟨⟨event, others, said, tail, rfl⟩, within⟩
        -- The expressions of all events are those of the first one and of the others.
        have all : ∀ other ∈ event :: others, ∀ expr, other.expr? = some expr →
            expr.Within limits.maxExpressionDepth :=
          fun other isOther expr has => within expr (List.mem_filterMap.mpr ⟨other, isOther, has⟩)
        obtain ⟨here, there⟩ := List.forall_mem_cons.mp all
        refine ⟨event, others, ⟨said, here⟩, ⟨tail, fun expr isMember => ?_⟩, rfl⟩
        obtain ⟨other, isOther, has⟩ := List.mem_filterMap.mp isMember
        exact there other isOther expr has

/-! ### Nodes -/

/-- The nodes of a source are allowed by the limits that they are read under. -/
theorem allow_of_nodes {nodes : List Node} (read : source.nodes limits = .ok nodes) :
    limits.Allow nodes := by
  obtain ⟨events, said, body⟩ := nodes_iff_body.mp read
  refine ⟨body.blockDepth_le, ?_⟩
  rw [body.exprs_eq]
  exact ((says_iff_of_le (Nat.le_refl _)).mp said).2

/-- A source is read under limits when it is read under larger ones, as the same nodes, and the
limits allow these. -/
theorem nodes_iff_of_le (blocks : limits.maxBlockDepth ≤ larger.maxBlockDepth)
    (exprs : limits.maxExpressionDepth ≤ larger.maxExpressionDepth) {nodes : List Node} :
    source.nodes limits = .ok nodes ↔
      source.nodes larger = .ok nodes ∧ limits.Allow nodes := by
  constructor
  · intro read
    have allowed := allow_of_nodes read
    obtain ⟨events, said, body⟩ := nodes_iff_body.mp read
    have saidLarger := ((says_iff_of_le exprs).mp said).1
    have fits := body.fit (Nat.le_trans allowed.blocks blocks)
    exact ⟨nodes_iff_body.mpr ⟨events, saidLarger, fits⟩, allowed⟩
  · rintro ⟨read, allowed⟩
    obtain ⟨events, said, body⟩ := nodes_iff_body.mp read
    have within := allowed.exprs
    rw [body.exprs_eq] at within
    exact nodes_iff_body.mpr
      ⟨events, (says_iff_of_le exprs).mpr ⟨said, within⟩, body.fit allowed.blocks⟩

end Source

namespace Template

variable {source : Source} {limits larger : Limits}

/-- A template is compiled exactly when its source is read. -/
theorem compile_eq_ok_iff {template : Template} :
    compile source limits = .ok template ↔ ∃ nodes, source.nodes limits = .ok nodes ∧
      template = ⟨source.name, String.ofList source.text, nodes⟩ := by
  cases read : source.nodes limits <;> simp [compile, read, eq_comm (a := template)]

/-- What compiles under limits compiles to the same template under larger ones, and the limits allow
its tree. What compiles under the larger ones compiles under the limits exactly when they allow its
tree. -/
theorem compile_iff_allow (blocks : limits.maxBlockDepth ≤ larger.maxBlockDepth)
    (exprs : limits.maxExpressionDepth ≤ larger.maxExpressionDepth) :
    (∀ template, compile source limits = .ok template →
        compile source larger = .ok template ∧ limits.Allow template.nodes) ∧
      ∀ template, compile source larger = .ok template →
        ((∃ compiled, compile source limits = .ok compiled) ↔ limits.Allow template.nodes) := by
  have both (template : Template) : compile source limits = .ok template ↔
      compile source larger = .ok template ∧ limits.Allow template.nodes := by
    simp only [compile_eq_ok_iff, Source.nodes_iff_of_le blocks exprs]
    constructor
    · rintro ⟨nodes, ⟨read, allowed⟩, rfl⟩
      exact ⟨⟨nodes, read, rfl⟩, allowed⟩
    · rintro ⟨⟨nodes, read, rfl⟩, allowed⟩
      exact ⟨nodes, ⟨read, allowed⟩, rfl⟩
  refine ⟨fun template => (both template).mp, fun template compiled => ⟨?_, fun allowed => ?_⟩⟩
  · rintro ⟨other, compiledOther⟩
    obtain ⟨again, allowed⟩ := (both other).mp compiledOther
    cases compiled.symm.trans again
    exact allowed
  · exact ⟨template, (both template).mpr ⟨compiled, allowed⟩⟩

/-- A choice in a loop with an expression of two levels: the limits that fit compile it to the same
template as the defaults, and limits that are smaller by one refuse it. -/
theorem compile_iff_allow_of_nested :
    let source : Source := ⟨"template", ("\x7b% for x in a %\x7d\x7b% if x %\x7d" ++
      "\x7b{ 1 + x }\x7d\x7b% else %\x7db\x7b% endif %\x7d\x7b% endfor %\x7d").toList⟩
    (2 ≤ ({} : Limits).maxBlockDepth ∧ 2 ≤ ({} : Limits).maxExpressionDepth) ∧
      ∃ template, compile source {} = .ok template ∧
      compile source ⟨2, 2⟩ = .ok template ∧
      (¬∃ compiled, compile source ⟨1, 2⟩ = .ok compiled) ∧
      ¬∃ compiled, compile source ⟨2, 1⟩ = .ok compiled := by
  intro source
  refine ⟨by decide, ?_⟩
  have allows : (compile source {}).toOption.map (fun template =>
      (decide (Limits.Allow ⟨2, 2⟩ template.nodes), decide (Limits.Allow ⟨1, 2⟩ template.nodes),
        decide (Limits.Allow ⟨2, 1⟩ template.nodes))) = some (true, false, false) := by
    decide +kernel
  obtain ⟨template, found, same⟩ := Option.map_eq_some_iff.mp allows
  simp only [Prod.mk.injEq, decide_eq_true_eq, decide_eq_false_iff_not] at same
  obtain ⟨fits, fewBlocks, fewLevels⟩ := same
  have compiled := toOption_eq_some_iff.mp found
  have fitting := @compile_iff_allow source ⟨2, 2⟩ {} (by decide) (by decide)
  obtain ⟨other, compiledOther⟩ := (fitting.2 template compiled).mpr fits
  obtain rfl := Except.ok.inj (compiled.symm.trans (fitting.1 other compiledOther).1)
  refine ⟨template, compiled, compiledOther, fun small => fewBlocks ?_, fun small => fewLevels ?_⟩
  · exact ((compile_iff_allow (by decide) (by decide)).2 template compiled).mp small
  · exact ((compile_iff_allow (by decide) (by decide)).2 template compiled).mp small

end Template

end TextTemplate
