import TextTemplate.Proofs.Expr.Grammar

/-! # What postfix items denote

Items in postfix order denote an expression when applying them leaves nothing but that expression on
top of whatever the stack held before, or fails because a part of the expression is too deep. Items
of parts, followed by the item that joins them, denote the whole. -/

namespace TextTemplate

/-- A finished operand. -/
def Expr.finished (expr : Expr) : PostfixItem.Operand := ⟨expr, expr.depth⟩

namespace PostfixItem

variable {limit : Nat}

/-- The depth of the deepest operand is that of the deepest expression. -/
theorem maxOperandDepth_finished (exprs : List Expr) :
    maxOperandDepth (exprs.map Expr.finished) = Expr.depthOfList exprs := by
  have from_start (start : Nat) :
      (exprs.map Expr.finished).foldl (max · ·.depth) start =
        max start (Expr.depthOfList exprs) := by
    induction exprs generalizing start with
    | nil => simp [Expr.depthOfList]
    | cons expr rest ih =>
        rw [List.map_cons, List.foldl_cons, ih, Expr.depthOfList, Nat.max_assoc, Expr.finished]
  simpa [maxOperandDepth] using from_start 0

/-- The operands of a list that was put on the stack last are taken off in their order. -/
theorem takeList?_finished (exprs : List Expr) (stack : List Operand) :
    takeList? exprs.length ((exprs.map Expr.finished).reverse ++ stack) =
      some (exprs.map Expr.finished, stack) := by
  simp [takeList?]

/-! ### Denotation -/

/-- Whether items denote the expressions of a list, in its order. -/
structure DenotesAll (limit : Nat) (items : List PostfixItem) (exprs : List Expr) : Prop where
  pushes : Expr.AllWithin limit exprs → ∀ rest stack,
    applyAll limit (items ++ rest) stack =
      applyAll limit rest ((exprs.map Expr.finished).reverse ++ stack)
  refuses : ¬Expr.AllWithin limit exprs → ∀ rest stack,
    ∃ span, applyAll limit (items ++ rest) stack = .error ⟨.expressionTooDeep limit, span⟩

/-- Whether items denote an expression. -/
def Denotes (limit : Nat) (items : List PostfixItem) (expr : Expr) : Prop :=
  DenotesAll limit items [expr]

/-- No items denote no expressions. -/
theorem denotesAll_nil : DenotesAll limit [] [] where
  pushes _ _ _ := rfl
  refuses h := absurd Expr.allWithin_nil h

/-- Items of one expression and of others denote all of them. -/
theorem Denotes.append {items others : List PostfixItem} {expr : Expr} {exprs : List Expr}
    (first : Denotes limit items expr) (tail : DenotesAll limit others exprs) :
    DenotesAll limit (items ++ others) (expr :: exprs) where
  pushes h rest stack := by
    obtain ⟨here, there⟩ := Expr.allWithin_cons.mp h
    rw [List.append_assoc, first.pushes (by simpa using here), tail.pushes there]
    simp
  refuses h rest stack := by
    rw [List.append_assoc]
    by_cases here : expr.Within limit
    · rw [first.pushes (by simpa using here)]
      exact tail.refuses (fun there => h (Expr.allWithin_cons.mpr ⟨here, there⟩)) _ _
    · exact first.refuses (by simpa using here) _ _

/-- The items of two expressions, one after the other. -/
theorem Denotes.pair {items others : List PostfixItem} {first second : Expr}
    (h : Denotes limit items first) (h' : Denotes limit others second) :
    DenotesAll limit (items ++ others) [first, second] := by
  simpa using h.append (Denotes.append h' denotesAll_nil)

/-- The items of a list followed by those of one more expression. -/
theorem DenotesAll.concat {items others : List PostfixItem} {exprs : List Expr} {expr : Expr}
    (h : DenotesAll limit items exprs) (h' : Denotes limit others expr) :
    DenotesAll limit (items ++ others) (exprs ++ [expr]) where
  pushes within rest stack := by
    have split : Expr.AllWithin limit exprs ∧ expr.Within limit := by
      clear h h'
      induction exprs <;> simp_all
    rw [List.append_assoc, h.pushes split.1, h'.pushes (by simpa using split.2)]
    simp
  refuses outside rest stack := by
    rw [List.append_assoc]
    by_cases within : Expr.AllWithin limit exprs
    · rw [h.pushes within]
      refine h'.refuses (fun last => outside ?_) _ _
      clear h h' outside
      induction exprs <;> simp_all
    · exact h.refuses within _ _

/-- A complete operand denotes itself. -/
theorem denotes_operand {expr : Expr} (h : expr.isComposite = false) :
    Denotes limit [.operand expr] expr where
  pushes _ rest stack := by
    have : expr.depth = 1 := by cases expr <;> simp_all [Expr.isComposite, Expr.depth]
    simp [applyAll, apply, Expr.finished, this]
    rfl
  refuses outside :=
    absurd (Expr.allWithin_cons.mpr ⟨Expr.within_of_not_isComposite h, Expr.allWithin_nil⟩) outside

/-- The items of parts denote the whole together with an item that pushes it in their place. -/
theorem DenotesAll.join {items : List PostfixItem} {parts : List Expr} {item : PostfixItem}
    {expr : Expr} (h : DenotesAll limit items parts)
    (joins : ∀ stack, item.apply limit ((parts.map Expr.finished).reverse ++ stack) =
      push limit expr expr.depth stack)
    (within : expr.Within limit ↔ Expr.AllWithin limit parts ∧ expr.depth ≤ limit) :
    Denotes limit (items ++ [item]) expr where
  pushes whole rest stack := by
    obtain ⟨inside, shallow⟩ := within.mp (Expr.allWithin_cons.mp whole).1
    rw [List.append_assoc, h.pushes inside, List.singleton_append, applyAll, joins, push,
      if_neg (Nat.not_lt.mpr shallow)]
    rfl
  refuses outside rest stack := by
    rw [List.append_assoc]
    by_cases inside : Expr.AllWithin limit parts
    · have deep : limit < expr.depth := by
        refine Nat.not_le.mp fun shallow => outside ?_
        exact Expr.allWithin_cons.mpr ⟨within.mpr ⟨inside, shallow⟩, Expr.allWithin_nil⟩
      refine ⟨expr.span, ?_⟩
      rw [h.pushes inside, List.singleton_append, applyAll, joins, push, if_pos deep]
      rfl
    · exact h.refuses inside _ _

/-! ### Items of composite expressions -/

section Composite

variable {items others : List PostfixItem}

/-- A binary operator behind its operands denotes the operation. -/
theorem Denotes.binary {left right : Expr} (operator : BinaryOperator) (span : Span)
    (h : Denotes limit items left) (h' : Denotes limit others right) :
    Denotes limit (items ++ others ++ [.binary operator span])
      (.binary operator left right (left.span.merge right.span)) :=
  (h.pair h').join (fun _ => rfl) (by simp [Expr.depth])

/-- A prefix operator behind its operand denotes the operation. -/
theorem Denotes.unary {operand : Expr} (operator : UnaryOperator) (span : Span)
    (h : Denotes limit items operand) :
    Denotes limit (items ++ [.unary operator span])
      (.unary operator operand (span.merge operand.span)) :=
  DenotesAll.join h (fun _ => rfl) (by simp [Expr.depth])

/-- An index behind an object and a key denotes the member. -/
theorem Denotes.member {object key : Expr} (span : Span)
    (h : Denotes limit items object) (h' : Denotes limit others key) :
    Denotes limit (items ++ others ++ [.index span])
      (.member object key (object.span.merge span)) :=
  (h.pair h').join (fun _ => rfl) (by simp [Expr.depth])

/-- A call behind its arguments denotes the result. -/
theorem DenotesAll.call {arguments : List Expr} (name : String) (span : Span)
    (h : DenotesAll limit items arguments) :
    Denotes limit (items ++ [.call name arguments.length span]) (.call name arguments span) := by
  refine h.join (fun stack => ?_) (by simp [Expr.depth])
  rw [apply, takeList?_finished]
  simp [maxOperandDepth_finished, Expr.depth, Expr.finished, Function.comp_def]

/-- An array behind its items denotes the list of them. -/
theorem DenotesAll.array {exprs : List Expr} (span : Span) (h : DenotesAll limit items exprs) :
    Denotes limit (items ++ [.array exprs.length span]) (.array exprs span) := by
  refine h.join (fun stack => ?_) (by simp [Expr.depth])
  rw [apply, takeList?_finished]
  simp [maxOperandDepth_finished, Expr.depth, Expr.finished, Function.comp_def]

end Composite

end PostfixItem

open PostfixItem in
/-- Items that denote an expression build it when it is within the limit, and nothing otherwise. -/
theorem Expr.ofPostfix_eq_ok_iff {limit : Nat} {extent : Span} {items : List PostfixItem}
    {denoted expr : Expr} (h : Denotes limit items denoted) :
    Expr.ofPostfix limit extent items = .ok expr ↔ expr = denoted ∧ denoted.Within limit := by
  by_cases within : denoted.Within limit
  · have applied := h.pushes (by simpa using within) [] []
    rw [List.append_nil] at applied
    simp [Expr.ofPostfix, applied, applyAll, within, bind, Except.bind, Expr.finished, eq_comm]
  · obtain ⟨span, applied⟩ := h.refuses (by simpa using within) [] []
    rw [List.append_nil] at applied
    simp [Expr.ofPostfix, applied, within, bind, Except.bind]

end TextTemplate
