import TextTemplate.Proofs.Node.Words

/-! # How deep nodes are

How many blocks of a tree lie inside each other, and which expressions stand in it. A body has a
place wherever there is room for its blocks: the room that it was derived with does not show in its
nodes. -/

namespace TextTemplate.Node

/-! ### Measures -/

mutual

/-- How many blocks lie inside each other in a node. -/
def blockDepth : Node → Nat
  | .text _ _ | .interpolation _ _ | .comment _ _ => 0
  | .loop _ _ _ body _ => blockDepthOfList body + 1
  | .choice branches otherwise _ =>
      max (blockDepthOfBranches branches) (blockDepthOfElse otherwise) + 1

/-- How many blocks lie inside each other in any of several nodes. -/
def blockDepthOfList : List Node → Nat
  | [] => 0
  | node :: rest => max (blockDepth node) (blockDepthOfList rest)

/-- How many blocks lie inside each other in any of several branches. -/
def blockDepthOfBranches : List (Expr × List Node) → Nat
  | [] => 0
  | (_, body) :: rest => max (blockDepthOfList body) (blockDepthOfBranches rest)

/-- How many blocks lie inside each other in the last branch. -/
def blockDepthOfElse : Option (List Node) → Nat
  | none => 0
  | some body => blockDepthOfList body

end

mutual

/-- The expressions that stand in a node, in order. -/
def exprs : Node → List Expr
  | .text _ _ | .comment _ _ => []
  | .interpolation expr _ => [expr]
  | .loop _ _ source body _ => source :: exprsOfList body
  | .choice branches otherwise _ => exprsOfBranches branches ++ exprsOfElse otherwise

/-- The expressions that stand in several nodes. -/
def exprsOfList : List Node → List Expr
  | [] => []
  | node :: rest => exprs node ++ exprsOfList rest

/-- The conditions of several branches and the expressions that stand in their bodies. -/
def exprsOfBranches : List (Expr × List Node) → List Expr
  | [] => []
  | (condition, body) :: rest => condition :: exprsOfList body ++ exprsOfBranches rest

/-- The expressions that stand in the last branch. -/
def exprsOfElse : Option (List Node) → List Expr
  | none => []
  | some body => exprsOfList body

end

/-! ### Bodies -/

/-- A node that belongs to no block is none. -/
theorem blockDepth_of_leaf {event : Event} {node : Node} (isLeaf : event.leaf? = some node) :
    node.blockDepth = 0 := by
  cases event <;> cases isLeaf <;> rfl

mutual

/-- There is room for the blocks of a body. -/
theorem Body.blockDepth_le : {room : Nat} → {events : List Event} → {nodes : List Node} →
    Body room events nodes → blockDepthOfList nodes ≤ room
  | _, _, _, .nil => Nat.zero_le _
  | _, _, _, .leaf isLeaf rest => by
      have others := rest.blockDepth_le
      rw [blockDepthOfList, blockDepth_of_leaf isLeaf]
      omega
  | _, _, _, .loop inside rest => by
      have body := inside.blockDepth_le
      have others := rest.blockDepth_le
      rw [blockDepthOfList, blockDepth]
      omega
  | _, _, _, .choice inside rest => by
      have branches := inside.blockDepth_le
      have others := rest.blockDepth_le
      rw [blockDepthOfList, blockDepth]
      omega

/-- Branches are no deeper than the room that they are read in. -/
theorem Branches.blockDepth_le : {room : Nat} → {condition : Expr} → {events : List Event} →
    {branches : List (Expr × List Node)} → {otherwise : Option (List Node)} →
    Branches room condition events branches otherwise →
    max (blockDepthOfBranches branches) (blockDepthOfElse otherwise) ≤ room
  | _, _, _, _, _, .only body => by
      have first := body.blockDepth_le
      simp only [blockDepthOfBranches, blockDepthOfElse]
      omega
  | _, _, _, _, _, .elseIf body rest => by
      have first := body.blockDepth_le
      have others := rest.blockDepth_le
      rw [blockDepthOfBranches]
      omega
  | _, _, _, _, _, .otherwise body last => by
      have first := body.blockDepth_le
      have second := last.blockDepth_le
      simp only [blockDepthOfBranches, blockDepthOfElse]
      omega

end

mutual

/-- A body has a place wherever there is room for its blocks. -/
theorem Body.fit {other : Nat} : {room : Nat} → {events : List Event} → {nodes : List Node} →
    Body room events nodes → blockDepthOfList nodes ≤ other → Body other events nodes
  | _, _, _, .nil, _ => .nil
  | _, _, _, .leaf isLeaf rest, fits => by
      rw [blockDepthOfList, blockDepth_of_leaf isLeaf] at fits
      exact .leaf isLeaf (rest.fit (by omega))
  | _, _, _, .loop inside rest, fits => by
      rw [blockDepthOfList, blockDepth] at fits
      obtain ⟨smaller, rfl⟩ : ∃ smaller, other = smaller + 1 := ⟨other - 1, by omega⟩
      exact .loop (inside.fit (by omega)) (rest.fit (by omega))
  | _, _, _, .choice inside rest, fits => by
      rw [blockDepthOfList, blockDepth] at fits
      obtain ⟨smaller, rfl⟩ : ∃ smaller, other = smaller + 1 := ⟨other - 1, by omega⟩
      exact .choice (inside.fit (by omega)) (rest.fit (by omega))

/-- They can be read in any room that is as deep as they are. -/
theorem Branches.fit {other : Nat} : {room : Nat} → {condition : Expr} → {events : List Event} →
    {branches : List (Expr × List Node)} → {otherwise : Option (List Node)} →
    Branches room condition events branches otherwise →
    max (blockDepthOfBranches branches) (blockDepthOfElse otherwise) ≤ other →
    Branches other condition events branches otherwise
  | _, _, _, _, _, .only body, fits => by
      simp only [blockDepthOfBranches] at fits
      exact .only (body.fit (by omega))
  | _, _, _, _, _, .elseIf body rest, fits => by
      simp only [blockDepthOfBranches] at fits
      exact .elseIf (body.fit (by omega)) (rest.fit (by omega))
  | _, _, _, _, _, .otherwise body last, fits => by
      simp only [blockDepthOfBranches, blockDepthOfElse] at fits
      exact .otherwise (body.fit (by omega)) (last.fit (by omega))

end

mutual

/-- The expressions of nodes that make a body are those of its events. -/
theorem Body.exprs_eq : {room : Nat} → {events : List Event} → {nodes : List Node} →
    Body room events nodes → exprsOfList nodes = events.filterMap Event.expr?
  | _, _, _, .nil => rfl
  | _, _, _, @Body.leaf _ event _ _ _ isLeaf rest => by
      rw [exprsOfList, rest.exprs_eq, List.filterMap_cons]
      cases event <;> cases isLeaf <;> rfl
  | _, _, _, .loop inside rest => by
      simp [exprsOfList, exprs, inside.exprs_eq, rest.exprs_eq, List.filterMap_cons, Event.expr?]
  | _, _, _, .choice inside rest => by
      have branches := inside.exprs_eq
      simp [exprsOfList, exprs, branches, rest.exprs_eq, List.filterMap_cons, Event.expr?]

/-- The expressions of branches are those of their events, behind the first condition. -/
theorem Branches.exprs_eq : {room : Nat} → {condition : Expr} → {events : List Event} →
    {branches : List (Expr × List Node)} → {otherwise : Option (List Node)} →
    Branches room condition events branches otherwise →
    exprsOfBranches branches ++ exprsOfElse otherwise =
      condition :: events.filterMap Event.expr?
  | _, _, _, _, _, .only body => by
      simp [exprsOfBranches, exprsOfElse, body.exprs_eq]
  | _, _, _, _, _, .elseIf body rest => by
      have others := rest.exprs_eq
      simp [exprsOfBranches, body.exprs_eq, others, Event.expr?]
  | _, _, _, _, _, .otherwise body last => by
      simp [exprsOfBranches, exprsOfElse, body.exprs_eq, last.exprs_eq, List.filterMap_cons,
        Event.expr?]

end

end TextTemplate.Node
