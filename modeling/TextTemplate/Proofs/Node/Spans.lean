import TextTemplate.Proofs.Node.Depth
import TextTemplate.Proofs.Node.Tiles

/-! # Spans of nodes

Where nodes stand without a gap, each span ends where the next one begins, and the span of a node
contains those of all nodes and expressions inside of it. Positions come in the order of the
offsets here, since every node starts and ends at the edge of a character. -/

namespace TextTemplate

variable {source : Source}

/-! ### Spans of tags -/

namespace Source

variable {tag : Tag}

/-- A tag does not stop before it starts. -/
theorem position_tag_le (short : source.size < 2 ^ 32 - 1) (isPiece : .tag tag ∈ source.pieces) :
    source.position tag.start ≤ source.position tag.stop :=
  position_le_of_cut? short (cut?_tag isPiece)

/-- The span of a tag is made of the positions of its ends. -/
theorem tagSpan_eq (source : Source) (tag : Tag) :
    source.tagSpan tag = ⟨source.position tag.start, source.position tag.stop⟩ :=
  span_of_le (by rw [Tag.stop_eq]; exact Nat.le_add_right _ _)

end Source

/-! ### Expressions one after the other -/

namespace Expr

variable {p middle q : Position} {left right : List Expr}

/-- Nodes stand behind others if they start where the others end. -/
theorem Stand.append (first : Stand p middle left) (second : Stand middle q right) :
    Stand p q (left ++ right) := by
  refine ⟨?_, List.forall_mem_append.mpr ⟨first.2, second.2⟩⟩
  rw [List.map_append, Span.inOrder_append]
  exact ⟨middle, first.1, second.1⟩

/-- Between two positions in order there need not be any nodes. -/
theorem stand_nil (ordered : p ≤ q) : Stand p q [] := ⟨ordered, List.forall_mem_nil _⟩

/-- Nodes that stand between two positions stand between any further apart. -/
theorem Stand.mono {p' q' : Position} (stand : Stand p q left) (before : p' ≤ p) (behind : q ≤ q') :
    Stand p' q' left :=
  ⟨(stand.1.mono_left before).mono_right behind, stand.2⟩

end Expr

namespace Node

open TextTemplate.Expr (Stand)

/-! ### Nodes side by side -/

mutual

/-- Where nodes stand without a gap, so do their spans. -/
theorem Tiles.tile (short : source.size < 2 ^ 32 - 1) : {start stop : Nat} → {nodes : List Node} →
    Tiles source start stop nodes →
    Span.Tile (source.position start) (source.position stop) (nodes.map span)
  | _, _, _, .nil => rfl
  | _, _, _, .text here rest => by
      rw [Source.span_of_le (Nat.le_add_right _ _)]
      exact ⟨rfl, Source.position_le_of_cut? short here, rest.tile short⟩
  | _, _, _, .interpolation isPiece _ _ rest => by
      rw [Source.tagSpan_eq]
      exact ⟨rfl, Source.position_tag_le short isPiece, rest.tile short⟩
  | _, _, _, .comment isPiece _ rest => by
      rw [Source.tagSpan_eq]
      exact ⟨rfl, Source.position_tag_le short isPiece, rest.tile short⟩
  | _, _, _, .loop opens closes _ body rest =>
      ⟨rfl, ((Source.position_tag_le short opens.isPiece).trans (body.tile short).inOrder.le).trans
        (Source.position_tag_le short closes.isPiece), rest.tile short⟩
  | _, _, _, .choice opens closes branches rest =>
      ⟨rfl, ((Source.position_tag_le short opens.isPiece).trans (branches.le short)).trans
        (Source.position_tag_le short closes.isPiece), rest.tile short⟩

/-- Branches end behind the tag of the first one. -/
theorem BranchTiles.le (short : source.size < 2 ^ 32 - 1) : {tag : Tag} → {stop : Nat} →
    {branches : List (Expr × List Node)} → {otherwise : Option (List Node)} →
    BranchTiles source tag stop branches otherwise →
    source.position tag.stop ≤ source.position stop
  | _, _, _, _, .only _ body => (body.tile short).inOrder.le
  | _, _, _, _, .elseIf _ body isTag rest =>
      ((body.tile short).inOrder.le.trans (Source.position_tag_le short isTag.isPiece)).trans
        (rest.le short)
  | _, _, _, _, .otherwise _ body isTag last =>
      ((body.tile short).inOrder.le.trans (Source.position_tag_le short isTag.isPiece)).trans
        (last.tile short).inOrder.le

end

/-- Nodes without a gap end behind their start. -/
theorem Tiles.le {start stop : Nat} {nodes : List Node} (tiles : Tiles source start stop nodes)
    (short : source.size < 2 ^ 32 - 1) : source.position start ≤ source.position stop :=
  (tiles.tile short).inOrder.le

/-! ### Expressions in nodes -/

mutual

/-- The expressions of nodes without a gap stand one after the other. -/
theorem Tiles.stand (short : source.size < 2 ^ 32 - 1) : {start stop : Nat} →
    {nodes : List Node} → Tiles source start stop nodes →
    Stand (source.position start) (source.position stop) (exprsOfList nodes)
  | _, _, _, .nil => Expr.stand_nil (le_refl _)
  | _, _, _, .text here rest =>
      (rest.stand short).mono (Source.position_le_of_cut? short here) (le_refl _)
  | _, _, _, .interpolation _ _ holds rest => holds.append (rest.stand short)
  | _, _, _, .comment isPiece _ rest =>
      (rest.stand short).mono (Source.position_tag_le short isPiece) (le_refl _)
  | _, _, _, .loop _ closes holds body rest =>
      ((holds.append (body.stand short)).mono (le_refl _)
        (Source.position_tag_le short closes.isPiece)).append (rest.stand short)
  | _, _, _, .choice _ closes branches rest =>
      ((branches.stand short).mono (le_refl _)
        (Source.position_tag_le short closes.isPiece)).append (rest.stand short)

/-- And so do those of branches. -/
theorem BranchTiles.stand (short : source.size < 2 ^ 32 - 1) : {tag : Tag} → {stop : Nat} →
    {branches : List (Expr × List Node)} → {otherwise : Option (List Node)} →
    BranchTiles source tag stop branches otherwise →
    Stand (source.position tag.start) (source.position stop)
      (exprsOfBranches branches ++ exprsOfElse otherwise)
  | _, _, _, _, .only holds body => by
      simpa [exprsOfBranches, exprsOfElse] using holds.append (body.stand short)
  | _, _, _, _, .elseIf holds body _ rest => by
      simpa [exprsOfBranches] using (holds.append (body.stand short)).append (rest.stand short)
  | _, _, _, _, .otherwise holds body isTag last => by
      have passes := Source.position_tag_le short isTag.isPiece
      have behind := (last.stand short).mono passes (le_refl _)
      simpa [exprsOfBranches, exprsOfElse] using (holds.append (body.stand short)).append behind

end

/-! ### Nodes in nodes -/

mutual

/-- A node and all nodes inside of it, in order. -/
def parts : Node → List Node
  | .text content span => [.text content span]
  | .interpolation expr span => [.interpolation expr span]
  | .comment content span => [.comment content span]
  | .loop item index source body span => .loop item index source body span :: partsOfList body
  | .choice branches otherwise span =>
      .choice branches otherwise span :: (partsOfBranches branches ++ partsOfElse otherwise)

/-- Several nodes and all nodes inside of them. -/
def partsOfList : List Node → List Node
  | [] => []
  | node :: rest => parts node ++ partsOfList rest

/-- All nodes of several branches. -/
def partsOfBranches : List (Expr × List Node) → List Node
  | [] => []
  | (_, body) :: rest => partsOfList body ++ partsOfBranches rest

/-- All nodes of the last branch. -/
def partsOfElse : Option (List Node) → List Node
  | none => []
  | some body => partsOfList body

end

/-- Whether a node contains all nodes inside of it, and its expressions stand in it one after the
other. -/
structure Encloses (node : Node) : Prop where
  nodes : ∀ inner ∈ node.parts, node.span.Contains inner.span
  exprs : Stand node.span.start node.span.stop node.exprs

/-- Whether nodes that enclose what is inside of them lie between two positions. -/
def Within (p q : Position) (nodes : List Node) : Prop :=
  ∀ node ∈ nodes, Span.Contains ⟨p, q⟩ node.span ∧ node.Encloses

section Within

variable {p p' middle q q' : Position} {left right inside : List Node} {node : Node}

/-- An empty list of nodes lies within any stretch. -/
theorem within_nil : Within p q [] := nofun

/-- Nodes that lie between two positions lie between any further apart. -/
theorem Within.mono (within : Within p q left) (before : p' ≤ p) (behind : q ≤ q') :
    Within p' q' left := fun node isNode =>
  (within node isNode).imp_left (.trans ⟨before, behind⟩)

/-- Nodes that lie one behind the other lie within both stretches together. -/
theorem Within.append (first : Within p middle left) (second : Within middle q right)
    (ordered : p ≤ middle) (ordered' : middle ≤ q) : Within p q (left ++ right) :=
  List.forall_mem_append.mpr ⟨first.mono (le_refl _) ordered', second.mono ordered (le_refl _)⟩

/-- A node encloses what lies in it, and others may follow. -/
theorem within_cons {rest : List Node} (isParts : node.parts = node :: inside)
    (isSpan : node.span = ⟨p, middle⟩) (within : Within p middle inside)
    (exprs : Stand p middle node.exprs) (others : Within middle q (partsOfList rest))
    (ordered : middle ≤ q) : Within p q (partsOfList (node :: rest)) := by
  have contains : ∀ inner ∈ inside, node.span.Contains inner.span := by
    rw [isSpan]
    exact fun inner isInner => (within inner isInner).1
  have encloses : node.Encloses := by
    refine ⟨?_, isSpan ▸ exprs⟩
    rw [isParts]
    exact List.forall_mem_cons.mpr ⟨Span.contains_self _, contains⟩
  have here : Within p middle (node :: inside) :=
    List.forall_mem_cons.mpr ⟨⟨isSpan ▸ Span.contains_self _, encloses⟩, within⟩
  rw [partsOfList, isParts]
  exact here.append others exprs.1.le ordered

end Within

mutual

/-- Nodes without a gap enclose what is inside of them. -/
theorem Tiles.within (short : source.size < 2 ^ 32 - 1) : {start stop : Nat} →
    {nodes : List Node} → Tiles source start stop nodes →
    Within (source.position start) (source.position stop) (partsOfList nodes)
  | _, _, _, .nil => within_nil
  | _, _, _, .text here rest =>
      within_cons rfl (Source.span_of_le (Nat.le_add_right _ _)) within_nil
        (Expr.stand_nil (Source.position_le_of_cut? short here)) (rest.within short) (rest.le short)
  | _, _, _, .interpolation _ _ holds rest =>
      within_cons rfl (source.tagSpan_eq _) within_nil holds (rest.within short) (rest.le short)
  | _, _, _, .comment isPiece _ rest =>
      within_cons rfl (source.tagSpan_eq _) within_nil
        (Expr.stand_nil (Source.position_tag_le short isPiece)) (rest.within short) (rest.le short)
  | _, _, _, .loop opens closes holds body rest => by
      have behind := Source.position_tag_le short closes.isPiece
      exact within_cons rfl rfl
        ((body.within short).mono (Source.position_tag_le short opens.isPiece) behind)
        ((holds.append (body.stand short)).mono (le_refl _) behind) (rest.within short)
        (rest.le short)
  | _, _, _, .choice opens closes branches rest => by
      have behind := Source.position_tag_le short closes.isPiece
      exact within_cons rfl rfl
        ((branches.within short).mono (Source.position_tag_le short opens.isPiece) behind)
        ((branches.stand short).mono (le_refl _) behind) (rest.within short) (rest.le short)

/-- And so do those of branches. -/
theorem BranchTiles.within (short : source.size < 2 ^ 32 - 1) : {tag : Tag} → {stop : Nat} →
    {branches : List (Expr × List Node)} → {otherwise : Option (List Node)} →
    BranchTiles source tag stop branches otherwise →
    Within (source.position tag.stop) (source.position stop)
      (partsOfBranches branches ++ partsOfElse otherwise)
  | _, _, _, _, .only _ body => by
      simpa [partsOfBranches, partsOfElse] using body.within short
  | _, _, _, _, .elseIf _ body isTag rest => by
      have passes := Source.position_tag_le short isTag.isPiece
      have all := (body.within short).append ((rest.within short).mono passes (le_refl _))
        (body.le short) (passes.trans (rest.le short))
      simpa [partsOfBranches] using all
  | _, _, _, _, .otherwise _ body isTag last => by
      have passes := Source.position_tag_le short isTag.isPiece
      have all := (body.within short).append ((last.within short).mono passes (le_refl _))
        (body.le short) (passes.trans (last.le short))
      simpa [partsOfBranches, partsOfElse] using all

end

end Node

end TextTemplate
