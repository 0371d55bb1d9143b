import TextTemplate.Proofs.Node.Events

/-! # Outlines and balanced pieces

Pieces in which every block is closed pass through an outline and through the division of a choice
without a trace: the blocks that are open after them are those before them. In the other direction,
an outline and a division only cut a list of pieces into parts. -/

namespace TextTemplate

/-! ### Walks -/

/-- The keyword of a piece. -/
def Piece.keyword? : Piece → Option Keyword
  | .tag found => found.keyword?
  | .text _ _ | .unclosed _ _ => none

/-- Whether a piece is not the opener of a tag that is not closed. -/
def Piece.IsClosed (piece : Piece) : Prop := ∀ kind start, piece ≠ .unclosed kind start

/-- Whether a keyword starts a branch. -/
def Keyword.IsBranch (keyword : Keyword) : Prop := keyword = .elseIf ∨ keyword = .otherwise

/-- Pieces that lead from open blocks to open blocks and close only blocks of their own kind. At
most `room` blocks are open besides the one around all of them. Tags that start branches stand
inside one of the blocks. -/
inductive Walk (room : Nat) : List OpenBlock → List Piece → List OpenBlock → Prop where
  | nil {nested : List OpenBlock} : Walk room nested [] nested
  | plain {nested last : List OpenBlock} {piece : Piece} {rest : List Piece} :
      piece.IsClosed → piece.keyword? = none → Walk room nested rest last →
      Walk room nested (piece :: rest) last
  | branch {block : OpenBlock} {nested last : List OpenBlock} {tag : Tag} {keyword : Keyword}
      {rest : List Piece} :
      tag.keyword? = some keyword → keyword.IsBranch → Walk room (block :: nested) rest last →
      Walk room (block :: nested) (.tag tag :: rest) last
  | opens {nested last : List OpenBlock} {tag : Tag} {kind : BlockKind} {rest : List Piece} :
      tag.keyword? = some (.opens kind) → nested.length + 2 ≤ room →
      Walk room (⟨kind, tag⟩ :: nested) rest last → Walk room nested (.tag tag :: rest) last
  | closes {block : OpenBlock} {nested last : List OpenBlock} {tag : Tag} {rest : List Piece} :
      tag.keyword? = some (.closes block.kind) → Walk room nested rest last →
      Walk room (block :: nested) (.tag tag :: rest) last

variable {limit room : Nat} {nested last : List OpenBlock} {pieces rest : List Piece}

/-- Walks follow each other. -/
theorem Walk.append {middle : List OpenBlock} (first : Walk room nested pieces middle)
    (second : Walk room middle rest last) : Walk room nested (pieces ++ rest) last := by
  induction first with
  | nil => exact second
  | plain isClosed plain _ ih => exact .plain isClosed plain (ih second)
  | branch keyword isBranch _ ih => exact .branch keyword isBranch (ih second)
  | opens keyword fits _ ih => exact .opens keyword fits (ih second)
  | closes keyword _ ih => exact .closes keyword (ih second)

/-! ### Outlines -/

namespace OutlineItem

/-- Outside of blocks, every piece but the opener of a block is an item of its own. -/
theorem outline_plain {piece : Piece} (plain : ∀ kind, piece.keyword? ≠ some (.opens kind)) :
    outline limit room (piece :: rest) = .piece piece :: outline limit room rest := by
  cases piece with
  | text => rfl
  | unclosed => rfl
  | tag tag =>
      rw [outline]
      split
      next kind opens => exact absurd opens (plain kind)
      next => rfl

/-- The opener of a block begins its inside. -/
theorem outline_opens {tag : Tag} {kind : BlockKind} (opens : tag.keyword? = some (.opens kind)) :
    outline limit room (.tag tag :: rest) = outlineInside limit room ⟨kind, tag⟩ [] [] rest := by
  simp [outline, opens]

/-- A tag that starts a branch stays in the block around it. -/
theorem grow_branch {block : OpenBlock} {tag : Tag} {keyword : Keyword}
    (isKeyword : tag.keyword? = some keyword) (isBranch : keyword.IsBranch) :
    grow limit room block nested (.tag tag) = .grows nested := by
  rcases isBranch with rfl | rfl <;> simp [grow, OpenBlock.after, isKeyword]

/-- The pieces of a walk inside a block stay in that block. -/
theorem outlineInside_walk {block : OpenBlock} {inside : List Piece}
    (walk : Walk room nested pieces last) :
    outlineInside limit room block nested inside (pieces ++ rest) =
      outlineInside limit room block last (pieces.reverse ++ inside) rest := by
  induction walk generalizing inside with
  | nil => rfl
  | @plain nested last piece _ isClosed plain _ ih =>
      have grows : grow limit room block nested piece = .grows nested := by
        cases piece with
        | text => rfl
        | unclosed kind start => exact absurd rfl (isClosed kind start)
        | tag tag =>
            rw [Piece.keyword?] at plain
            simp [grow, OpenBlock.after, plain]
      rw [List.cons_append, outlineInside, grows]
      simpa using ih
  | branch keyword isBranch _ ih =>
      rw [List.cons_append, outlineInside, grow_branch keyword isBranch]
      simpa using ih
  | @opens nested _ tag kind _ keyword fits _ ih =>
      have grows : grow limit room block nested (.tag tag) = .grows (⟨kind, tag⟩ :: nested) := by
        -- The walk never has more blocks open than there is room for.
        have notDeep : ¬room < nested.length + 1 + 1 := by omega
        simp [grow, OpenBlock.after, keyword, notDeep]
      rw [List.cons_append, outlineInside, grows]
      simpa using ih
  | @closes innermost nested _ tag _ keyword _ ih =>
      have grows : grow limit room block (innermost :: nested) (.tag tag) = .grows nested := by
        have shorter : ¬nested.length + 1 < nested.length := by omega
        simp [grow, OpenBlock.after, keyword, shorter]
      rw [List.cons_append, outlineInside, grows]
      simpa using ih

/-- The closer of the outermost block ends its inside. -/
theorem outlineInside_closer {block : OpenBlock} {inside : List Piece} {closer : Tag}
    (closes : closer.keyword? = some (.closes block.kind)) :
    outlineInside limit room block [] inside (.tag closer :: rest) =
      .block block (.ok ⟨inside.reverse, closer⟩) :: outline limit room rest := by
  simp [outlineInside, grow, closes]

/-- Only a tag of the block's own kind closes it. -/
theorem grow_eq_closes {block : OpenBlock} {next : Piece} {closer : Tag}
    (grown : grow limit room block nested next = .closes closer) :
    next = .tag closer ∧ closer.keyword? = some (.closes block.kind) := by
  cases next with
  | text => cases grown
  | unclosed => cases grown
  | tag tag =>
      simp only [grow] at grown
      split at grown
      next closes =>
        cases grown
        exact ⟨rfl, closes.2⟩
      next => split at grown <;> cases grown

/-- The outline of what is inside a block finds a fault in it, or cuts the pieces at its closer. -/
theorem outlineInside_cases (limit room : Nat) (block : OpenBlock) (nested : List OpenBlock)
    (before pieces : List Piece) :
    (∃ fault, outlineInside limit room block nested before pieces = [.block block (.error fault)]) ∨
      ∃ inside closer after, pieces = inside ++ .tag closer :: after ∧
        closer.keyword? = some (.closes block.kind) ∧
        outlineInside limit room block nested before pieces =
          .block block (.ok ⟨before.reverse ++ inside, closer⟩) :: outline limit room after := by
  -- The pieces passed so far pile up in reverse: the induction is for every such pile, and for any
  -- list of open blocks.
  induction pieces generalizing nested before with
  | nil => cases nested <;> exact .inl ⟨_, rfl⟩
  | cons next rest ih =>
      rw [outlineInside]
      cases grown : grow limit room block nested next with
      | fails fault => exact .inl ⟨fault, rfl⟩
      | closes closer =>
          obtain ⟨rfl, closes⟩ := grow_eq_closes grown
          exact .inr ⟨[], closer, rest, rfl, closes, by simp⟩
      | grows nested =>
          rcases ih nested (next :: before) with fails | ⟨inside, closer, after, rfl, closes, cut⟩
          · exact .inl fails
          · exact .inr ⟨next :: inside, closer, after, rfl, closes, by simpa using cut⟩

end OutlineItem

/-! ### Division -/

namespace Branch

/-- The pieces of a walk inside a choice stay in the branch that they stand in. -/
theorem divide_walk (rest : List Piece) (walk : Walk room nested pieces last) :
    divide nested (pieces ++ rest) =
      (pieces ++ (divide last rest).1, (divide last rest).2) := by
  induction walk with
  | nil => rfl
  | @plain nested last piece _ isClosed plain _ ih =>
      cases piece with
      | text => simp [divide, ih]
      | unclosed kind start => exact absurd rfl (isClosed kind start)
      | tag tag =>
          rw [Piece.keyword?] at plain
          simp [divide, OpenBlock.after, plain, ih]
  | @branch block nested _ tag keyword _ isKeyword isBranch _ ih =>
      rcases isBranch with rfl | rfl <;> simp [divide, OpenBlock.after, isKeyword, ih]
  | opens keyword _ _ ih => simp [divide, OpenBlock.after, keyword, ih]
  | closes keyword _ ih => simp [divide, OpenBlock.after, keyword, ih]

/-- A tag of the choice itself starts a branch. -/
theorem divide_branch {tag : Tag} {keyword : Keyword} (isKeyword : tag.keyword? = some keyword)
    (isBranch : keyword.IsBranch) :
    divide [] (.tag tag :: rest) = ([], ⟨tag, (divide [] rest).1⟩ :: (divide [] rest).2) := by
  rcases isBranch with rfl | rfl <;> simp [divide, OpenBlock.after, isKeyword]

/-- A branch with its tag. -/
def whole (branch : Branch) : List Piece := .tag branch.tag :: branch.pieces

/-- A division only cuts: the pieces before the first branch, and each branch behind its tag. -/
theorem divide_whole (nested : List OpenBlock) (pieces : List Piece) :
    pieces = (divide nested pieces).1 ++ (divide nested pieces).2.flatMap whole ∧
      ∀ branch ∈ (divide nested pieces).2, branch.tag.keyword? = some .elseIf ∨
        branch.tag.keyword? = some .otherwise := by
  induction pieces generalizing nested with
  | nil => simp [divide]
  | cons piece rest ih =>
      cases piece with
      | tag tag =>
          obtain ⟨cut, branches⟩ := ih (OpenBlock.after tag nested)
          -- A branch starts only at a tag of the choice itself: the blocks open inside keep theirs.
          by_cases starts : nested.isEmpty ∧
              (tag.keyword? = some .elseIf ∨ tag.keyword? = some .otherwise)
          · simp only [divide, if_pos starts, List.flatMap_cons, whole, List.nil_append]
            refine ⟨by rw [List.cons_append, ← cut], fun branch isBranch => ?_⟩
            rcases List.mem_cons.mp isBranch with rfl | later
            · exact starts.2
            · exact branches branch later
          · simp only [divide, if_neg starts]
            exact ⟨by rw [List.cons_append, ← cut], branches⟩
      | text content start =>
          obtain ⟨cut, branches⟩ := ih nested
          simp only [divide]
          exact ⟨by rw [List.cons_append, ← cut], branches⟩
      | unclosed kind start =>
          obtain ⟨cut, branches⟩ := ih nested
          simp only [divide]
          exact ⟨by rw [List.cons_append, ← cut], branches⟩

end Branch

end TextTemplate
