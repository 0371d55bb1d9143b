import TextTemplate.Node.Parser
import TextTemplate.Proofs.Checked.Statements
import TextTemplate.Proofs.Expr.Faults
import TextTemplate.Proofs.Node.Origins
import TextTemplate.Proofs.Token.Faults

/-! # Where faults of templates are found

What is wrong with an expression is found inside of its tag, and everything else at a tag as a whole
or at the opener of one that is not closed. All tags are tags of the source, however deep the blocks
are that they stand in, so every fault has a marked span. -/

namespace TextTemplate

variable {source : Source} {limits : Limits} {tag opener : Tag} {part : List Char} {start : Nat}

/-- The inner text of a tag is written between its opener and its closer. -/
theorem Source.cut?_inner (isPiece : .tag tag ∈ source.pieces) :
    cut? source.text tag.innerStart tag.innerStop = some tag.inner := by
  have behind := cut?_right tag.kind.opener (cut?_tag isPiece)
  rw [TagKind.byteLength_opener] at behind
  exact cut?_left tag.inner behind

namespace Node.Parser

variable {α : Type} {inside : Except (Located Cause) Inside} {branch : Branch}
  {branches : List Branch} {readBody : ReadBody}

/-! ### Expressions -/

/-- A fault that is found at a marked place is located there. -/
theorem locates_locate {step : Except (Located Cause) α} {good : α → Prop}
    (finds : source.Finds step) (isGood : ∀ value, step = .ok value → good value) :
    source.Locates good (locate source step) := by
  cases step with
  | ok value => exact isGood value rfl
  | error fault => exact (finds fault rfl).marks

/-- The fault of an expression in a tag is found in it, or at the tag. -/
theorem locates_expression (short : source.size < 2 ^ 32 - 1) (isPiece : .tag tag ∈ source.pieces)
    (here : cut? source.text start (start + byteLength part) = some part) :
    source.Locates (fun _ => True) (expression source limits tag part start) :=
  (Token.locates_lex here).bind fun _ marked =>
    Expr.locates_ofTokens short (Source.marks_tagSpan isPiece) marked

/-- The fault of what a statement says is found in it, or at the tag. -/
theorem locates_arguments (short : source.size < 2 ^ 32 - 1)
    (isPiece : .tag tag ∈ source.pieces) :
    source.Locates (fun _ => True)
      (expression source limits tag tag.statement.arguments tag.statement.start) :=
  locates_expression short isPiece (Checked.statement_eq (Source.cut?_inner isPiece)).2

/-- What a tag lacks is reported at the tag. -/
theorem locates_require (isPiece : .tag tag ∈ source.pieces) (condition : Bool) (cause : Cause) :
    source.Locates (fun _ => True) (require source condition tag cause) := by
  rw [require]
  split
  next => exact trivial
  next => exact Source.marks_tagSpan isPiece

/-! ### Pieces outside of blocks -/

/-- The fault of a piece outside of blocks is marked. -/
theorem locates_readPiece {piece : Piece} (short : source.size < 2 ^ 32 - 1)
    (isPiece : piece ∈ source.pieces) :
    source.Locates (fun _ => True) (readPiece source limits piece) := by
  cases piece with
  | text content start => exact trivial
  | unclosed kind start => exact (Source.lies_unclosed isPiece).marks
  | tag tag =>
      rw [readPiece]
      split
      next =>
        have inner := Source.cut?_inner isPiece
        exact (locates_expression short isPiece inner).bind fun _ _ => trivial
      next => exact trivial
      next => exact Source.marks_tagSpan isPiece

/-! ### Blocks -/

/-- Whether the fault of reading any pieces of a source is marked. -/
def LocatesBodies (source : Source) (readBody : ReadBody) : Prop :=
  ∀ pieces, pieces ⊆ source.pieces → source.Locates (fun _ => True) (readBody pieces)

/-- A closer with something after its word is reported at the closer. -/
theorem locates_closedInside (kind : BlockKind) (finds : source.Finds inside)
    (isFrom : ∀ found, inside = .ok found → found.IsFrom source) :
    source.Locates (Inside.IsFrom source) (closedInside source kind inside) := by
  refine (locates_locate finds isFrom).bind fun found isFrom => ?_
  exact (locates_require isFrom.closer _ _).bind fun _ _ => isFrom

/-- A loop has a fault in its header, at its closer, in its source or in its body. -/
theorem locates_readLoop (short : source.size < 2 ^ 32 - 1)
    (bodies : LocatesBodies source readBody) (isPiece : .tag opener ∈ source.pieces)
    (finds : source.Finds inside) (isFrom : ∀ found, inside = .ok found → found.IsFrom source) :
    source.Locates (fun _ => True) (readLoop source limits readBody opener inside) := by
  have header : source.Locates
      (fun header => LoopHeader.ofStatement opener.statement opener.inner = .ok header)
      (locate source
        ((LoopHeader.ofStatement opener.statement opener.inner).mapError opener.fault)) := by
    cases LoopHeader.ofStatement opener.statement opener.inner with
    | ok header => rfl
    | error cause => exact Source.marks_tagSpan isPiece
  refine header.bind fun header isHeader => ?_
  refine (locates_closedInside .loop finds isFrom).bind fun found isFrom => ?_
  have arguments := (Checked.statement_eq (Source.cut?_inner isPiece)).2
  have entries := Checked.cut?_header arguments isHeader
  refine (locates_expression short isPiece entries).bind fun entries _ => ?_
  exact (bodies _ isFrom.pieces).bind fun _ _ => trivial

/-- Branches out of order are reported at their tags. -/
theorem locates_checkBranches (hasElse : Bool)
    (areTags : ∀ branch ∈ branches, .tag branch.tag ∈ source.pieces) :
    source.Locates (fun _ => True) (checkBranches source hasElse branches) := by
  induction branches generalizing hasElse with
  | nil => exact trivial
  | cons branch rest ih =>
      obtain ⟨isTag, areTags⟩ := List.forall_mem_cons.mp areTags
      rw [checkBranches]
      split
      next =>
        refine (locates_require isTag _ _).bind fun _ _ => ?_
        exact (locates_require isTag _ _).bind fun _ _ => ih hasElse areTags
      next =>
        refine (locates_require isTag _ _).bind fun _ _ => ?_
        exact (locates_require isTag _ _).bind fun _ _ => ih true areTags

/-- The fault of a branch is that of its body or of its condition. -/
theorem locates_readBranch (short : source.size < 2 ^ 32 - 1)
    (bodies : LocatesBodies source readBody) (areFrom : branch.whole ⊆ source.pieces) :
    source.Locates (fun _ => True) (readBranch source limits readBody branch) := by
  obtain ⟨isTag, arePieces⟩ := List.cons_subset.mp areFrom
  refine (bodies _ arePieces).bind fun body _ => ?_
  exact (locates_arguments short isTag).bind fun _ _ => trivial

/-- The first fault among branches is marked. -/
theorem locates_readBranches (short : source.size < 2 ^ 32 - 1)
    (bodies : LocatesBodies source readBody)
    (areFrom : ∀ branch ∈ branches, branch.whole ⊆ source.pieces) :
    source.Locates (fun _ => True) (readBranches source limits readBody branches) := by
  induction branches with
  | nil => exact trivial
  | cons branch rest ih =>
      obtain ⟨here, there⟩ := List.forall_mem_cons.mp areFrom
      rw [readBranches]
      split
      next => exact (bodies _ (List.cons_subset.mp here).2).bind fun _ _ => trivial
      next =>
        refine (locates_readBranch short bodies here).bind fun first _ => ?_
        exact (ih there).bind fun _ _ => trivial

/-- A choice has a fault at its opener or its closer, at the tag of one of its branches, or in one
of them. -/
theorem locates_readChoice (short : source.size < 2 ^ 32 - 1)
    (bodies : LocatesBodies source readBody) (isPiece : .tag opener ∈ source.pieces)
    (finds : source.Finds inside) (isFrom : ∀ found, inside = .ok found → found.IsFrom source) :
    source.Locates (fun _ => True) (readChoice source limits readBody opener inside) := by
  refine (locates_require isPiece _ _).bind fun _ _ => ?_
  refine (locates_closedInside .choice finds isFrom).bind fun found isFrom => ?_
  -- The branches are cut out of the inside, so that their pieces are some of the source too.
  have cut := (Branch.divide_whole [] found.pieces).1
  generalize Branch.divide [] found.pieces = divided at cut
  obtain ⟨pieces, branches⟩ := divided
  obtain ⟨areFirst, areOthers⟩ := List.append_subset.mp (cut ▸ isFrom.pieces)
  have areFrom : ∀ branch ∈ branches, branch.whole ⊆ source.pieces :=
    fun branch isBranch piece isPiece =>
      areOthers (List.mem_flatMap_of_mem isBranch isPiece)
  have first : (⟨opener, pieces⟩ : Branch).whole ⊆ source.pieces :=
    List.cons_subset.mpr ⟨isPiece, areFirst⟩
  have areTags (branch : Branch) (isBranch : branch ∈ branches) :=
    (List.cons_subset.mp (areFrom branch isBranch)).1
  refine (locates_checkBranches false areTags).bind fun _ _ => ?_
  refine (locates_readBranches short bodies (List.forall_mem_cons.mpr ⟨first, areFrom⟩)).bind ?_
  exact fun _ _ => trivial

/-! ### Nodes -/

/-- The fault of an item is marked, whether it is a piece or a block. -/
theorem locates_readItem {item : OutlineItem} {readBody? : Option ReadBody}
    (short : source.size < 2 ^ 32 - 1)
    (bodies : ∀ readBody ∈ readBody?, LocatesBodies source readBody)
    (isFrom : item.IsFrom source) :
    source.Locates (fun _ => True) (readItem source limits readBody? item) := by
  cases item with
  | piece piece => exact locates_readPiece short isFrom
  | block block inside =>
      obtain ⟨isOpener, finds, isFrom⟩ := isFrom
      cases readBody? with
      | none => exact Source.marks_tagSpan isOpener
      | some readBody =>
          have bodies := bodies readBody rfl
          rw [readItem]
          split
          next => exact locates_readLoop short bodies isOpener finds isFrom
          next => exact locates_readChoice short bodies isOpener finds isFrom

/-- The first fault among the items of an outline is marked. -/
theorem locates_items {readBody? : Option ReadBody} (short : source.size < 2 ^ 32 - 1)
    (bodies : ∀ readBody ∈ readBody?, LocatesBodies source readBody) (limit room : Nat)
    {pieces : List Piece} (arePieces : pieces ⊆ source.pieces) :
    source.Locates (fun _ => True)
      ((OutlineItem.outline limit room pieces).mapM (readItem source limits readBody?)) := by
  have items := OutlineItem.isFrom_outline limit room arePieces
  have each : ∀ item ∈ OutlineItem.outline limit room pieces,
      source.Locates (fun _ => True) (readItem source limits readBody? item) :=
    fun item isItem => locates_readItem short bodies (items item isItem)
  exact (Source.locates_mapM each).imp fun _ _ => trivial

/-- The fault of reading pieces of a short source is marked, whatever number of blocks may lie
inside each other. -/
theorem locates_read (short : source.size < 2 ^ 32 - 1) (room : Nat) :
    LocatesBodies source (read source limits room) := by
  induction room with
  | zero =>
      intro pieces arePieces
      have none : ∀ readBody ∈ (none : Option ReadBody), LocatesBodies source readBody := nofun
      exact locates_items short none limits.maxBlockDepth 0 arePieces
  | succ room ih =>
      intro pieces arePieces
      have bodies : ∀ readBody ∈ some (read source limits room), LocatesBodies source readBody := by
        rintro readBody ⟨⟩
        exact ih
      exact locates_items short bodies limits.maxBlockDepth (room + 1) arePieces

end Node.Parser

/-- The fault of a short source that cannot be read is marked in it. -/
theorem Source.locates_nodes (short : source.size < 2 ^ 32 - 1) :
    source.Locates (fun _ => True) (source.nodes limits) :=
  Node.Parser.locates_read short limits.maxBlockDepth source.pieces (List.Subset.refl _)

end TextTemplate
