import TextTemplate.Proofs.Node.Passed
import TextTemplate.Proofs.Node.Tiles
import TextTemplate.Proofs.Source.Marked

/-! # Where the parts of outlines come from

An outline is made of the pieces that it is given and of nothing else: the openers and closers of its
blocks are tags among them, the insides are some of them, and what is wrong with the tags inside a
block is found at one of them. -/

namespace TextTemplate

open OutlineItem

variable {source : Source} {tag : Tag} {kind : TagKind} {start : Nat}

/-! ### Pieces -/

/-- The opener of a tag that is not closed stands where it is written. -/
theorem Piece.cut?_unclosed {offset : Nat} {text : List Char}
    (here : cut? source.text offset source.size = some text)
    (isPiece : .unclosed kind start ∈ scan offset 0 text) :
    cut? source.text start (start + 2) = some kind.opener := by
  obtain ⟨_, _, _, there, scans, -⟩ := exists_rest here isPiece
  cases scans with
  | unclosed =>
      have opener := cut?_left kind.opener there
      rwa [TagKind.byteLength_opener] at opener

namespace Source

/-- A tag that is not closed is reported at its opener. -/
theorem lies_unclosed (isPiece : .unclosed kind start ∈ source.pieces) :
    (kind.unclosedFault start).LiesIn source :=
  ⟨kind.opener, Piece.cut?_unclosed (cut?_whole source.text) isPiece⟩

/-- What is wrong with a tag is reported at the whole of it. -/
theorem lies_tag (isPiece : .tag tag ∈ source.pieces) (cause : Cause) :
    (tag.fault cause).LiesIn source := ⟨_, cut?_tag isPiece⟩

/-- The span of a tag is marked. -/
theorem marks_tagSpan (isPiece : .tag tag ∈ source.pieces) : source.Marks (source.tagSpan tag) :=
  marks_of_cut? (cut?_tag isPiece)

end Source

/-! ### Blocks -/

/-- Whether blocks are opened by tags of a source. -/
def OpenBlock.AreFrom (source : Source) (blocks : List OpenBlock) : Prop :=
  ∀ block ∈ blocks, .tag block.opener ∈ source.pieces

/-- Whether the inside of a block and its closer are pieces of a source. -/
structure Inside.IsFrom (source : Source) (inside : Inside) : Prop where
  pieces : inside.pieces ⊆ source.pieces
  closer : .tag inside.closer ∈ source.pieces

namespace OpenBlock

variable {blocks : List OpenBlock}

/-- A tag of a source opens a block of it at most. -/
theorem AreFrom.after (areFrom : AreFrom source blocks) (isPiece : .tag tag ∈ source.pieces) :
    AreFrom source (after tag blocks) := by
  rw [OpenBlock.after]
  split
  next kind _ => exact List.forall_mem_cons.mpr ⟨isPiece, areFrom⟩
  next =>
    split
    next block outer =>
      split
      next => exact fun inner isInner => areFrom inner (.tail _ isInner)
      next => exact areFrom
    next => exact areFrom
  next => exact areFrom

/-- The block that is reported as not closed is one of the open ones. -/
theorem unclosed_mem (innermost : OpenBlock) (outer : List OpenBlock) :
    innermost.unclosed outer ∈ innermost :: outer := by
  induction outer generalizing innermost with
  | nil => exact .head _
  | cons next outer ih =>
      rw [unclosed]
      split
      next => exact .tail _ (ih next)
      next => exact .head _

end OpenBlock

namespace OutlineItem

variable {limit room : Nat} {block : OpenBlock} {nested : List OpenBlock} {next : Piece}
  {pieces : List Piece}

/-- The opener that is reported is one of those that are open. -/
theorem reported_mem (block : OpenBlock) (nested : List OpenBlock) :
    reported block nested ∈ nested ++ [block] := by
  cases nested with
  | nil => exact .head _
  | cons innermost outer => exact innermost.unclosed_mem (outer ++ [block])

/-- Whether what a piece makes of a block leaves tags of a source open, or is found to be wrong at
one of them. -/
def Growth.IsFrom (source : Source) : Growth → Prop
  | .grows nested => OpenBlock.AreFrom source nested
  | .closes _ => True
  | .fails fault => fault.LiesIn source

/-- What a piece makes of the open blocks comes from the source when both do. -/
theorem isFrom_grow (areFrom : OpenBlock.AreFrom source nested) (isPiece : next ∈ source.pieces) :
    (grow limit room block nested next).IsFrom source := by
  cases next with
  | text content start => exact areFrom
  | unclosed kind start => exact Source.lies_unclosed isPiece
  | tag tag =>
      rw [grow]
      split
      next => exact trivial
      next =>
        dsimp only
        split
        next => exact Source.lies_tag isPiece _
        next => exact areFrom.after isPiece

/-- What is wrong with the tags inside a block is found at a tag of the source. -/
theorem finds_passOver (isOpener : .tag block.opener ∈ source.pieces)
    (areFrom : OpenBlock.AreFrom source nested) (arePieces : pieces ⊆ source.pieces) :
    source.Finds (passOver limit room block nested pieces) := by
  induction pieces generalizing nested with
  | nil =>
      have isTag : .tag (reported block nested).opener ∈ source.pieces := by
        rcases List.mem_append.mp (reported_mem block nested) with isNested | isBlock
        · exact areFrom _ isNested
        · rwa [List.mem_singleton.mp isBlock]
      exact Source.finds_error (Source.lies_tag isTag _)
  | cons next rest ih =>
      obtain ⟨isPiece, arePieces⟩ := List.cons_subset.mp arePieces
      have grown : (grow limit room block nested next).IsFrom source := isFrom_grow areFrom isPiece
      rw [passOver]
      generalize grow limit room block nested next = growth at grown
      cases growth with
      | fails fault => exact Source.finds_error grown
      | closes closer => exact Source.finds_ok _
      | grows nested => exact (ih grown arePieces).map _

/-! ### Outlines -/

/-- Whether an item of an outline is made of pieces of a source. -/
def IsFrom (source : Source) : OutlineItem → Prop
  | .piece single => single ∈ source.pieces
  | .block block inside => .tag block.opener ∈ source.pieces ∧ source.Finds inside ∧
      ∀ found, inside = .ok found → found.IsFrom source

/-- The outline of some pieces of a source is made of them. -/
theorem isFrom_outline (limit room : Nat) (arePieces : pieces ⊆ source.pieces) :
    ∀ item ∈ outline limit room pieces, item.IsFrom source := by
  induction isLength : pieces.length using Nat.strong_induction_on generalizing pieces with
  | _ length ih =>
  subst isLength
  cases pieces with
  | nil => exact nofun
  | cons piece rest =>
      obtain ⟨isPiece, areRest⟩ := List.cons_subset.mp arePieces
      by_cases opens : ∃ kind, piece.keyword? = some (.opens kind)
      · obtain ⟨kind, opens⟩ := opens
        cases piece with
        | text => cases opens
        | unclosed => cases opens
        | tag tag =>
            have finds : source.Finds (passOver limit room ⟨kind, tag⟩ [] rest) :=
              finds_passOver isPiece nofun areRest
            rw [outline_opens opens, outlineInside_eq]
            cases passes : passOver limit room ⟨kind, tag⟩ [] rest with
            | error fault =>
                have lies := finds fault passes
                exact List.forall_mem_singleton.mpr ⟨isPiece, Source.finds_error lies, nofun⟩
            | ok passed =>
                -- The inside, the closer and what is behind make up all pieces behind the opener.
                obtain ⟨isRest, -⟩ := pieces_of_passOver passes
                subst isRest
                obtain ⟨areInside, others⟩ := List.append_subset.mp areRest
                obtain ⟨isCloser, areBehind⟩ := List.cons_subset.mp others
                have shorter : passed.rest.length < (.tag tag :: passed.pieces).length := by
                  simp only [Passed.pieces, List.length_cons, List.length_append]
                  omega
                refine List.forall_mem_cons.mpr ⟨⟨isPiece, Source.finds_ok _, ?_⟩,
                  ih _ shorter areBehind rfl⟩
                intro found isFound
                cases isFound
                exact ⟨areInside, isCloser⟩
      · rw [outline_plain (not_exists.mp opens)]
        exact List.forall_mem_cons.mpr ⟨isPiece, ih _ (Nat.lt_succ_self _) areRest rfl⟩

end OutlineItem

end TextTemplate
