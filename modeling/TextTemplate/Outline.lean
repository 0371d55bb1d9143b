import TextTemplate.Statement

/-! # Outlines

The pieces of a template grouped into its outermost blocks and what lies between them. The inside
of a block stays a list of pieces, to be outlined in turn. Inside an open block, closers of the
other kind are passed over here; they are found to be out of place when the inside is read. -/

namespace TextTemplate

/-- A block that is open: its kind and the tag that opened it. -/
structure OpenBlock where
  kind : BlockKind
  opener : Tag
  deriving DecidableEq

/-- The inside of a block and the tag that closes it. -/
structure Inside where
  pieces : List Piece
  closer : Tag
  deriving DecidableEq

/-- A part of an outline. -/
inductive OutlineItem where
  /-- A piece that belongs to no block. -/
  | piece (piece : Piece)
  /-- An outermost block, or what is wrong with the tags inside it. -/
  | block (block : OpenBlock) (inside : Except (Located Cause) Inside)

namespace OpenBlock

/-- The opener that is reported when the text ends inside open blocks, the innermost one first: the
outermost of those that are of the innermost block's kind, up to the first block of the other
kind. -/
def unclosed (innermost : OpenBlock) : List OpenBlock → OpenBlock
  | [] => innermost
  | next :: outer => if next.kind = innermost.kind then unclosed next outer else innermost

/-- The blocks that are open after a tag inside an open block. -/
def after (tag : Tag) (blocks : List OpenBlock) : List OpenBlock :=
  match tag.keyword? with
  | some (.opens kind) => ⟨kind, tag⟩ :: blocks
  | some (.closes kind) =>
      match blocks with
      | block :: outer => if block.kind = kind then outer else block :: outer
      | [] => []
  | _ => blocks

end OpenBlock

/-- A cause at a tag. -/
def Tag.fault (tag : Tag) (cause : Cause) : Located Cause := ⟨cause, tag.start, tag.stop⟩

/-- A tag whose closer is missing. -/
def TagKind.unclosedFault (kind : TagKind) (start : Nat) : Located Cause :=
  ⟨.unclosedTag kind, start, start + 2⟩

namespace OutlineItem

/-- What one more piece makes of an outermost block. -/
inductive Growth where
  /-- The block stays open, with these blocks open inside it. -/
  | grows (nested : List OpenBlock)
  /-- The piece closes the block. -/
  | closes (closer : Tag)
  /-- The piece cannot stand in the block. -/
  | fails (fault : Located Cause)

/-- What a piece makes of a block with open blocks inside it. At most `room` blocks may lie inside
each other; `limit` is the number that a message shows. -/
def grow (limit room : Nat) (block : OpenBlock) (nested : List OpenBlock) : Piece → Growth
  | .text _ _ => .grows nested
  | .unclosed kind start => .fails (kind.unclosedFault start)
  | .tag tag =>
      -- A closer of the other kind closes nothing here.
      if nested.isEmpty ∧ tag.keyword? = some (.closes block.kind) then .closes tag
      else
        let nested' := OpenBlock.after tag nested
        -- Only a tag that opens a block can make them too many; the outermost one counts as well.
        if nested.length < nested'.length ∧ room < nested'.length + 1 then
          .fails (tag.fault (.blocksTooDeep limit))
        else .grows nested'

mutual

/-- The outline of pieces outside of any block. -/
def outline (limit room : Nat) : List Piece → List OutlineItem
  | [] => []
  | .tag tag :: rest =>
      match tag.keyword? with
      | some (.opens kind) => outlineInside limit room ⟨kind, tag⟩ [] [] rest
      | _ => .piece (.tag tag) :: outline limit room rest
  | other :: rest => .piece other :: outline limit room rest

/-- The outline of pieces inside an outermost block: `pieces` are those of the inside so far, the
last one first, and `nested` are the blocks open inside, the innermost one first. -/
def outlineInside (limit room : Nat) (block : OpenBlock) (nested : List OpenBlock)
    (pieces : List Piece) : List Piece → List OutlineItem
  | [] =>
      let reported := match nested with
        | innermost :: outer => innermost.unclosed (outer ++ [block])
        | [] => block
      [.block block (.error (reported.opener.fault (.missingCloser reported.kind)))]
  | next :: rest =>
      match grow limit room block nested next with
      | .fails fault => [.block block (.error fault)]
      | .closes closer => .block block (.ok ⟨pieces.reverse, closer⟩) :: outline limit room rest
      | .grows nested => outlineInside limit room block nested (next :: pieces) rest

end

end OutlineItem

/-! ### Branches -/

/-- A tag that starts a branch, and the pieces of the branch. -/
structure Branch where
  tag : Tag
  pieces : List Piece
  deriving DecidableEq

/-- The inside of a choice cut at the tags that start its branches: the pieces before the first of
them, and the branches. `nested` are the blocks open at the start, which keep such tags for
themselves. -/
def Branch.divide (nested : List OpenBlock) : List Piece → List Piece × List Branch
  | [] => ([], [])
  | piece :: rest =>
      match piece with
      | .tag tag =>
          -- A tag that starts a branch opens and closes nothing, so `nested` is the same behind it.
          let (pieces, branches) := divide (OpenBlock.after tag nested) rest
          if nested.isEmpty ∧ (tag.keyword? = some .elseIf ∨ tag.keyword? = some .otherwise) then
            ([], ⟨tag, pieces⟩ :: branches)
          else (piece :: pieces, branches)
      | _ =>
          let (pieces, branches) := divide nested rest
          (piece :: pieces, branches)

end TextTemplate
