import TextTemplate.Proofs.Node.Outlines
import TextTemplate.Proofs.Outcome

/-! # Passing over blocks

The pieces from an open block on, up to the tag that closes it. An outline passes over the pieces of
a block with one list of all blocks that are open inside; passing over a block inside another first
and going on behind its closer comes to the same. -/

namespace TextTemplate

/-- What is passed over of an open block: its inside, its closer, and the pieces behind. -/
structure Passed where
  inside : List Piece
  closer : Tag
  rest : List Piece

namespace Passed

/-- The inside with its closer. -/
def block (passed : Passed) : Inside := ⟨passed.inside, passed.closer⟩

/-- All pieces. -/
def pieces (passed : Passed) : List Piece := passed.inside ++ .tag passed.closer :: passed.rest

/-- What is passed over with more pieces in front. -/
def behind (pieces : List Piece) (passed : Passed) : Passed :=
  { passed with inside := pieces ++ passed.inside }

end Passed

namespace OutlineItem

/-- The opener that is reported when the text ends inside an open block. -/
def reported (block : OpenBlock) : List OpenBlock → OpenBlock
  | innermost :: outer => innermost.unclosed (outer ++ [block])
  | [] => block

/-- What is passed over from inside an open block on; `nested` are the blocks open inside it, the
innermost one first. -/
def passOver (limit room : Nat) (block : OpenBlock) (nested : List OpenBlock) :
    List Piece → Except (Located Cause) Passed
  | [] =>
      let opened := reported block nested
      .error (opened.opener.fault (.missingCloser opened.kind))
  | next :: rest =>
      match grow limit room block nested next with
      | .fails fault => .error fault
      | .closes closer => .ok ⟨[], closer, rest⟩
      | .grows nested => (passOver limit room block nested rest).map (.behind [next])

variable {limit room : Nat} {block outermost : OpenBlock} {nested outer : List OpenBlock}
  {pieces rest : List Piece} {passed : Passed}

/-- An outline passes over its blocks. -/
theorem outlineInside_eq (limit room : Nat) (block : OpenBlock) (nested : List OpenBlock)
    (before pieces : List Piece) :
    outlineInside limit room block nested before pieces =
      match passOver limit room block nested pieces with
      | .error fault => [.block block (.error fault)]
      | .ok passed =>
          .block block (.ok (passed.behind before.reverse).block) ::
            outline limit room passed.rest := by
  induction pieces generalizing nested before with
  | nil => cases nested <;> rfl
  | cons next rest ih =>
      rw [outlineInside, passOver]
      cases grow limit room block nested next with
      | fails fault => rfl
      | closes closer => simp [Passed.behind, Passed.block]
      | grows nested =>
          simp only [ih]
          cases passOver limit room block nested rest with
          | error fault => rfl
          | ok passed => simp [Except.map, Passed.behind, Passed.block]

/-- A piece that stays in the block is passed over before the rest. -/
theorem passOver_grows {next : Piece} {nested' : List OpenBlock}
    (grown : grow limit room block nested next = .grows nested') :
    passOver limit room block nested (next :: rest) =
      (passOver limit room block nested' rest).map (.behind [next]) := by
  rw [passOver, grown]

/-- Among blocks of one kind the outermost one is reported. -/
theorem reported_alike (alike : ∀ inner ∈ nested, inner.kind = block.kind) :
    reported block nested = block := by
  cases nested with
  | nil => rfl
  | cons innermost outer =>
      rw [reported]
      induction outer generalizing innermost with
      | nil =>
          rw [List.nil_append, OpenBlock.unclosed, if_pos (alike _ (.head _)).symm]
          rfl
      | cons next outer ih =>
          obtain ⟨first, alike⟩ := List.forall_mem_cons.mp alike
          have second := alike next (.head _)
          rw [List.cons_append, OpenBlock.unclosed, if_pos (second.trans first.symm), ih]
          exact alike

/-- What is passed over are all pieces up to the closer of the block. -/
theorem pieces_of_passOver (passes : passOver limit room block nested pieces = .ok passed) :
    pieces = passed.pieces ∧ passed.closer.keyword? = some (.closes block.kind) := by
  induction pieces generalizing nested passed with
  | nil => cases passes
  | cons next rest ih =>
      rw [passOver] at passes
      cases grown : grow limit room block nested next with
      | fails fault =>
          rw [grown] at passes
          cases passes
      | closes closer =>
          obtain ⟨rfl, closes⟩ := grow_eq_closes grown
          rw [grown] at passes
          cases passes
          exact ⟨rfl, closes⟩
      | grows nested =>
          rw [grown] at passes
          obtain ⟨others, tail, rfl⟩ := map_eq_ok_iff.mp passes
          obtain ⟨isRest, closes⟩ := ih tail
          exact ⟨by rw [isRest]; rfl, closes⟩

/-! ### What tags do -/

section Tags

variable {tag : Tag} {kind : BlockKind}

/-- An opener opens a block, if there is room for it. -/
theorem grow_opens (opens : tag.keyword? = some (.opens kind)) :
    grow limit room block nested (.tag tag) =
      if room < nested.length + 2 then .fails (tag.fault (.blocksTooDeep limit))
      else .grows (⟨kind, tag⟩ :: nested) := by
  have noCloser : ¬(nested.isEmpty ∧ tag.keyword? = some (.closes block.kind)) := by simp [opens]
  have isAfter : OpenBlock.after tag nested = ⟨kind, tag⟩ :: nested := by
    simp [OpenBlock.after, opens]
  simp only [grow, if_neg noCloser, isAfter, List.length_cons, Nat.lt_succ_self, true_and]

/-- A closer closes the innermost block of its kind. -/
theorem grow_closes {innermost : OpenBlock}
    (closes : tag.keyword? = some (.closes innermost.kind)) :
    grow limit room block (innermost :: nested) (.tag tag) = .grows nested := by
  have shorter : ¬nested.length + 1 < nested.length := by omega
  simp [grow, OpenBlock.after, closes, shorter]

/-- With no block open inside it, the block itself is closed. -/
theorem grow_closer (closes : tag.keyword? = some (.closes block.kind)) :
    grow limit room block [] (.tag tag) = .closes tag := by
  simp [grow, closes]

/-- A closer of the other kind closes nothing. -/
theorem grow_other (closes : tag.keyword? = some (.closes kind))
    (other : kind ≠ (nested.headD block).kind) :
    grow limit room block nested (.tag tag) = .grows nested := by
  cases nested with
  | nil => simpa [grow, OpenBlock.after, closes] using other
  | cons innermost nested =>
      have notSame : innermost.kind ≠ kind := fun same => other same.symm
      simp [grow, OpenBlock.after, closes, notSame]

/-- What stays in a block leaves the blocks open that are open after it. -/
theorem after_of_grow {nested' : List OpenBlock}
    (grown : grow limit room block nested (.tag tag) = .grows nested') :
    OpenBlock.after tag nested = nested' := by
  simp only [grow] at grown
  split at grown
  next => cases grown
  next => split at grown <;> cases grown; rfl

/-- Only an opener leaves more blocks open. -/
theorem length_after_le (nested : List OpenBlock)
    (noOpener : ∀ kind, tag.keyword? ≠ some (.opens kind)) :
    (OpenBlock.after tag nested).length ≤ nested.length := by
  unfold OpenBlock.after
  split
  next kind opens => exact absurd opens (noOpener kind)
  next =>
    split
    next block outer =>
      split
      next => exact Nat.le_succ _
      next => exact Nat.le_refl _
    next => exact Nat.le_refl _
  next => exact Nat.le_refl _

/-- Any other tag stays in the block. -/
theorem grow_plain (noOpener : ∀ kind, tag.keyword? ≠ some (.opens kind))
    (noCloser : ∀ kind, tag.keyword? ≠ some (.closes kind)) :
    grow limit room block nested (.tag tag) = .grows nested := by
  match isKeyword : tag.keyword? with
  | none | some .elseIf | some .otherwise => simp [grow, OpenBlock.after, isKeyword]
  | some (.opens kind) => exact absurd isKeyword (noOpener kind)
  | some (.closes kind) => exact absurd isKeyword (noCloser kind)

end Tags

/-! ### Blocks inside blocks -/

/-- A block inside another grows as it does alone; what closes it leaves the other open. -/
theorem grow_inside (piece : Piece) :
    grow limit (room + outer.length + 1) outermost (nested ++ block :: outer) piece =
      match grow limit room block nested piece with
      | .fails fault => .fails fault
      | .closes _ => .grows outer
      | .grows nested => .grows (nested ++ block :: outer) := by
  cases piece with
  | text => rfl
  | unclosed => rfl
  | tag tag =>
      match isKeyword : tag.keyword? with
      | some (.opens kind) =>
          -- The levels that the outer blocks take are added to the room.
          have same : room + outer.length + 1 < (nested ++ block :: outer).length + 2 ↔
              room < nested.length + 2 := by
            simp only [List.length_append, List.length_cons]
            omega
          rw [grow_opens isKeyword, grow_opens isKeyword]
          simp only [same]
          split <;> rfl
      | some (.closes kind) =>
          cases nested with
          | nil =>
              by_cases same : kind = block.kind
              · subst same
                rw [List.nil_append, grow_closes isKeyword, grow_closer isKeyword]
              · rw [List.nil_append, grow_other isKeyword (by exact same),
                  grow_other isKeyword (by exact same)]
                rfl
          | cons innermost nested =>
              by_cases same : kind = innermost.kind
              · subst same
                rw [List.cons_append, grow_closes isKeyword, grow_closes isKeyword]
              · rw [List.cons_append, grow_other isKeyword (by exact same),
                  grow_other isKeyword (by exact same)]
                rfl
      | none | some .elseIf | some .otherwise =>
          rw [grow_plain (by simp [isKeyword]) (by simp [isKeyword]),
            grow_plain (by simp [isKeyword]) (by simp [isKeyword])]

/-- The block that is reported does not depend on blocks around one of another kind. -/
theorem reported_inside (other : ∀ next ∈ (outer ++ [outermost]).head?, next.kind ≠ block.kind) :
    reported outermost (nested ++ block :: outer) = reported block nested := by
  have alone : block.unclosed (outer ++ [outermost]) = block := by
    generalize outer ++ [outermost] = around at other
    cases around with
    | nil => rfl
    | cons next more => rw [OpenBlock.unclosed, if_neg (other next rfl)]
  -- The search from inside ends at the block, or before it.
  have ends (innermost : OpenBlock) (between : List OpenBlock) :
      innermost.unclosed (between ++ block :: (outer ++ [outermost])) =
        innermost.unclosed (between ++ [block]) := by
    induction between generalizing innermost with
    | nil =>
        rw [List.nil_append, List.nil_append, OpenBlock.unclosed, OpenBlock.unclosed, alone]
        rfl
    | cons next between ih =>
        rw [List.cons_append, List.cons_append, OpenBlock.unclosed, OpenBlock.unclosed, ih]
  cases nested with
  | nil => exact alone
  | cons innermost nested => simpa [reported] using ends innermost nested

/-- A block inside another one is passed over before the rest of that block. -/
theorem passOver_inside (other : ∀ next ∈ (outer ++ [outermost]).head?, next.kind ≠ block.kind) :
    passOver limit (room + outer.length + 1) outermost (nested ++ block :: outer) pieces =
      (passOver limit room block nested pieces).bind fun passed =>
        (passOver limit (room + outer.length + 1) outermost outer passed.rest).map
          (.behind (passed.inside ++ [.tag passed.closer])) := by
  induction pieces generalizing nested with
  | nil =>
      rw [passOver, passOver, reported_inside other]
      rfl
  | cons next rest ih =>
      rw [passOver, passOver, grow_inside]
      cases grown : grow limit room block nested next with
      | fails fault => rfl
      | closes closer =>
          obtain ⟨rfl, -⟩ := grow_eq_closes grown
          rfl
      | grows nested =>
          simp only [ih]
          cases passOver limit room block nested rest with
          | error fault => rfl
          | ok passed =>
              simp only [Except.map, Except.bind, Passed.behind]
              cases passOver limit (room + outer.length + 1) outermost outer passed.rest <;> rfl

/-- A block that is closed inside another one is closed before it. -/
theorem exists_inside {closer : Tag}
    (other : ∀ next ∈ (outer ++ [outermost]).head?, next.kind ≠ block.kind)
    (passes : passOver limit (room + outer.length + 1) outermost (block :: outer)
      (pieces ++ .tag closer :: rest) = .ok ⟨pieces, closer, rest⟩) :
    ∃ inside inner between, pieces = inside ++ .tag inner :: between ∧
      passOver limit room block [] (inside ++ .tag inner :: (between ++ .tag closer :: rest)) =
        .ok ⟨inside, inner, between ++ .tag closer :: rest⟩ ∧
      passOver limit (room + outer.length + 1) outermost outer (between ++ .tag closer :: rest) =
        .ok ⟨between, closer, rest⟩ := by
  have apart : passOver limit (room + outer.length + 1) outermost ([] ++ block :: outer)
      (pieces ++ .tag closer :: rest) = _ := passOver_inside other
  rw [List.nil_append, passes] at apart
  obtain ⟨first, inside, second⟩ := bind_eq_ok_iff.mp apart.symm
  obtain ⟨⟨between, inner, others⟩, outside, same⟩ := map_eq_ok_iff.mp second
  simp only [Passed.behind, Passed.mk.injEq] at same
  obtain ⟨isPieces, rfl, rfl⟩ := same
  have isRest : first.rest = between ++ .tag inner :: others := (pieces_of_passOver outside).1
  have split : pieces = first.inside ++ .tag first.closer :: between := by
    rw [← isPieces, List.append_assoc]
    rfl
  refine ⟨first.inside, first.closer, between, split, ?_, isRest ▸ outside⟩
  rw [split, List.append_assoc, List.cons_append] at inside
  rw [inside, ← isRest]

/-- A piece closes the block, or stays in it and the rest closes it. -/
theorem passOver_cons_iff {next : Piece} {tail inside : List Piece} {closer : Tag} :
    passOver limit room block nested (next :: tail) = .ok ⟨inside, closer, rest⟩ ↔
      (grow limit room block nested next = .closes closer ∧ inside = [] ∧ rest = tail) ∨
        ∃ nested' others, grow limit room block nested next = .grows nested' ∧
          inside = next :: others ∧
          passOver limit room block nested' tail = .ok ⟨others, closer, rest⟩ := by
  rw [passOver]
  cases grow limit room block nested next with
  | fails fault => simp
  | closes found =>
      simp only [Except.ok.injEq, Passed.mk.injEq, Growth.closes.injEq, reduceCtorEq, false_and,
        exists_const, or_false, eq_comm (a := inside), eq_comm (a := rest)]
      exact and_left_comm
  | grows nested' =>
      simp only [map_eq_ok_iff, reduceCtorEq, false_and, false_or, Growth.grows.injEq]
      constructor
      · rintro ⟨passed, passes, same⟩
        cases same
        exact ⟨nested', passed.inside, rfl, rfl, passes⟩
      · rintro ⟨_, others, rfl, rfl, passes⟩
        exact ⟨_, passes, rfl⟩

/-- With more room a piece does what it does with less, unless that is too little. -/
theorem grow_room {more : Nat} (le : room ≤ more) (piece : Piece)
    (noFault : ∀ fault, grow limit room block nested piece ≠ .fails fault) :
    grow limit more block nested piece = grow limit room block nested piece := by
  cases piece with
  | text => rfl
  | unclosed => rfl
  | tag tag =>
      by_cases opens : ∃ kind, tag.keyword? = some (.opens kind)
      · obtain ⟨kind, opens⟩ := opens
        rw [grow_opens opens] at noFault
        rw [grow_opens opens, grow_opens opens]
        split at noFault
        next => exact absurd rfl (noFault _)
        next fits => rw [if_neg fits, if_neg (by omega)]
      · have fewer := length_after_le nested (not_exists.mp opens)
        simp only [grow, Nat.not_lt.mpr fewer, false_and]

/-- Whether a block is closed depends on the pieces up to its closer only, and it is closed with
more room as well. -/
theorem passOver_congr {more : Nat} {inside others : List Piece} {closer : Tag} (le : room ≤ more)
    (passes : passOver limit room block nested (inside ++ .tag closer :: rest) =
      .ok ⟨inside, closer, rest⟩) :
    passOver limit more block nested (inside ++ .tag closer :: others) =
      .ok ⟨inside, closer, others⟩ := by
  induction inside generalizing nested with
  | nil =>
      obtain ⟨closes, -, -⟩ | ⟨_, _, _, never, _⟩ := passOver_cons_iff.mp passes
      · refine passOver_cons_iff.mpr (.inl ⟨?_, rfl, rfl⟩)
        rw [grow_room le _ (by simp [closes]), closes]
      · cases never
  | cons next inside ih =>
      obtain ⟨_, never, _⟩ | ⟨nested', _, grown, same, tail⟩ := passOver_cons_iff.mp passes
      · cases never
      · cases same
        refine passOver_cons_iff.mpr (.inr ⟨nested', inside, ?_, rfl, ih tail⟩)
        rw [grow_room le _ (by simp [grown]), grown]

end OutlineItem

namespace Branch

open OutlineItem

/-- A division passes over the blocks inside a choice. -/
theorem divide_passOver {limit room : Nat} {block : OpenBlock} {nested outer : List OpenBlock}
    {inside rest : List Piece} {closer : Tag}
    (passes : passOver limit room block nested (inside ++ .tag closer :: rest) =
      .ok ⟨inside, closer, rest⟩) :
    divide (nested ++ block :: outer) (inside ++ .tag closer :: rest) =
      (inside ++ .tag closer :: (divide outer rest).1, (divide outer rest).2) := by
  -- A division does not look at the limit, so it may be chosen to leave room for the outer blocks.
  have around (piece : Piece) : grow limit (room + outer.length + 1) block
      (nested ++ block :: outer) piece = _ := grow_inside piece
  induction inside generalizing nested with
  | nil =>
      obtain ⟨closes, -, -⟩ | ⟨_, _, _, never, _⟩ := passOver_cons_iff.mp passes
      · have grown := around (.tag closer)
        rw [closes] at grown
        simp [divide, after_of_grow grown]
      · cases never
  | cons next inside ih =>
      obtain ⟨_, never, _⟩ | ⟨nested', _, stays, same, tail⟩ := passOver_cons_iff.mp passes
      · cases never
      · cases same
        have behind := ih tail fun _ => grow_inside _
        have grown := around next
        rw [stays] at grown
        cases next with
        | text =>
            cases stays
            simp [divide, behind]
        | unclosed => cases stays
        | tag tag => simp [divide, after_of_grow grown, behind]

end Branch

end TextTemplate
