import TextTemplate.Proofs.Checked.Statements
import TextTemplate.Proofs.Node.Passed

/-! # Finding the closers of blocks by offsets

The closer of a block is looked for tag by tag. Blocks of the same kind inside it are counted, and
each block of the other kind is passed over by a search of its own. It is the closer that passing
over the pieces finds. -/

namespace TextTemplate.Checked

open OutlineItem

variable (overflow : Overflow) (source : Source) (limits : Limits)

/-! ### Closers -/

/-- Checks that one more block may be open. -/
def checkDepth (depth : Nat) (tag : TagRange) : Reading Unit :=
  if limits.maxBlockDepth < depth then
    failAt overflow source (.blocksTooDeep limits.maxBlockDepth) tag.start tag.stop
  else return ()

/-- The closer that has been found for the block that a tag opened. -/
def requireFound (opener : TagRange) (kind : BlockKind) (close? : Option TagRange) :
    Reading TagRange :=
  match close? with
  | some close => return close
  | none => failAt overflow source (.missingCloser kind) opener.start opener.stop

/-- The keyword of a tag. -/
def keywordOf (tag : TagRange) : Option (Option Keyword) :=
  match tag.kind with
  | .statement => do return (← statement source tag).keyword?
  | .interpolation | .comment => some none

variable {m : Type → Type} [Monad m] [MonadReading m]

/-- The closer of a block from a position on. The block lies at `depth`, `nested` blocks of its kind
are open inside it, and there are fewer than `rounds` tags. -/
def matchingEnd : Nat → Nat → BlockKind → Nat → Nat → Nat → m (Option TagRange)
  | 0, _, _, _, _, _ => perform outOfPlace
  | rounds + 1, depth, kind, nested, position, limit => do
      match ← seek overflow source position limit with
      | none => return none
      | some tag =>
          let keyword? ← perform (keywordOf source tag)
          if keyword? = some (.opens kind) then
            perform (checkDepth overflow source limits (depth + nested + 1) tag)
            matchingEnd rounds depth kind (nested + 1) tag.stop limit
          else if keyword? = some (.closes kind) then
            if nested = 0 then return some tag
            else matchingEnd rounds depth kind (nested - 1) tag.stop limit
          else if keyword? = some (.opens kind.other) then
            perform (checkDepth overflow source limits (depth + nested + 1) tag)
            let close ← perform (requireFound overflow source tag kind.other
              (← matchingEnd rounds (depth + nested + 1) kind.other 0 tag.stop limit))
            matchingEnd rounds depth kind nested close.stop limit
          else matchingEnd rounds depth kind nested tag.stop limit

/-- The closer of the block that a tag opens, with nothing after its word. -/
def requireEnd (rounds depth : Nat) (kind : BlockKind) (opener : TagRange) (limit : Nat) :
    m TagRange := do
  let close ← perform (requireFound overflow source opener kind
    (← matchingEnd overflow source limits rounds depth kind 0 opener.stop limit))
  if (← perform (statement source close : Option StatementRange)).isBare then return close
  else perform (failAt overflow source (.trailingText kind.closingWord) close.start close.stop)

variable {overflow source limits} {rounds depth room start stop : Nat}
  {pieces rest : List Piece}

/-! ### The next tag of a range -/

section Next

variable {tag : Tag}

/-- The first tag of a covered range is found. -/
theorem Covers.next_tag (covers : Covers overflow source start stop (.tag tag :: rest)) :
    tag.start = start ∧ nextTag overflow source start stop = pure (some tag.range) ∧
      cut? source.text tag.innerStart tag.innerStop = some tag.inner ∧
      Covers overflow source tag.stop stop rest := by
  cases covers with
  | tag inner next covers =>
      have le := covers.le
      refine ⟨rfl, next stop ?_, inner, covers⟩
      simp only [Tag.stop, Tag.innerStop, Tag.innerStart] at le
      omega

/-- The keyword of a tag by offsets is that of the tag. -/
theorem keywordOf_eq (inner : cut? source.text tag.innerStart tag.innerStop = some tag.inner) :
    keywordOf source tag.range = some tag.keyword? := by
  have statement := (statement_eq inner).1
  cases isKind : tag.kind with
  | statement =>
      simp [keywordOf, Tag.keyword?, isKind, statement]
  | interpolation => simp [keywordOf, Tag.keyword?, isKind]
  | comment => simp [keywordOf, Tag.keyword?, isKind]

end Next

/-! ### Closers of pieces -/

/-- A text is passed over. -/
theorem matchingEnd_text {kind : BlockKind} {nested place : Nat} {content : List Char}
    (covers : Covers overflow source start stop (.text content place :: rest)) :
    (matchingEnd overflow source limits rounds depth kind nested start stop : Reading _) =
        matchingEnd overflow source limits rounds depth kind nested (start + byteLength content)
          stop ∧
      Covers overflow source (start + byteLength content) stop rest := by
  cases covers with
  | text _ _ passes _ covers =>
      refine ⟨?_, covers⟩
      cases rounds with
      | zero => rfl
      | succ rounds => rw [matchingEnd, matchingEnd, seek_eq, seek_eq, passes]

/-- The closer that passing over pieces finds, by its offsets. -/
def closerOf (source : Source) (passed : Except (Located Cause) Passed) : Except Fault TagRange :=
  (Node.Parser.locate source passed).map (·.closer.range)

@[simp] theorem closerOf_error (fault : Located Cause) :
    closerOf source (.error fault) = .error ⟨fault.item, fault.span source⟩ := rfl

@[simp] theorem closerOf_ok (passed : Passed) :
    closerOf source (.ok passed) = .ok passed.closer.range := rfl

@[simp] theorem closerOf_behind (pieces : List Piece) (passed : Except (Located Cause) Passed) :
    closerOf source (passed.map (.behind pieces)) = closerOf source passed := by
  cases passed <;> rfl

/-- The depth of a block is checked as the room for it is. -/
theorem checkDepth_eq [overflow.Fits source] (nested : List OpenBlock) {tag : Tag}
    (isRoom : depth + room = limits.maxBlockDepth + 1) :
    checkDepth overflow source limits (depth + nested.length + 1) tag.range =
      found source (if room < nested.length + 2 then
        .error ⟨.blocksTooDeep limits.maxBlockDepth, source.tagSpan tag⟩ else .ok ()) := by
  have same : limits.maxBlockDepth < depth + nested.length + 1 ↔ room < nested.length + 2 := by
    omega
  rw [checkDepth]
  simp only [same]
  split
  next => exact failAt_eq _ _ _
  next => rfl

/-- There are only two kinds of blocks. -/
theorem eq_or_eq_other (kind other : BlockKind) : kind = other ∨ kind = other.other := by
  cases kind <;> cases other <;> decide

/-- The range behind what is passed over is covered by the pieces there. -/
theorem Covers.behind {limit : Nat} {block : OpenBlock} {nested : List OpenBlock} {passed : Passed}
    (covers : Covers overflow source start stop pieces)
    (passes : passOver limit room block nested pieces = .ok passed) :
    Covers overflow source start passed.closer.start passed.inside ∧
      cut? source.text passed.closer.innerStart passed.closer.innerStop =
        some passed.closer.inner ∧
      Covers overflow source passed.closer.stop stop passed.rest := by
  rw [(pieces_of_passOver passes).1, Passed.pieces] at covers
  obtain ⟨inside, closer⟩ := covers.divide
  obtain ⟨-, -, inner, behind⟩ := closer.next_tag
  exact ⟨inside, inner, behind⟩

/-! ### The search for a closer -/

/-- Whether the search for the closer of a block, from inside it on, finds the one that passing over
the pieces finds. -/
def Finds (overflow : Overflow) (source : Source) (limits : Limits) (rounds depth room : Nat)
    (block : OpenBlock) (nested : List OpenBlock) (start stop : Nat) (pieces : List Piece) : Prop :=
  (matchingEnd overflow source limits rounds depth block.kind nested.length start stop >>=
      requireFound overflow source block.opener.range block.kind) =
    found source (closerOf source (passOver limits.maxBlockDepth room block nested pieces))

section Finds

variable {block : OpenBlock} {nested nested' : List OpenBlock} {tag : Tag}

/-- An opener is checked against the depth, and what comes behind it is passed over. -/
theorem checkDepth_opens [overflow.Fits source] {kind : BlockKind} {next : Reading TagRange}
    (isRoom : depth + room = limits.maxBlockDepth + 1)
    (opens : tag.keyword? = some (.opens kind))
    (later : nested.length + 2 ≤ room → next = found source (closerOf source
      (passOver limits.maxBlockDepth room block (⟨kind, tag⟩ :: nested) rest))) :
    (checkDepth overflow source limits (depth + nested.length + 1) tag.range >>= fun _ => next) =
      found source (closerOf source
        (passOver limits.maxBlockDepth room block nested (.tag tag :: rest))) := by
  have grown : grow limits.maxBlockDepth room block nested (.tag tag) = _ := grow_opens opens
  rw [checkDepth_eq nested isRoom]
  by_cases full : room < nested.length + 2
  · rw [if_pos full] at grown
    rw [if_pos full, passOver, grown]
    rfl
  · rw [if_neg full] at grown
    rw [if_neg full, passOver_grows grown, closerOf_behind]
    exact later (Nat.not_lt.mp full)

/-- A block of the same kind inside is counted. -/
theorem finds_opens [overflow.Fits source]
    (covers : Covers overflow source start stop (.tag tag :: rest))
    (isRoom : depth + room = limits.maxBlockDepth + 1)
    (opens : tag.keyword? = some (.opens block.kind))
    (later : Finds overflow source limits rounds depth room block (⟨block.kind, tag⟩ :: nested)
      tag.stop stop rest) :
    Finds overflow source limits (rounds + 1) depth room block nested start stop
      (.tag tag :: rest) := by
  obtain ⟨-, next, inner, -⟩ := covers.next_tag
  rw [Finds, matchingEnd, seek_eq, next]
  simp only [pure_bind, keywordOf_eq inner, perform_eq, lift_some, if_pos opens, bind_assoc]
  exact checkDepth_opens isRoom opens fun _ => later

/-- A closer of the kind ends the innermost block, and then the block itself. -/
theorem finds_closes (covers : Covers overflow source start stop (.tag tag :: rest))
    (closes : tag.keyword? = some (.closes block.kind))
    (alike : ∀ inner ∈ nested, inner.kind = block.kind)
    (later : nested ≠ [] → Finds overflow source limits rounds depth room block nested.tail
      tag.stop stop rest) :
    Finds overflow source limits (rounds + 1) depth room block nested start stop
      (.tag tag :: rest) := by
  obtain ⟨-, next, inner, -⟩ := covers.next_tag
  have noOpener : ¬tag.keyword? = some (.opens block.kind) := by simp [closes]
  rw [Finds, matchingEnd, seek_eq, next]
  simp only [pure_bind, keywordOf_eq inner, perform_eq, lift_some, if_neg noOpener, if_pos closes]
  cases nested with
  | nil =>
      rw [passOver, grow_closer closes]
      rfl
  | cons innermost outer =>
      rw [← alike innermost (.head _)] at closes
      rw [passOver_grows (grow_closes closes), closerOf_behind]
      exact later (List.cons_ne_nil _ _)

/-- A block of the other kind inside is passed over by a search of its own. -/
theorem finds_other [overflow.Fits source]
    (covers : Covers overflow source start stop (.tag tag :: rest))
    (isRoom : depth + room = limits.maxBlockDepth + 1)
    (alike : ∀ inner ∈ nested, inner.kind = block.kind)
    (opens : tag.keyword? = some (.opens block.kind.other))
    (first : ∀ left, depth + nested.length + 1 + left = limits.maxBlockDepth + 1 →
      Finds overflow source limits rounds (depth + nested.length + 1) left
        ⟨block.kind.other, tag⟩ [] tag.stop stop rest)
    (later : ∀ {passed : Passed}, Covers overflow source passed.closer.stop stop passed.rest →
      passed.rest.length < rest.length → Finds overflow source limits rounds depth room block nested
        passed.closer.stop stop passed.rest) :
    Finds overflow source limits (rounds + 1) depth room block nested start stop
      (.tag tag :: rest) := by
  obtain ⟨-, next, inner, behind⟩ := covers.next_tag
  have noOther : block.kind ≠ block.kind.other := by cases block.kind <;> decide
  have noOpener : ¬tag.keyword? = some (.opens block.kind) := by simpa [opens] using noOther.symm
  have noCloser : ¬tag.keyword? = some (.closes block.kind) := by simp [opens]
  rw [Finds, matchingEnd, seek_eq, next]
  simp only [pure_bind, keywordOf_eq inner, perform_eq, lift_some, if_neg noOpener, if_neg noCloser,
    if_pos opens, bind_assoc, Tag.stop_range]
  refine checkDepth_opens isRoom opens fun fits => ?_
  -- The inner search starts deeper, and has the levels that are left below this tag.
  obtain ⟨left, rfl⟩ : ∃ left, room = left + nested.length + 1 :=
    ⟨room - nested.length - 1, by omega⟩
  -- All blocks around it are of its opposite kind, so what is passed over is the inner block first.
  have isOther : ∀ next ∈ (nested ++ [block]).head?, next.kind ≠ block.kind.other := by
    cases nested with
    | nil => simpa using noOther
    | cons innermost nested => simpa [alike innermost (.head _)] using noOther
  have inside : passOver limits.maxBlockDepth (left + nested.length + 1) block
      ([] ++ ⟨block.kind.other, tag⟩ :: nested) rest = _ := passOver_inside isOther
  have search : (matchingEnd overflow source limits rounds (depth + nested.length + 1)
      block.kind.other 0 tag.stop stop >>=
        requireFound overflow source tag.range block.kind.other) = _ := first left (by omega)
  rw [List.nil_append] at inside
  rw [inside, ← bind_assoc, search]
  cases passes : passOver limits.maxBlockDepth left ⟨block.kind.other, tag⟩ [] rest with
  | error fault => rfl
  | ok passed =>
      have shorter : passed.rest.length < rest.length := by
        rw [(pieces_of_passOver passes).1, Passed.pieces, List.length_append, List.length_cons]
        omega
      rw [closerOf_ok, found_ok, pure_bind, Except.bind, closerOf_behind]
      exact later (behind.behind passes).2.2 shorter

/-- Any other tag is passed over. -/
theorem finds_plain (covers : Covers overflow source start stop (.tag tag :: rest))
    (alike : ∀ inner ∈ nested, inner.kind = block.kind)
    (noOpener : ∀ kind, tag.keyword? ≠ some (.opens kind))
    (noCloser : tag.keyword? ≠ some (.closes block.kind))
    (later : Finds overflow source limits rounds depth room block nested tag.stop stop rest) :
    Finds overflow source limits (rounds + 1) depth room block nested start stop
      (.tag tag :: rest) := by
  obtain ⟨-, next, inner, -⟩ := covers.next_tag
  have stays : grow limits.maxBlockDepth room block nested (.tag tag) = .grows nested := by
    by_cases closer : ∃ kind, tag.keyword? = some (.closes kind)
    · -- A closer of the other kind closes nothing: every open block is of the kind of `block`.
      obtain ⟨kind, closes⟩ := closer
      have isKind : (nested.headD block).kind = block.kind := by
        cases nested with
        | nil => rfl
        | cons innermost nested => exact alike innermost (.head _)
      exact grow_other closes fun same => noCloser (isKind ▸ same ▸ closes)
    · exact grow_plain noOpener (not_exists.mp closer)
  rw [Finds, matchingEnd, seek_eq, next]
  simp only [pure_bind, keywordOf_eq inner, perform_eq, lift_some, if_neg (noOpener _),
    if_neg noCloser]
  rw [passOver_grows stays, closerOf_behind]
  exact later

/-- The closer of a block by offsets is the one that passing over the pieces finds. -/
theorem finds [overflow.Fits source] (block : OpenBlock) (nested : List OpenBlock)
    (covers : Covers overflow source start stop pieces) (enough : pieces.length < rounds)
    (alike : ∀ inner ∈ nested, inner.kind = block.kind)
    (isRoom : depth + room = limits.maxBlockDepth + 1) :
    Finds overflow source limits rounds depth room block nested start stop pieces := by
  -- Passing over a block of the other kind takes many pieces at once, so the induction is on how
  -- many are left.
  induction isLength : pieces.length using Nat.strong_induction_on
    generalizing rounds depth room start pieces block nested with
  | _ length ih =>
  subst isLength
  obtain ⟨rounds, rfl⟩ : ∃ more, rounds = more + 1 := ⟨rounds - 1, by omega⟩
  rcases pieces with _ | ⟨⟨content, place⟩ | tag | ⟨kind, place⟩, rest⟩
  case nil =>
      cases covers
      rw [Finds, matchingEnd, seek_eq, nextTag_past (.inl (Nat.le_succ _)), passOver,
        reported_alike alike]
      simp [requireFound, Tag.fault, Located.span]
  case cons.text =>
      obtain ⟨passes, behind⟩ := matchingEnd_text covers
      rw [Finds, passes, passOver_grows rfl, closerOf_behind]
      exact ih _ (Nat.lt_succ_self _) _ _ behind (Nat.lt_of_succ_lt enough) alike isRoom rfl
  case cons.unclosed =>
      obtain ⟨-, unclosed, rfl, -⟩ := covers.next_unclosed
      rw [Finds, matchingEnd, seek_eq, unclosed, failAt_eq]
      rfl
  case cons.tag =>
      obtain ⟨-, -, -, behind⟩ := covers.next_tag
      have fewer : rest.length < rounds := Nat.lt_of_succ_lt_succ enough
      by_cases opens : tag.keyword? = some (.opens block.kind)
      · exact finds_opens covers isRoom opens (ih _ (Nat.lt_succ_self _) _ _ behind fewer
          (List.forall_mem_cons.mpr ⟨rfl, alike⟩) isRoom rfl)
      by_cases closes : tag.keyword? = some (.closes block.kind)
      · exact finds_closes covers closes alike fun _ => ih _ (Nat.lt_succ_self _) _ _ behind fewer
          (fun inner isInner => alike inner (List.mem_of_mem_tail isInner)) isRoom rfl
      by_cases other : tag.keyword? = some (.opens block.kind.other)
      · exact finds_other covers isRoom alike other
          (fun left isLeft => ih _ (Nat.lt_succ_self _) _ _ behind fewer (by simp) isLeft rfl)
          fun covers shorter => ih _ (Nat.lt_succ_of_lt shorter) _ _ covers
            (Nat.lt_trans shorter fewer) alike isRoom rfl
      · refine finds_plain covers alike (fun kind opener => ?_) closes
          (ih _ (Nat.lt_succ_self _) _ _ behind fewer alike isRoom rfl)
        -- There are only two kinds that a tag may open a block of.
        rcases eq_or_eq_other kind block.kind with rfl | rfl
        · exact opens opener
        · exact other opener

end Finds

/-- A block is closed by offsets as it is by its pieces. -/
theorem requireEnd_eq [overflow.Fits source] {kind : BlockKind} {opener : Tag}
    (covers : Covers overflow source opener.stop stop pieces) (enough : pieces.length < rounds)
    (isRoom : depth + room = limits.maxBlockDepth + 1) :
    requireEnd overflow source limits rounds depth kind opener.range stop =
      found source ((Node.Parser.closedInside source kind
        ((passOver limits.maxBlockDepth room ⟨kind, opener⟩ [] pieces).map Passed.block)).map
          (·.closer.range)) := by
  have close : (matchingEnd overflow source limits rounds depth kind 0 opener.stop stop >>=
      requireFound overflow source opener.range kind) = found source (closerOf source
        (passOver limits.maxBlockDepth room ⟨kind, opener⟩ [] pieces)) :=
    finds ⟨kind, opener⟩ [] covers enough nofun isRoom
  simp only [requireEnd, Tag.stop_range, perform_eq]
  rw [← bind_assoc, close]
  cases passes : passOver limits.maxBlockDepth room ⟨kind, opener⟩ [] pieces with
  | error fault => rfl
  | ok passed =>
      obtain ⟨-, inner, -⟩ := covers.behind passes
      simp only [closerOf_ok, found_ok, pure_bind, (statement_eq inner).1, lift_some,
        Statement.isBare_range]
      refine (found_require (show _ = found source (.ok passed.closer.range) from rfl)).trans ?_
      change _ = found source ((Node.Parser.require source passed.closer.statement.arguments.isEmpty
        passed.closer _ >>= fun _ => .ok passed.block).map (·.closer.range))
      cases Node.Parser.require source passed.closer.statement.arguments.isEmpty passed.closer
        (.trailingText kind.closingWord) <;> rfl

end TextTemplate.Checked
