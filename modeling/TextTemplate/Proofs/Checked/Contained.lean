import TextTemplate.Proofs.Checked.Nodes
import TextTemplate.Proofs.Node.Tiles

/-! # Tags lie in their ranges

Reading a range of a source looks for the tags that open in it, while the closer of such a tag is
looked for up to the end of the source. The tag ends in the range all the same, since every range
starts behind a tag and stops in front of one. To tell so, templates are read in a monad that keeps
a record of the tags that are found, with the ranges that they are looked for in. All of them lie in
these ranges, and the record changes nothing else. -/

namespace TextTemplate

/-! ### Tags of a scan -/

namespace Piece

variable {source : Source} {offset stop : Nat} {text : List Char} {tag other : Tag}

/-- Behind one of its tags, the pieces of a text are those of what follows the tag. -/
theorem scan_behind (here : cut? source.text offset stop = some text)
    (isPiece : .tag tag ∈ scan offset 0 text) : ∃ rest,
      cut? source.text tag.stop stop = some rest ∧ scan tag.stop 0 rest ⊆ scan offset 0 text := by
  obtain ⟨_, _, _, there, scans, others⟩ := exists_rest here isPiece
  cases scans with
  | @tag _ rest _ =>
      have behind := cut?_right (tag.kind.wrap tag.inner) there
      rw [← Tag.stop_eq] at behind
      exact ⟨rest, behind, others⟩

/-- A tag that starts before another one ends before that one starts. -/
theorem stop_le_of_scan (isPiece : .tag tag ∈ scan offset 0 text)
    (isOther : .tag other ∈ scan offset 0 text) (before : tag.start < other.start) :
    tag.stop ≤ other.start := by
  have scans := scans_scan offset text
  generalize scan offset 0 text = pieces at scans isPiece isOther
  -- What is scanned behind a tag starts where the tag stops, so it matters which one comes first.
  induction scans with
  | nil => cases isPiece
  | text _ _ _ ih =>
      rcases List.mem_cons.mp isPiece with isText | isPiece
      · cases isText
      rcases List.mem_cons.mp isOther with isText | isOther
      · cases isText
      exact ih isPiece isOther
  | @tag first rest _ ih =>
      rcases List.mem_cons.mp isPiece with isFirst | isPiece
      · cases isFirst
        rcases List.mem_cons.mp isOther with isFirst | isOther
        · cases isFirst
          exact absurd before (Nat.lt_irrefl _)
        · exact start_of_scan isOther
      · rcases List.mem_cons.mp isOther with isFirst | isOther
        · cases isFirst
          -- Here the other tag is the first one, and this tag would start behind it.
          have behind := start_of_scan isPiece
          simp only [Tag.stop, Tag.innerStop, Tag.innerStart] at behind
          omega
        · exact ih isPiece isOther
  | unclosed => cases List.mem_singleton.mp isPiece

end Piece

namespace Source

variable (source : Source)

/-- Whether an offset is the start of the source, or behind one of its tags. -/
def Begins (offset : Nat) : Prop := offset = 0 ∨ ∃ tag, .tag tag ∈ source.pieces ∧ tag.stop = offset

/-- Whether an offset is the end of the source, or in front of one of its tags. -/
def Ends (offset : Nat) : Prop :=
  offset = source.size ∨ ∃ tag, .tag tag ∈ source.pieces ∧ tag.start = offset

variable {source} {offset limit : Nat} {tag : Tag}

/-- From such a start on, the pieces of the rest are pieces of the source. -/
theorem Begins.exists_rest (begins : source.Begins offset) : ∃ rest,
    cut? source.text offset source.size = some rest ∧
      Piece.scan offset 0 rest ⊆ source.pieces := by
  rcases begins with rfl | ⟨tag, isPiece, rfl⟩
  · exact ⟨source.text, cut?_whole source.text, List.Subset.refl _⟩
  · exact Piece.scan_behind (cut?_whole source.text) isPiece

/-- A tag that starts before such an end lies before it. -/
theorem Ends.stop_le (ends : source.Ends limit) (isPiece : .tag tag ∈ source.pieces)
    (before : tag.start < limit) : tag.stop ≤ limit := by
  rcases ends with rfl | ⟨other, isOther, rfl⟩
  · exact le_of_cut? (cut?_tag isPiece)
  · exact Piece.stop_le_of_scan isPiece isOther before

end Source

namespace Checked

/-! ### Steps with a record -/

/-- A step of reading that keeps a record of the tags that are found, the last one first. The record
is also there when a fault is reported. -/
abbrev Watching := ExceptT Diagnostic (StateT (List Sighting) Option)

section Watching

variable {α β : Type}

/-- A step that looks for no tags. -/
def watch (step : Reading α) : Watching α :=
  ExceptT.mk fun seen => step.run.map (·, seen)

/-- Adds a tag to the record. -/
def record (sighting : Sighting) : Watching Unit :=
  ExceptT.mk fun seen => some (.ok (), sighting :: seen)

instance monadWatching : MonadReading Watching := ⟨watch, record⟩

/-- A step with a record goes on with the record that it leaves. -/
theorem run_bind (step : Watching α) (next : α → Watching β) (seen : List Sighting) :
    (step >>= next).run.run seen = (step.run.run seen).bind fun found =>
      match found.1 with
      | .ok value => (next value).run.run found.2
      | .error diagnostic => some (.error diagnostic, found.2) := by
  change (step.run.run seen).bind _ = _
  congr 1
  funext ⟨outcome, after⟩
  cases outcome <;> rfl

end Watching

variable {overflow : Overflow} {source : Source} {limits : Limits} {index limit : Nat}
  {range : TagRange}

/-- What the search finds is put in front of the record, with its range, and nothing else is. -/
theorem run_seek (seen : List Sighting) :
    (seek overflow source index limit : Watching _).run.run seen =
      (nextTag overflow source index limit).run.map fun outcome =>
        (outcome, (outcome.toOption.join.map (⟨index, limit, ·⟩)).toList ++ seen) := by
  rw [seek, run_bind]
  change ((nextTag overflow source index limit).run.map (·, seen)).bind _ = _
  cases (nextTag overflow source index limit).run with
  | none => rfl
  | some outcome =>
      cases outcome with
      | error diagnostic => rfl
      | ok found? => cases found? <;> rfl

/-! ### Tags that are found -/

/-- The first tag is one of the pieces, and opens before the limit. -/
theorem mem_of_firstTag {pieces : List Piece} {tag : Tag}
    (isFirst : firstTag limit pieces = .ok (some tag)) :
    .tag tag ∈ pieces ∧ tag.start < limit := by
  fun_induction firstTag limit pieces with
  | case1 => cases isFirst
  | case2 content start rest ih => exact (ih isFirst).imp_left (List.mem_cons_of_mem _)
  | case3 other rest =>
      split at isFirst
      next within =>
        cases isFirst
        exact ⟨.head _, Nat.lt_of_succ_lt within⟩
      next => cases isFirst
  | case4 => cases isFirst
  | case5 => cases isFirst

/-- Whether a range is that of a tag of the source. -/
def IsTag (source : Source) (range : TagRange) : Prop :=
  ∃ tag, .tag tag ∈ source.pieces ∧ tag.range = range

/-- What comes behind a tag begins there. -/
theorem IsTag.begins (isTag : IsTag source range) : source.Begins range.stop := by
  obtain ⟨tag, isPiece, rfl⟩ := isTag
  exact .inr ⟨tag, isPiece, rfl⟩

/-- What comes in front of a tag ends there. -/
theorem IsTag.ends (isTag : IsTag source range) : source.Ends range.start := by
  obtain ⟨tag, isPiece, rfl⟩ := isTag
  exact .inr ⟨tag, isPiece, rfl⟩

/-- Whether a tag that has been found is a tag of the source, and lies in the range. -/
structure Sighting.IsContained (source : Source) (sighting : Sighting) : Prop where
  isTag : IsTag source sighting.tag
  start_le : sighting.start ≤ sighting.tag.start
  stop_le : sighting.tag.stop ≤ sighting.limit

/-- Between tags only tags of the source are found, and they end in front of the limit. -/
theorem isContained_of_nextTag [overflow.Fits source] (begins : source.Begins index)
    (ends : source.Ends limit) (finds : nextTag overflow source index limit = pure (some range)) :
    Sighting.IsContained source ⟨index, limit, range⟩ := by
  obtain ⟨rest, here, arePieces⟩ := begins.exists_rest
  rw [nextTag_eq here] at finds
  cases first : firstTag limit (Piece.scan index 0 rest) with
  | error fault =>
      rw [first] at finds
      cases finds
  | ok tag? =>
      rw [first] at finds
      cases tag? with
      | none => cases finds
      | some tag =>
          cases finds
          obtain ⟨isPiece, before⟩ := mem_of_firstTag first
          exact ⟨⟨tag, arePieces isPiece, rfl⟩, Piece.start_of_scan isPiece,
            ends.stop_le (arePieces isPiece) before⟩

variable {α β : Type}

/-! ### What the record tells -/

/-- Whether a step with a record has the outcome of a step without one, adds only tags that lie in
their ranges, and finds only what is good. -/
structure Follows (source : Source) (good : α → Prop) (step : Watching α) (plain : Reading α) :
    Prop where
  same : ∀ seen, (step.run.run seen).map Prod.fst = plain.run
  contained : ∀ {seen outcome after}, step.run.run seen = some (outcome, after) →
    (∀ sighting ∈ seen, sighting.IsContained source) →
      ∀ sighting ∈ after, sighting.IsContained source
  good : ∀ {value}, plain = pure value → good value

namespace Follows

variable {good : α → Prop} {good' : β → Prop} {step : Watching α} {plain : Reading α}

/-- A step that looks for no tags follows itself. -/
theorem perform (isGood : ∀ value, plain = pure value → good value) :
    Follows source good (perform plain) (perform plain) where
  same seen := by
    change (plain.run.map (·, seen)).map Prod.fst = plain.run
    rw [Option.map_map]
    exact Option.map_id'
  contained := by
    intro seen outcome after ran areContained
    obtain ⟨_, -, same⟩ := Option.map_eq_some_iff.mp ran
    cases same
    exact areContained
  good := isGood _

/-- So does one of which nothing more is needed. -/
theorem any : Follows source (fun _ => True) (Checked.perform plain) (Checked.perform plain) :=
  perform fun _ _ => trivial

/-- A step that only gives a value follows itself. -/
theorem pure {value : α} (isGood : good value) :
    Follows source good (pure value) (pure value) where
  same _ := rfl
  contained ran areContained := by
    cases ran
    exact areContained
  good same := by
    cases same
    exact isGood

/-- Nothing is asked of a step that ends in a fault. -/
theorem failAt [overflow.Fits source] {cause : Cause} {start stop : Nat} :
    Follows source good (Checked.perform (failAt overflow source cause start stop))
      (Checked.perform (failAt overflow source cause start stop)) :=
  perform fun value never => by
    rw [failAt_eq] at never
    cases never

/-- Nor is it of one that ends out of place. -/
theorem outOfPlace : Follows source good (Checked.perform (outOfPlace : Reading α))
    (Checked.perform (outOfPlace : Reading α)) :=
  perform nofun

/-- What a step gives with a record it gives without one. -/
theorem outcome (follows : Follows source good step plain) {seen after : List Sighting}
    {outcome : Except Diagnostic α} (ran : step.run.run seen = some (outcome, after)) :
    plain.run = some outcome := by
  rw [← follows.same seen, ran]
  rfl

/-- Steps follow each other. -/
theorem bind {next : α → Watching β} {next' : α → Reading β}
    (first : Follows source good step plain)
    (later : ∀ value, good value → Follows source good' (next value) (next' value)) :
    Follows source good' (step >>= next) (plain >>= next') where
  same seen := by
    -- The second step starts with the record that the first one leaves, and only if that one
    -- succeeds.
    rw [run_bind]
    cases ran : step.run.run seen with
    | none =>
        have isNone : plain.run = none := by rw [← first.same seen, ran]; rfl
        obtain rfl : plain = ExceptT.mk none := isNone
        rfl
    | some found =>
        obtain ⟨outcome, after⟩ := found
        obtain rfl : plain = ExceptT.mk (some outcome) := first.outcome ran
        cases outcome with
        | error diagnostic => rfl
        | ok value => exact (later value (first.good rfl)).same after
  contained {seen outcome after} ran areContained := by
    rw [run_bind, Option.bind_eq_some_iff] at ran
    obtain ⟨⟨between, recorded⟩, ran, rest⟩ := ran
    have areBetween := first.contained ran areContained
    cases between with
    | error diagnostic =>
        cases rest
        exact areBetween
    | ok value => exact (later value (first.good (first.outcome ran))).contained rest areBetween
  good {result} gives := by
    cases ran : plain.run with
    | none =>
        obtain rfl : plain = ExceptT.mk none := ran
        cases gives
    | some outcome =>
        obtain rfl : plain = ExceptT.mk (some outcome) := ran
        cases outcome with
        | error diagnostic => cases gives
        | ok value => exact (later value (first.good rfl)).good gives

/-- A choice between steps follows the same choice. -/
theorem ite {condition : Prop} [Decidable condition] {other : Watching α} {other' : Reading α}
    (yes : condition → Follows source good step plain)
    (no : ¬condition → Follows source good other other') :
    Follows source good (if condition then step else other)
      (if condition then plain else other') := by
  by_cases holds : condition
  · rw [if_pos holds, if_pos holds]
    exact yes holds
  · rw [if_neg holds, if_neg holds]
    exact no holds

end Follows

/-! ### Looking for tags -/

variable [overflow.Fits source]

section Search

variable {rounds depth nested : Nat} {kind : BlockKind} {opener tag : TagRange} {hasElse : Bool}

/-- Whether a tag of the source has been found, if any has. -/
abbrev AreTags (source : Source) (found? : Option TagRange) : Prop :=
  ∀ range ∈ found?, IsTag source range

/-- Where nothing has been found, nothing else than a tag has been. -/
theorem areTags_none (source : Source) : AreTags source none := by
  intro range isFound
  cases isFound

/-- Between tags only tags of the source are found, and they are recorded with their ranges. -/
theorem follows_seek (begins : source.Begins index) (ends : source.Ends limit) :
    Follows source (AreTags source) (seek overflow source index limit)
      (seek overflow source index limit) where
  same seen := by
    rw [run_seek, Option.map_map, seek_eq]
    exact Option.map_id'
  contained {seen outcome after} ran areContained := by
    rw [run_seek, Option.map_eq_some_iff] at ran
    obtain ⟨_, finds, same⟩ := ran
    cases same
    -- Only a search that gives a tag adds to the record.
    cases outcome with
    | error diagnostic => exact areContained
    | ok found? =>
    cases found? with
    | none => exact areContained
    | some range =>
        exact List.forall_mem_cons.mpr ⟨isContained_of_nextTag begins ends finds, areContained⟩
  good gives range isFound := by
    obtain rfl : _ = some range := isFound
    rw [seek_eq] at gives
    exact (isContained_of_nextTag begins ends gives).isTag

/-- The closer of a block is a tag of the source. -/
theorem follows_requireFound {close? : Option TagRange} (areTags : AreTags source close?) :
    Follows source (IsTag source) (perform (requireFound overflow source opener kind close?))
      (perform (requireFound overflow source opener kind close?)) := by
  cases close? with
  | none => exact .failAt
  | some close => exact .pure (areTags close rfl)

/-- A block is searched up to its closer from tag to tag. -/
theorem follows_matchingEnd (begins : source.Begins index) (ends : source.Ends limit) :
    Follows source (AreTags source)
      (matchingEnd overflow source limits rounds depth kind nested index limit)
      (matchingEnd overflow source limits rounds depth kind nested index limit) := by
  -- Each round goes on behind a tag with the same limit, so both ends stay what they are.
  induction rounds generalizing depth kind nested index with
  | zero => exact .outOfPlace
  | succ rounds ih =>
      rw [matchingEnd, matchingEnd]
      refine (follows_seek begins ends).bind fun tag? areTags => ?_
      cases tag? with
      | none => exact .pure (areTags_none source)
      | some tag =>
          have isTag := areTags tag rfl
          refine .bind .any fun keyword? _ => ?_
          refine .ite (fun _ => ?_) fun _ => .ite (fun _ => ?_) fun _ => .ite (fun _ => ?_) fun _ => ?_
          · exact .bind .any fun _ _ => ih isTag.begins
          · exact .ite (fun _ => .pure areTags) fun _ => ih isTag.begins
          · refine .bind .any fun _ _ => ?_
            refine (ih isTag.begins).bind fun close? areTags => ?_
            exact (follows_requireFound areTags).bind fun close isTag => ih isTag.begins
          · exact ih isTag.begins

/-- The closer of a block that a tag opens is a tag of the source. -/
theorem follows_requireEnd (isTag : IsTag source opener) (ends : source.Ends limit) :
    Follows source (IsTag source)
      (requireEnd overflow source limits rounds depth kind opener limit)
      (requireEnd overflow source limits rounds depth kind opener limit) := by
  refine (follows_matchingEnd isTag.begins ends).bind fun close? areTags => ?_
  refine (follows_requireFound areTags).bind fun close isTag => ?_
  refine .bind .any fun statement _ => ?_
  exact .ite (fun _ => .pure isTag) fun _ => .failAt

/-- Whether bodies start behind tags and stop in front of them. -/
structure Bounded (source : Source) (found : List Segment × List Nat) : Prop where
  begins : ∀ segment ∈ found.1, source.Begins segment.start
  ends : ∀ bound ∈ found.2, source.Ends bound

/-- One more branch is bounded by its tag. -/
theorem Bounded.push {others : List Segment × List Nat} {condition : Option ConditionRange}
    (bounded : Bounded source others) (isTag : IsTag source tag) :
    Bounded source (Segment.push ⟨condition, tag.stop⟩ tag.start others) :=
  ⟨List.forall_mem_cons.mpr ⟨isTag.begins, bounded.begins⟩,
    List.forall_mem_cons.mpr ⟨isTag.ends, bounded.ends⟩⟩

/-- A choice is divided from tag to tag. -/
theorem follows_collect (begins : source.Begins index) (ends : source.Ends limit) :
    Follows source (Bounded source)
      (collect overflow source limits rounds depth hasElse nested index limit)
      (collect overflow source limits rounds depth hasElse nested index limit) := by
  -- A segment starts behind the tag of its branch, and the one before it stops in front of the tag.
  induction rounds generalizing hasElse nested index with
  | zero => exact .outOfPlace
  | succ rounds ih =>
      rw [collect, collect]
      refine (follows_seek begins ends).bind fun tag? areTags => ?_
      cases tag? with
      | none => exact .pure ⟨List.forall_mem_nil _, by simpa using ends⟩
      | some tag =>
          have isTag := areTags tag rfl
          refine .bind .any fun keyword? _ => ?_
          cases keyword? with
          | none => exact ih isTag.begins
          | some keyword =>
          cases keyword with
          | opens kind =>
              cases kind with
              | choice => exact ih isTag.begins
              | loop =>
                  refine (follows_matchingEnd isTag.begins ends).bind fun close? areTags => ?_
                  cases close? with
                  | none => exact ih isTag.begins
                  | some close => exact ih (areTags close rfl).begins
          | closes kind => cases kind <;> exact ih isTag.begins
          | elseIf =>
              refine .ite (fun _ => .ite (fun _ => .failAt) fun _ => ?_) fun _ => ih isTag.begins
              refine .bind .any fun _ _ => .ite (fun _ => .failAt) fun _ => ?_
              exact (ih isTag.begins).bind fun others bounded => .pure (bounded.push isTag)
          | otherwise =>
              refine .ite (fun _ => .ite (fun _ => .failAt) fun _ => ?_) fun _ => ih isTag.begins
              refine .bind .any fun _ _ => .ite (fun _ => ?_) fun _ => .failAt
              exact (ih isTag.begins).bind fun others bounded => .pure (bounded.push isTag)

end Search

/-! ### Reading ranges -/

section Reading

variable {rounds depth : Nat} {tag : TagRange} {statement : StatementRange}
  {watchBody : Nat → Nat → Watching (List Node)} {readBody : Nat → Nat → Reading (List Node)}

/-- Whether the insides of blocks are read from tag to tag. -/
def FollowsBodies (source : Source) (watchBody : Nat → Nat → Watching (List Node))
    (readBody : Nat → Nat → Reading (List Node)) : Prop :=
  ∀ ⦃start stop : Nat⦄, source.Begins start → source.Ends stop →
    Follows source (fun _ => True) (watchBody start stop) (readBody start stop)

/-- What a tag opens ends behind a tag. -/
abbrev StopsBehind (source : Source) (found : Node × Nat) : Prop := source.Begins found.2

omit [overflow.Fits source] in
/-- The bodies of branches are read from tag to tag. -/
theorem follows_readBranches {branches : List (Segment × Nat)}
    (bodies : FollowsBodies source watchBody readBody)
    (begins : ∀ branch ∈ branches, source.Begins branch.1.start)
    (ends : ∀ branch ∈ branches, source.Ends branch.2) :
    Follows source (fun _ => True) (readBranches overflow source limits watchBody branches)
      (readBranches overflow source limits readBody branches) := by
  induction branches with
  | nil => exact .pure trivial
  | cons branch rest ih =>
      obtain ⟨segment, stop⟩ := branch
      have others := ih (fun _ isBranch => begins _ (.tail _ isBranch))
        fun _ isBranch => ends _ (.tail _ isBranch)
      rw [readBranches, readBranches]
      refine (bodies (begins _ (.head _)) (ends _ (.head _))).bind fun body _ => ?_
      cases segment.condition with
      | none => exact others.bind fun _ _ => .pure trivial
      | some condition => exact .bind .any fun _ _ => others.bind fun _ _ => .pure trivial

/-- A loop is read from tag to tag. -/
theorem follows_readLoop (bodies : FollowsBodies source watchBody readBody)
    (isTag : IsTag source tag) (ends : source.Ends limit) :
    Follows source (StopsBehind source)
      (readLoop overflow source limits watchBody rounds depth tag statement limit)
      (readLoop overflow source limits readBody rounds depth tag statement limit) := by
  refine .bind .any fun _ _ => .bind .any fun header _ => ?_
  refine (follows_requireEnd isTag ends).bind fun close isClose => .bind .any fun entries _ => ?_
  refine (bodies isTag.begins isClose.ends).bind fun body _ => .bind .any fun span _ => ?_
  exact .pure isClose.begins

/-- A choice is read from tag to tag. -/
theorem follows_readChoice (bodies : FollowsBodies source watchBody readBody)
    (isTag : IsTag source tag) (ends : source.Ends limit) :
    Follows source (StopsBehind source)
      (readChoice overflow source limits watchBody rounds depth tag statement limit)
      (readChoice overflow source limits readBody rounds depth tag statement limit) := by
  refine .bind .any fun _ _ => .ite (fun _ => .failAt) fun _ => ?_
  refine (follows_requireEnd isTag ends).bind fun close isClose => ?_
  refine (follows_collect isTag.begins isClose.ends).bind fun ⟨segments, bounds⟩ bounded => ?_
  refine (follows_readBranches bodies (fun _ isBranch => ?_) fun _ isBranch => ?_).bind
    fun _ _ => .bind .any fun span _ => .pure isClose.begins
  · obtain isFirst | isSegment := List.mem_cons.mp (List.of_mem_zip isBranch).1
    · rw [isFirst]
      exact isTag.begins
    · exact bounded.begins _ isSegment
  · exact bounded.ends _ (List.of_mem_zip isBranch).2

/-- A tag is read with what it opens. -/
theorem follows_readTag (bodies : FollowsBodies source watchBody readBody)
    (isTag : IsTag source tag) (ends : source.Ends limit) :
    Follows source (StopsBehind source)
      (readTag overflow source limits watchBody rounds depth tag limit)
      (readTag overflow source limits readBody rounds depth tag limit) := by
  rw [readTag, readTag]
  cases tag.kind with
  | interpolation | comment => exact .bind .any fun _ _ => .bind .any fun _ _ => .pure isTag.begins
  | statement =>
      refine .bind .any fun statement _ => ?_
      cases statement.keyword? with
      | none => exact .failAt
      | some keyword =>
      cases keyword with
      | opens kind =>
          cases kind with
          | choice => exact follows_readChoice bodies isTag ends
          | loop => exact follows_readLoop bodies isTag ends
      | closes | elseIf | otherwise => exact .failAt

/-- A range between tags is read from tag to tag. -/
theorem follows_readRange : FollowsBodies source (readRange overflow source limits rounds depth)
    (readRange overflow source limits rounds depth) := by
  induction rounds generalizing depth with
  | zero => exact fun _ _ _ _ => .outOfPlace
  | succ rounds ih =>
      intro start stop begins ends
      rw [readRange, readRange]
      refine .ite (fun _ => ?_) fun _ => .pure trivial
      refine (follows_seek begins ends).bind fun tag? areTags => ?_
      cases tag? with
      | none => exact .bind .any fun _ _ => .pure trivial
      | some tag =>
          refine .bind .any fun before _ => ?_
          refine (follows_readTag ih (areTags tag rfl) ends).bind fun found begins => ?_
          obtain ⟨node, next⟩ := found
          exact (ih begins ends).bind fun _ _ => .pure trivial

/-- A whole source is read from tag to tag. -/
theorem follows_compile (overflow : Overflow) (source : Source) [overflow.Fits source]
    (limits : Limits) :
    Follows source (fun _ => True) (compile overflow source limits)
      (compile overflow source limits) :=
  (follows_readRange (.inl rfl) (.inl rfl)).bind fun _ _ => .pure trivial

end Reading

end Checked

/-- Every tag that reading comes across lies in the range that it is looked for in. Reading that
keeps a record of the tags that are found, each with the offset and the limit of the search, gives
the same template or diagnostic; and each tag in the record is one of the tags of the source, starts
at the offset or behind it, and ends at the limit or in front of it. -/
theorem Template.sightings_contained (source : Source) (limits : Limits) :
    ∃ seen, (Checked.compile .wraps source limits : Checked.Watching Template).run.run [] =
        some (Template.compile source limits, seen) ∧
      ∀ sighting ∈ seen, ∃ tag, .tag tag ∈ source.pieces ∧ sighting.tag = tag.range ∧
        sighting.start ≤ tag.start ∧ tag.stop ≤ sighting.limit := by
  have follows := Checked.follows_compile .wraps source limits
  have same := follows.same []
  rw [Checked.run_compile, Option.map_eq_some_iff] at same
  obtain ⟨⟨_, seen⟩, ran, rfl⟩ := same
  refine ⟨seen, ran, fun sighting isSeen => ?_⟩
  obtain ⟨⟨tag, isPiece, isRange⟩, start_le, stop_le⟩ := follows.contained ran nofun sighting isSeen
  rw [← isRange] at start_le stop_le
  exact ⟨tag, isPiece, isRange.symm, start_le, stop_le⟩

end TextTemplate
