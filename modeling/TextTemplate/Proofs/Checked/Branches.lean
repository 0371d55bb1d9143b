import TextTemplate.Proofs.Checked.Blocks
import TextTemplate.Proofs.Checked.Expressions

/-! # Dividing choices by offsets

The branches of a choice are collected tag by tag up to its closer: a list of where their conditions
and bodies start, and, grown apart from it, a list of where the bodies stop. Loops inside are passed
over by a search for their closers, and choices inside are counted. The lists belong together: they
are those of the division. -/

namespace TextTemplate.Checked

open OutlineItem

variable (overflow : Overflow) (source : Source) (limits : Limits)

/-! ### Collecting branches -/

/-- A condition by the offsets of its text, and the tag that it stands in. -/
structure ConditionRange where
  start : Nat
  stop : Nat
  tag : TagRange

/-- A branch by its condition, if it has one, and the offset where its body starts. -/
structure Segment where
  condition : Option ConditionRange
  start : Nat

/-- A branch and the offset of its tag, in front of others. -/
def Segment.push (segment : Segment) (bound : Nat) (others : List Segment × List Nat) :
    List Segment × List Nat :=
  (segment :: others.1, bound :: others.2)

variable {m : Type → Type} [Monad m] [MonadReading m]

/-- The branches that start from a position on, and the offsets where bodies stop. `hasElse` tells
whether the last branch has come, `nested` counts the choices that are open inside, and there are
fewer than `rounds` tags. -/
def collect : Nat → Nat → Bool → Nat → Nat → Nat → m (List Segment × List Nat)
  | 0, _, _, _, _, _ => perform outOfPlace
  | rounds + 1, depth, hasElse, nested, position, limit => do
      match ← seek overflow source position limit with
      | none => return ([], [limit])
      | some tag =>
          match ← perform (keywordOf source tag) with
          | some (.opens .choice) => collect rounds depth hasElse (nested + 1) tag.stop limit
          | some (.closes .choice) => collect rounds depth hasElse (nested - 1) tag.stop limit
          | some (.opens .loop) =>
              match ← matchingEnd overflow source limits rounds depth .loop 0 tag.stop limit with
              | some close => collect rounds depth hasElse nested close.stop limit
              | none => collect rounds depth hasElse nested tag.stop limit
          | some .elseIf =>
              if nested = 0 then
                if hasElse then
                  perform (failAt overflow source .branchAfterElse tag.start tag.stop)
                else
                  let statement ← perform (statement source tag)
                  if statement.isBare then
                    perform
                      (failAt overflow source (.conditionRequired "elif") tag.start tag.stop)
                  else
                    let others ← collect rounds depth hasElse nested tag.stop limit
                    return Segment.push ⟨some ⟨statement.start, statement.stop, tag⟩, tag.stop⟩
                      tag.start others
              else collect rounds depth hasElse nested tag.stop limit
          | some .otherwise =>
              if nested = 0 then
                if hasElse then perform (failAt overflow source .duplicateElse tag.start tag.stop)
                else
                  let statement ← perform (statement source tag)
                  if statement.isBare then
                    let others ← collect rounds depth true nested tag.stop limit
                    return Segment.push ⟨none, tag.stop⟩ tag.start others
                  else
                    perform (failAt overflow source (.trailingText "else") tag.start tag.stop)
              else collect rounds depth hasElse nested tag.stop limit
          | some (.closes .loop) | none => collect rounds depth hasElse nested tag.stop limit

/-- Reads the bodies of branches, and their conditions. The last body without one is kept. -/
def readBranches (readBody : Nat → Nat → m (List Node)) :
    List (Segment × Nat) → m (List (Expr × List Node) × Option (List Node))
  | [] => return ([], none)
  | (segment, stop) :: rest => do
      let body ← readBody segment.start stop
      match segment.condition with
      | some condition =>
          let expr ← perform
            (expression overflow source limits condition.tag condition.start condition.stop)
          let (branches, otherwise) ← readBranches readBody rest
          return ((expr, body) :: branches, otherwise)
      | none =>
          let (branches, otherwise) ← readBranches readBody rest
          return (branches, otherwise.orElse fun _ => some body)

/-! ### Branches of pieces -/

/-- The offsets of a branch. -/
def segmentOf (branch : Branch) : Segment :=
  ⟨if branch.tag.keyword? = some .otherwise then none
    else some ⟨branch.tag.statement.start, branch.tag.statement.stop, branch.tag.range⟩,
    branch.tag.stop⟩

/-- The offsets of branches and of where bodies stop, up to a limit. -/
def collected (limit : Nat) (branches : List Branch) : List Segment × List Nat :=
  (branches.map segmentOf, branches.map (·.tag.start) ++ [limit])

variable {overflow source limits} {rounds depth room start stop : Nat} {hasElse : Bool}
  {nested : List OpenBlock} {pieces : List Piece}

/-- A text is passed over. -/
theorem collect_text {count place : Nat} {content : List Char} {rest : List Piece}
    (covers : Covers overflow source start stop (.text content place :: rest)) :
    (collect overflow source limits rounds depth hasElse count start stop : Reading _) =
        collect overflow source limits rounds depth hasElse count (start + byteLength content)
          stop ∧
      Covers overflow source (start + byteLength content) stop rest := by
  cases covers with
  | text _ _ passes _ covers =>
      refine ⟨?_, covers⟩
      cases rounds with
      | zero => rfl
      | succ rounds => rw [collect, collect, seek_eq, seek_eq, passes]

variable [overflow.Fits source]

/-- A tag that starts no branch here leaves the branches behind it. -/
theorem divide_tag {tag : Tag} {rest : List Piece}
    (noBranch : ¬(nested.isEmpty ∧
      (tag.keyword? = some .elseIf ∨ tag.keyword? = some .otherwise))) :
    (Branch.divide nested (.tag tag :: rest)).2 =
      (Branch.divide (OpenBlock.after tag nested) rest).2 := by
  simp only [Branch.divide, if_neg noBranch]

/-- The branches of pieces, as they are collected. -/
def collectedFrom (source : Source) (hasElse : Bool) (limit : Nat) (branches : List Branch) :
    Except Fault (List Segment × List Nat) :=
  (Node.Parser.checkBranches source hasElse branches).map fun _ => collected limit branches

/-- A branch is collected before the others. -/
theorem collectedFrom_cons {branch : Branch} {branches : List Branch} {limit : Nat} :
    ((Node.Parser.checkBranches source hasElse branches).map fun _ =>
        collected limit (branch :: branches)) = (do
      let others ← collectedFrom source hasElse limit branches
      return (segmentOf branch).push branch.tag.start others) := by
  rw [collectedFrom]
  cases Node.Parser.checkBranches source hasElse branches <;> rfl

/-- A branch with a condition may follow any but the last one. -/
theorem collectedFrom_elseIf {tag : Tag} {branches : List Branch} {limit : Nat}
    (isKeyword : tag.keyword? = some .elseIf) :
    collectedFrom source hasElse limit (⟨tag, pieces⟩ :: branches) = (do
      Node.Parser.require source (!hasElse) tag .branchAfterElse
      Node.Parser.require source (!tag.statement.arguments.isEmpty) tag (.conditionRequired "elif")
      let others ← collectedFrom source hasElse limit branches
      return Segment.push ⟨some ⟨tag.statement.start, tag.statement.stop, tag.range⟩, tag.stop⟩
        tag.start others) := by
  rw [collectedFrom, Node.Parser.checkBranches, if_pos isKeyword]
  simp only [map_of_bind, collectedFrom_cons]
  simp [segmentOf, isKeyword]

/-- The last branch has no condition, and there is only one. -/
theorem collectedFrom_otherwise {tag : Tag} {branches : List Branch} {limit : Nat}
    (isKeyword : tag.keyword? = some .otherwise) :
    collectedFrom source hasElse limit (⟨tag, pieces⟩ :: branches) = (do
      Node.Parser.require source (!hasElse) tag .duplicateElse
      Node.Parser.require source tag.statement.arguments.isEmpty tag (.trailingText "else")
      let others ← collectedFrom source true limit branches
      return Segment.push ⟨none, tag.stop⟩ tag.start others) := by
  rw [collectedFrom, Node.Parser.checkBranches, if_neg (by simp [isKeyword])]
  simp only [map_of_bind, collectedFrom_cons]
  simp [segmentOf, isKeyword]

/-- A tag of the choice with a condition starts a branch. -/
theorem collect_elseIf {tag : Tag} {rest : List Piece}
    (covers : Covers overflow source start stop (.tag tag :: rest))
    (isKeyword : tag.keyword? = some .elseIf)
    (later : collect overflow source limits rounds depth hasElse 0 tag.stop stop =
      found source (collectedFrom source hasElse stop (Branch.divide [] rest).2)) :
    collect overflow source limits (rounds + 1) depth hasElse 0 start stop =
      found source (collectedFrom source hasElse stop (Branch.divide [] (.tag tag :: rest)).2) := by
  obtain ⟨-, next, inner, -⟩ := covers.next_tag
  rw [collect, seek_eq, next, Branch.divide_branch isKeyword (.inl rfl),
    collectedFrom_elseIf isKeyword]
  simp only [pure_bind, keywordOf_eq inner, isKeyword, perform_eq, lift_some, if_pos,
    Tag.stop_range, (statement_eq inner).1, Statement.isBare_range]
  refine found_require_not (found_require_not ?_)
  rw [later]
  exact found_bind fun _ _ => rfl

/-- A tag of the choice without a condition starts its last branch. -/
theorem collect_otherwise {tag : Tag} {rest : List Piece}
    (covers : Covers overflow source start stop (.tag tag :: rest))
    (isKeyword : tag.keyword? = some .otherwise)
    (later : collect overflow source limits rounds depth true 0 tag.stop stop =
      found source (collectedFrom source true stop (Branch.divide [] rest).2)) :
    collect overflow source limits (rounds + 1) depth hasElse 0 start stop =
      found source (collectedFrom source hasElse stop (Branch.divide [] (.tag tag :: rest)).2) := by
  obtain ⟨-, next, inner, -⟩ := covers.next_tag
  rw [collect, seek_eq, next, Branch.divide_branch isKeyword (.inr rfl),
    collectedFrom_otherwise isKeyword]
  simp only [pure_bind, keywordOf_eq inner, isKeyword, perform_eq, lift_some, if_pos,
    Tag.stop_range, (statement_eq inner).1, Statement.isBare_range]
  refine found_require_not (found_require ?_)
  rw [later]
  exact found_bind fun _ _ => rfl

/-- A search that finds the closer of a block has found a closer. -/
theorem eq_some_of_requireFound {search : Reading (Option TagRange)} {opener close : TagRange}
    {kind : BlockKind}
    (closes : (search >>= requireFound overflow source opener kind) = pure close) :
    search = pure (some close) := by
  rcases search with _ | fault | close?
  · cases closes
  · cases closes
  · cases close? with
    | some other =>
        cases closes
        rfl
    | none =>
        have never : failAt overflow source (.missingCloser kind) opener.start opener.stop =
            pure close := closes
        rw [failAt_eq] at never
        cases never

/-- The blocks that are open after a tag inside choices. -/
theorem after_choices {tag : Tag} (alike : ∀ inner ∈ nested, inner.kind = .choice) :
    OpenBlock.after tag nested =
      match tag.keyword? with
      | some (.opens kind) => ⟨kind, tag⟩ :: nested
      | some (.closes .choice) => nested.tail
      | _ => nested := by
  match isKeyword : tag.keyword? with
  | some (.opens kind) => simp [OpenBlock.after, isKeyword]
  | some (.closes kind) =>
      cases nested with
      | nil => cases kind <;> simp [OpenBlock.after, isKeyword]
      | cons innermost outer =>
          have isChoice := alike innermost (.head _)
          cases kind <;> simp [OpenBlock.after, isKeyword, isChoice]
  | none | some .elseIf | some .otherwise => simp [OpenBlock.after, isKeyword]

/-- A loop inside a choice that is closed is closed as well; the search for its closer passes over
it, and so does the division of the choice. -/
theorem matchingEnd_inside {block : OpenBlock} {tag closer : Tag} {after : List Piece}
    (covers : Covers overflow source start stop pieces) (enough : pieces.length < rounds)
    (isChoice : block.kind = .choice) (alike : ∀ inner ∈ nested, inner.kind = .choice)
    (isDepth : depth ≤ limits.maxBlockDepth + 1) (isRoom : depth + room ≤ limits.maxBlockDepth + 2)
    (fits : nested.length + 2 ≤ room)
    (passes : passOver limits.maxBlockDepth room block (⟨.loop, tag⟩ :: nested)
      (pieces ++ .tag closer :: after) = .ok ⟨pieces, closer, after⟩) :
    ∃ (close : Tag) (between : List Piece),
      (matchingEnd overflow source limits rounds depth .loop 0 start stop : Reading _) =
          pure (some close.range) ∧
        Covers overflow source close.stop stop between ∧ between.length < pieces.length ∧
        (Branch.divide (⟨.loop, tag⟩ :: nested) pieces).2 = (Branch.divide nested between).2 ∧
        passOver limits.maxBlockDepth room block nested (between ++ .tag closer :: after) =
          .ok ⟨between, closer, after⟩ := by
  obtain ⟨left, rfl⟩ : ∃ left, room = left + nested.length + 1 :=
    ⟨room - nested.length - 1, by omega⟩
  have other : ∀ next ∈ (nested ++ [block]).head?, next.kind ≠ .loop := by
    cases nested with
    | nil => simp [isChoice]
    | cons innermost outer => simp [alike innermost (.head _)]
  obtain ⟨inside, close, between, rfl, closed, passes⟩ := exists_inside other passes
  -- The search sees only the pieces of the choice, and has more room than is left there.
  have alone : passOver limits.maxBlockDepth (limits.maxBlockDepth + 1 - depth) ⟨.loop, tag⟩ []
      (inside ++ .tag close :: between) = .ok ⟨inside, close, between⟩ :=
    passOver_congr (by omega) closed
  have search : (matchingEnd overflow source limits rounds depth .loop 0 start stop >>=
      requireFound overflow source tag.range .loop) = found source (closerOf source _) :=
    finds ⟨.loop, tag⟩ [] covers enough nofun
      (show depth + (limits.maxBlockDepth + 1 - depth) = limits.maxBlockDepth + 1 by omega)
  rw [alone, closerOf_ok, found_ok] at search
  have division : (Branch.divide ([] ++ ⟨.loop, tag⟩ :: nested) _).2 = _ :=
    congrArg Prod.snd (Branch.divide_passOver alone)
  refine ⟨close, between, eq_some_of_requireFound search, (covers.behind alone).2.2, ?_, division,
    passes⟩
  rw [List.length_append, List.length_cons]
  omega

/-- The branches by offsets are those of the division of a choice that is closed. -/
theorem collect_eq {block : OpenBlock} {closer : Tag} {after : List Piece}
    (covers : Covers overflow source start stop pieces) (enough : pieces.length < rounds)
    (isChoice : block.kind = .choice) (alike : ∀ inner ∈ nested, inner.kind = .choice)
    (isDepth : depth ≤ limits.maxBlockDepth + 1) (isRoom : depth + room ≤ limits.maxBlockDepth + 2)
    (passes : passOver limits.maxBlockDepth room block nested (pieces ++ .tag closer :: after) =
      .ok ⟨pieces, closer, after⟩) :
    collect overflow source limits rounds depth hasElse nested.length start stop =
      found source (collectedFrom source hasElse stop (Branch.divide nested pieces).2) := by
  induction isLength : pieces.length using Nat.strong_induction_on
    generalizing rounds start pieces nested hasElse with
  | _ length ih =>
  subst isLength
  match pieces with
  | [] =>
      obtain ⟨rounds, rfl⟩ : ∃ more, rounds = more + 1 := ⟨rounds - 1, by simp at enough; omega⟩
      cases covers
      rw [collect, seek_eq, nextTag_past (.inl (Nat.le_succ _))]
      rfl
  | .text content place :: rest =>
      obtain ⟨same, behind⟩ := collect_text covers
      obtain ⟨closes, _⟩ | ⟨_, _, grown, others, tail⟩ := passOver_cons_iff.mp passes
      · cases closes
      · cases grown
        cases others
        exact same.trans (@ih _ (Nat.lt_succ_self _) _ _ _ _ rest behind (Nat.lt_of_succ_lt enough)
          alike tail rfl)
  | .unclosed kind place :: rest =>
      obtain ⟨never, _⟩ | ⟨_, _, never, _⟩ := passOver_cons_iff.mp passes <;> cases never
  | .tag tag :: rest =>
      obtain ⟨rounds, rfl⟩ : ∃ more, rounds = more + 1 := ⟨rounds - 1, by omega⟩
      obtain ⟨-, next, inner, behind⟩ := covers.next_tag
      have fewer : rest.length < rounds := Nat.lt_of_succ_lt_succ enough
      obtain ⟨_, never, _⟩ | ⟨nested', _, grown, others, tail⟩ := passOver_cons_iff.mp passes
      · cases never
      cases others
      have isAfter := (after_of_grow grown).symm.trans (after_choices alike)
      by_cases starts : nested.isEmpty ∧
          (tag.keyword? = some .elseIf ∨ tag.keyword? = some .otherwise)
      · obtain ⟨isEmpty, isKeyword⟩ := starts
        obtain rfl := List.isEmpty_iff.mp isEmpty
        obtain isKeyword | isKeyword := isKeyword
        · obtain rfl : nested' = [] := by rw [isAfter, isKeyword]
          exact collect_elseIf covers isKeyword
            (@ih _ (Nat.lt_succ_self _) _ _ hasElse [] rest behind fewer alike tail rfl)
        · obtain rfl : nested' = [] := by rw [isAfter, isKeyword]
          exact collect_otherwise covers isKeyword
            (@ih _ (Nat.lt_succ_self _) _ _ true [] rest behind fewer alike tail rfl)
      -- Where the tag starts no branch, the search goes on with the blocks that are open behind.
      have stays (alike : ∀ inner ∈ nested', inner.kind = .choice) :
          collect overflow source limits rounds depth hasElse nested'.length tag.stop stop =
            found source (collectedFrom source hasElse stop
              (Branch.divide nested (.tag tag :: rest)).2) := by
        rw [divide_tag starts, after_of_grow grown]
        exact ih _ (Nat.lt_succ_self _) behind fewer alike tail rfl
      rw [collect, seek_eq, next]
      simp only [pure_bind, keywordOf_eq inner, perform_eq, lift_some, Tag.stop_range]
      match isKeyword : tag.keyword? with
      | some (.opens .choice) =>
          obtain rfl : nested' = ⟨.choice, tag⟩ :: nested := by rw [isAfter, isKeyword]
          exact stays (List.forall_mem_cons.mpr ⟨rfl, alike⟩)
      | some (.closes .choice) =>
          obtain rfl : nested' = nested.tail := by rw [isAfter, isKeyword]
          rw [List.length_tail] at stays
          exact stays fun inner isInner => alike inner (List.mem_of_mem_tail isInner)
      | some (.opens .loop) =>
          obtain rfl : nested' = ⟨.loop, tag⟩ :: nested := by rw [isAfter, isKeyword]
          rw [grow_opens isKeyword] at grown
          split at grown
          next => cases grown
          next fits =>
          obtain ⟨close, between, search, covers, shorter, division, passes⟩ :=
            matchingEnd_inside behind fewer isChoice alike isDepth isRoom (Nat.not_lt.mp fits) tail
          rw [divide_tag starts, after_choices alike, isKeyword, division]
          simp only [search, pure_bind, Tag.stop_range]
          exact ih _ (Nat.lt_succ_of_lt shorter) covers (Nat.lt_trans shorter fewer) alike passes
            rfl
      | some .elseIf | some .otherwise =>
          obtain rfl : nested' = nested := by rw [isAfter, isKeyword]
          have inside : nested'.length ≠ 0 := by simpa [isKeyword] using starts
          simp only [if_neg inside]
          exact stays alike
      | some (.closes .loop) | none =>
          obtain rfl : nested' = nested := by rw [isAfter, isKeyword]
          exact stays alike

/-! ### Reading branches -/

/-- Behind the last branch there is none. -/
theorem nil_of_checkBranches {branches : List Branch}
    (checks : Node.Parser.checkBranches source true branches = .ok ()) : branches = [] := by
  cases branches with
  | nil => rfl
  | cons branch rest =>
      rw [Node.Parser.checkBranches] at checks
      split at checks <;> cases checks

/-- Branches are checked one after the other. -/
theorem checkBranches_cons {branch : Branch} {branches : List Branch}
    (checks : Node.Parser.checkBranches source hasElse (branch :: branches) = .ok ()) :
    ∃ hasElse, Node.Parser.checkBranches source hasElse branches = .ok () ∧
      (branch.tag.keyword? = some .otherwise → branches = []) := by
  rw [Node.Parser.checkBranches] at checks
  split at checks
  next isKeyword =>
    obtain ⟨_, -, checks⟩ := bind_eq_ok_iff.mp checks
    obtain ⟨_, -, checks⟩ := bind_eq_ok_iff.mp checks
    exact ⟨hasElse, checks, by simp [isKeyword]⟩
  next =>
    obtain ⟨_, -, checks⟩ := bind_eq_ok_iff.mp checks
    obtain ⟨_, -, checks⟩ := bind_eq_ok_iff.mp checks
    exact ⟨true, checks, fun _ => nil_of_checkBranches checks⟩

/-- Whether bodies are read by offsets as they are by the pieces that cover them. -/
def ReadsAs (overflow : Overflow) (source : Source) (rounds : Nat)
    (readAt : Nat → Nat → Reading (List Node)) (readBody : Node.Parser.ReadBody) : Prop :=
  ∀ ⦃start stop : Nat⦄ ⦃pieces : List Piece⦄, Covers overflow source start stop pieces →
    pieces.length < rounds → readAt start stop = found source (readBody pieces)

section Reading

variable {readAt : Nat → Nat → Reading (List Node)} {readBody : Node.Parser.ReadBody}

/-- A branch with a condition is read before the others. -/
theorem readBranches_condition {branch : Branch} {bound : Nat} {others : List (Segment × Nat)}
    {following : Except Fault (List (Expr × List Node) × Option (List Node))}
    (notLast : branch.tag.keyword? ≠ some .otherwise)
    (inner : cut? source.text branch.tag.innerStart branch.tag.innerStop = some branch.tag.inner)
    (body : readAt branch.tag.stop bound = found source (readBody branch.pieces))
    (later : readBranches overflow source limits readAt others = found source following) :
    readBranches overflow source limits readAt ((segmentOf branch, bound) :: others) =
      found source (do
        let first ← Node.Parser.readBranch source limits readBody branch
        let (branches, otherwise) ← following
        return (first :: branches, otherwise)) := by
  have condition : expression overflow source limits branch.tag.range branch.tag.statement.start
      branch.tag.statement.stop = _ := expression_eq (statement_eq inner).2
  simp only [readBranches, segmentOf, if_neg notLast, body, Node.Parser.readBranch, bind_assoc,
    pure_bind]
  -- The body of a branch is read before its condition.
  refine found_bind fun nodes _ => ?_
  rw [condition, later]
  exact found_bind fun expr _ => found_bind fun others _ => rfl

/-- The branches by offsets are read as the branches are. -/
theorem readBranches_eq {first : Branch} {branches : List Branch}
    (bodies : ReadsAs overflow source rounds readAt readBody)
    (inner : cut? source.text first.tag.innerStart first.tag.innerStop = some first.tag.inner)
    (covers : Covers overflow source first.tag.stop stop
      (first.pieces ++ branches.flatMap Branch.whole))
    (enough : (first.pieces ++ branches.flatMap Branch.whole).length < rounds)
    (checks : Node.Parser.checkBranches source hasElse branches = .ok ())
    (isLast : first.tag.keyword? = some .otherwise → branches = []) :
    readBranches overflow source limits readAt
        ((segmentOf first :: (collected stop branches).1).zip (collected stop branches).2) =
      found source (Node.Parser.readBranches source limits readBody (first :: branches)) := by
  induction branches generalizing first hasElse with
  | nil =>
      rw [List.flatMap_nil, List.append_nil] at covers enough
      have body := bodies covers enough
      simp only [collected, List.map_nil, List.nil_append, List.zip_cons_cons, List.zip_nil_left]
      by_cases otherwise : first.tag.keyword? = some .otherwise
      · simp only [readBranches, segmentOf, if_pos otherwise, body, Node.Parser.readBranches]
        exact found_bind fun _ _ => rfl
      · have none : readBranches overflow source limits readAt [] =
            found source (.ok ([], none)) := rfl
        rw [Node.Parser.readBranches, if_neg otherwise]
        exact readBranches_condition otherwise inner body none
  | cons next rest ih =>
      rw [List.flatMap_cons, Branch.whole, List.cons_append] at covers enough
      -- The tag of the next branch divides the range: in front of it is the body of this one.
      obtain ⟨body, behind⟩ := covers.divide
      obtain ⟨-, -, innerNext, behind⟩ := behind.next_tag
      obtain ⟨hasElse, checks, isLastNext⟩ := checkBranches_cons checks
      have otherwise : first.tag.keyword? ≠ some .otherwise := fun last =>
        List.cons_ne_nil _ _ (isLast last)
      have shorter := enough
      rw [List.length_append, List.length_cons] at shorter
      have later := ih innerNext behind (by omega) checks isLastNext
      rw [Node.Parser.readBranches, if_neg otherwise]
      exact readBranches_condition otherwise inner (bodies body (by omega)) later

end Reading

end TextTemplate.Checked
