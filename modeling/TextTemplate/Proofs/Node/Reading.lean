import TextTemplate.Proofs.Node.Machine
import TextTemplate.Proofs.Node.Pieces
import TextTemplate.Proofs.Source.Positions

/-! # Reading templates is one pass

Reading outlines the pieces of a template, divides choices, and reads the insides of blocks anew.
All of that agrees with a single pass of the stack machine over what the pieces say. -/

namespace TextTemplate

open Node Node.Parser

variable {source : Source} {limits : Limits}

/-! ### The order of tags -/

/-- Whether the first of two tags starts before the second one ends. -/
def Piece.Precedes (first second : Piece) : Prop :=
  ∀ opener closer, first = .tag opener → second = .tag closer → opener.start ≤ closer.stop

/-- Whether the tags of a list follow each other. -/
def Ordered (pieces : List Piece) : Prop := pieces.Pairwise Piece.Precedes

/-- A list in order has a block, and its inside and what comes after it, in order. -/
theorem Ordered.block {opener closer : Tag} {inside rest : List Piece}
    (ordered : Ordered (.tag opener :: (inside ++ .tag closer :: rest))) :
    opener.start ≤ closer.stop ∧ Ordered inside ∧ Ordered rest := by
  simp only [Ordered, List.pairwise_cons, List.pairwise_append, List.mem_append,
    List.mem_cons] at ordered
  exact ⟨ordered.1 (.tag closer) (.inr (.inl rfl)) opener closer rfl rfl, ordered.2.1,
    ordered.2.2.1.2⟩

/-- Parts of a list in order are in order. -/
theorem Ordered.parts {pieces rest : List Piece} {piece : Piece}
    (ordered : Ordered (pieces ++ piece :: rest)) : Ordered pieces ∧ Ordered rest := by
  simp only [Ordered, List.pairwise_append, List.pairwise_cons] at ordered
  exact ⟨ordered.1, ordered.2.1.2⟩

namespace Piece

/-- Text in front of pieces does not change their tags. -/
theorem mem_consText {c : Char} {start : Nat} {pieces : List Piece} {tag : Tag} :
    .tag tag ∈ consText c start pieces ↔ .tag tag ∈ pieces := by
  unfold consText
  split <;> simp

/-- The tags of a text start where the text does or later. -/
theorem start_of_scan {offset skip : Nat} {text : List Char} {tag : Tag}
    (h : .tag tag ∈ scan offset skip text) : offset ≤ tag.start := by
  induction text generalizing offset skip with
  | nil => cases h
  | cons c rest ih =>
      cases skip with
      | succ skip => exact Nat.le_trans (Nat.le_add_right ..) (ih h)
      | zero =>
          simp only [scan] at h
          split at h
          next => exact Nat.le_trans (Nat.le_add_right ..) (ih (mem_consText.mp h))
          next =>
            split at h
            next => simp at h
            next =>
              rcases List.mem_cons.mp h with here | later
              · cases here
                exact Nat.le_refl _
              · exact Nat.le_trans (Nat.le_add_right ..) (ih later)

/-- The tags of a text follow each other. -/
theorem ordered_scan (offset skip : Nat) (text : List Char) : Ordered (scan offset skip text) := by
  induction text generalizing offset skip with
  | nil => exact .nil
  | cons c rest ih =>
      cases skip with
      | succ skip => exact ih _ _
      | zero =>
          simp only [scan]
          split
          next =>
            have tail := ih (offset + c.utf8Size) 0
            unfold consText
            split
            next found =>
              -- The text is one piece with the text behind it.
              rw [found] at tail
              exact .cons (fun _ _ _ _ same => nomatch same) tail.tail
            next => exact .cons (fun _ _ _ _ same => nomatch same) tail
          next =>
            split
            next => simp [Ordered]
            next =>
              refine .cons (fun second isSecond opener closer first same => ?_) (ih _ _)
              cases first
              subst same
              have later := start_of_scan isSecond
              simp only [Tag.stop, Tag.innerStop, Tag.innerStart]
              omega

end Piece

/-! ### Reading as one map -/

namespace Node.Parser

/-- The function that reads the insides of blocks, if any may be opened. -/
def bodyReader (source : Source) (limits : Limits) : Nat → Option ReadBody
  | 0 => none
  | room + 1 => some (read source limits room)

variable {room : Nat} {pieces : List Piece}

/-- Pieces are read one item of their outline after the other. -/
theorem read_eq (room : Nat) (pieces : List Piece) :
    read source limits room pieces =
      (OutlineItem.outline limits.maxBlockDepth room pieces).mapM
        (readItem source limits (bodyReader source limits room)) := by
  cases room <;> rfl

/-- A condition holds when requiring it succeeds. -/
theorem require_eq_ok_iff {condition : Bool} {tag : Tag} {cause : Cause} {result : Unit} :
    require source condition tag cause = .ok result ↔ condition = true := by
  cases condition <;> simp [require]

/-- A block cannot be read when something is wrong inside it. -/
theorem readItem_fault {readBody? : Option ReadBody} {block : OpenBlock} {fault : Located Cause}
    {node : Node} : readItem source limits readBody? (.block block (.error fault)) ≠ .ok node := by
  intro reads
  cases readBody? with
  | none => cases reads
  | some readBody =>
      obtain ⟨kind, opener⟩ := block
      cases kind with
      | loop =>
          simp only [readItem, readLoop, closedInside, locate, bind_eq_ok_iff] at reads
          simp at reads
      | choice =>
          simp only [readItem, readChoice, closedInside, locate, bind_eq_ok_iff] at reads
          simp at reads

/-- An inside is closed when nothing stands behind the word of its closer. -/
theorem closedInside_eq_ok_iff {kind : BlockKind} {inside result : Inside} :
    closedInside source kind (.ok inside) = .ok result ↔
      inside.closer.statement.arguments.isEmpty = true ∧ result = inside := by
  simp only [closedInside, locate, bind_eq_ok_iff, require_eq_ok_iff]
  simp only [pure, Except.pure, Except.ok.injEq, exists_and_left, exists_eq_left', exists_const,
    eq_comm (a := result)]

/-- A loop is read from a header, a closer that has nothing behind its word, and a body. -/
theorem readLoop_eq_ok_iff {readBody : ReadBody} {opener : Tag} {inside : Inside} {node : Node} :
    readLoop source limits readBody opener (.ok inside) = .ok node ↔ ∃ header entries body,
      LoopHeader.ofStatement opener.statement opener.inner = .ok header ∧
        inside.closer.statement.arguments.isEmpty = true ∧
        Node.Parser.expression source limits opener header.source header.start = .ok entries ∧
        readBody inside.pieces = .ok body ∧
        node = .loop header.item header.index entries body
          (source.span opener.start inside.closer.stop) := by
  have header_iff {header : LoopHeader} :
      locate source ((LoopHeader.ofStatement opener.statement opener.inner).mapError opener.fault) =
        .ok header ↔ LoopHeader.ofStatement opener.statement opener.inner = .ok header := by
    cases LoopHeader.ofStatement opener.statement opener.inner with
    | error => exact ⟨nofun, nofun⟩
    | ok found =>
        constructor
        · rintro ⟨⟩
          rfl
        · rintro ⟨⟩
          rfl
  simp only [readLoop, bind_eq_ok_iff, header_iff, closedInside_eq_ok_iff]
  simp [pure, Except.pure, eq_comm (a := node)]

/-- A choice is read from a condition, branches in order, and a closer that has nothing behind its
word. -/
theorem readChoice_eq_ok_iff {readBody : ReadBody} {opener : Tag} {inside : Inside} {node : Node} :
    readChoice source limits readBody opener (.ok inside) = .ok node ↔ ∃ branches otherwise,
      opener.statement.arguments.isEmpty = false ∧
        inside.closer.statement.arguments.isEmpty = true ∧
        checkBranches source false (Branch.divide [] inside.pieces).2 = .ok () ∧
        readBranches source limits readBody
          (⟨opener, (Branch.divide [] inside.pieces).1⟩ :: (Branch.divide [] inside.pieces).2) =
            .ok (branches, otherwise) ∧
        node = .choice branches otherwise (source.span opener.start inside.closer.stop) := by
  have done_iff {outcome : Except Fault Unit} : (∃ done, outcome = .ok done) ↔ outcome = .ok () :=
    ⟨fun ⟨_, h⟩ => h, fun h => ⟨_, h⟩⟩
  simp only [readChoice, bind_eq_ok_iff, require_eq_ok_iff, closedInside_eq_ok_iff]
  simp [pure, Except.pure, eq_comm (a := node), done_iff]

/-! ### Bodies are read -/

/-- Outside of all blocks there is room for the blocks of a body. -/
theorem room_of_outside {room bound : Nat} (fits : room + 1 ≤ bound) :
    ([] : List OpenBlock).length + 1 + room ≤ bound := by
  rw [List.length_nil]
  omega

/-- A piece between others stays between them when they are reversed. -/
theorem reverse_between (first second inside : List Piece) (piece : Piece) :
    (first ++ piece :: second).reverse ++ inside =
      second.reverse ++ piece :: (first.reverse ++ inside) := by
  simp

/-- The pieces of a choice stay inside it. -/
theorem outlineInside_branches {limit bound room : Nat} {block : OpenBlock} {condition : Expr}
    {events : List Event} {branches : List (Expr × List Node)} {otherwise : Option (List Node)}
    {inside rest : List Piece} (isChoice : Branches room condition events branches otherwise)
    (said : source.Says limits pieces events) (fits : room + 1 ≤ bound) :
    OutlineItem.outlineInside limit bound block [] inside (pieces ++ rest) =
      OutlineItem.outlineInside limit bound block [] (pieces.reverse ++ inside) rest := by
  -- Branches are one of two mutual notions, so the induction is on the number of their events.
  induction size : events.length using Nat.strongRecOn
    generalizing condition events branches pieces inside with
  | ind count ih =>
      cases isChoice with
      | only body => exact OutlineItem.outlineInside_walk (walk_body body said (room_of_outside fits))
      | @elseIf _ _ _ first others _ _ _ body more =>
          obtain ⟨_, tag, _, rfl, keyword, -, firstSays, after⟩ := said.divide rfl
          have fewer : others.length < count := by
            rw [← size, List.length_append, List.length_cons]
            omega
          rw [List.append_assoc,
            OutlineItem.outlineInside_walk (walk_body body firstSays (room_of_outside fits)),
            List.cons_append, OutlineItem.outlineInside, OutlineItem.grow_branch keyword (.inl rfl)]
          rw [reverse_between]
          exact ih others.length fewer more after rfl
      | otherwise body last =>
          obtain ⟨_, tag, _, rfl, keyword, -, firstSays, after⟩ := said.divide rfl
          rw [List.append_assoc,
            OutlineItem.outlineInside_walk (walk_body body firstSays (room_of_outside fits)),
            List.cons_append, OutlineItem.outlineInside, OutlineItem.grow_branch keyword (.inr rfl)]
          have passes : Walk bound [] _ [] := walk_body last after (room_of_outside fits)
          rw [reverse_between]
          exact OutlineItem.outlineInside_walk passes

/-- Where a tag starts a branch, a division cuts. -/
theorem divide_at {bound : Nat} {tag : Tag} {keyword : Keyword} {rest : List Piece}
    (walk : Walk bound [] pieces []) (isKeyword : tag.keyword? = some keyword)
    (isBranch : keyword.IsBranch) :
    Branch.divide [] (pieces ++ .tag tag :: rest) =
      (pieces, ⟨tag, (Branch.divide [] rest).1⟩ :: (Branch.divide [] rest).2) := by
  rw [Branch.divide_walk _ walk, Branch.divide_branch isKeyword isBranch, List.append_nil]

/-- Without such a tag it does not. -/
theorem divide_all {bound : Nat} (walk : Walk bound [] pieces []) :
    Branch.divide [] pieces = (pieces, []) := by
  have whole := Branch.divide_walk [] walk
  simpa [Branch.divide] using whole

mutual

/-- Pieces that say a body are read as its nodes. -/
theorem read_body : {room : Nat} → {events : List Event} → {nodes : List Node} →
    Body room events nodes → ∀ {pieces : List Piece}, source.Says limits pieces events →
    Ordered pieces → read source limits room pieces = .ok nodes
  | _, _, _, .nil, _, said, _ => by
      rw [said.eq_nil, read_eq]
      rfl
  | _, _, _, @Body.leaf _ event _ _ _ isLeaf rest, _, said, ordered => by
      obtain ⟨piece, after, rfl, here, tail⟩ := said.uncons
      have plain : piece.keyword? = none := by
        rw [(Source.keyword_of_event here).1]
        cases event <;> first | rfl | cases isLeaf
      rw [read_eq, OutlineItem.outline_plain (by simp [plain]), mapM_cons_ok_iff]
      exact ⟨_, _, readPiece_eq_ok_iff.mpr ⟨event, here, isLeaf⟩,
        (read_eq ..).symm.trans (read_body rest tail ordered.tail), rfl⟩
  | _, _, _, .loop inside rest, _, said, ordered => by
      obtain ⟨opener, insides, closer, _, rfl, ⟨opens, here⟩, ⟨closes, there⟩, insideSays, after⟩ :=
        said.block rfl rfl
      obtain ⟨header, entries, isHeader, isSource, same⟩ := (Source.event_loop_iff opens).mp here
      obtain ⟨bare, ends⟩ := (Source.event_closes_iff closes).mp there
      obtain ⟨le, orderedInside, orderedRest⟩ := ordered.block
      cases same
      cases ends
      -- The outline walks over the inside, so it takes this closer and no earlier one.
      rw [read_eq, OutlineItem.outline_opens opens,
        OutlineItem.outlineInside_walk (walk_body inside insideSays (room_of_outside (by omega))),
        OutlineItem.outlineInside_closer closes, mapM_cons_ok_iff]
      refine ⟨_, _, ?_, (read_eq ..).symm.trans (read_body rest after orderedRest), rfl⟩
      rw [← Source.span_of_le le, List.append_nil, List.reverse_reverse]
      exact readLoop_eq_ok_iff.mpr ⟨header, _, _, isHeader, bare, isSource,
        read_body inside insideSays orderedInside, rfl⟩
  | _, _, _, .choice inside rest, _, said, ordered => by
      obtain ⟨opener, insides, closer, _, rfl, ⟨opens, here⟩, ⟨closes, there⟩, insideSays, after⟩ :=
        said.block rfl rfl
      obtain ⟨given, condition, isCondition, same⟩ := (Source.event_choice_iff opens).mp here
      obtain ⟨bare, ends⟩ := (Source.event_closes_iff closes).mp there
      obtain ⟨le, orderedInside, orderedRest⟩ := ordered.block
      cases same
      cases ends
      -- The condition of the first branch stands in the opener, the others stand in their own tags.
      obtain ⟨checks, reads⟩ := read_branches inside insideSays orderedInside (by simp [opens])
        isCondition
      rw [read_eq, OutlineItem.outline_opens opens,
        outlineInside_branches inside insideSays (by omega),
        OutlineItem.outlineInside_closer closes, mapM_cons_ok_iff]
      refine ⟨_, _, ?_, (read_eq ..).symm.trans (read_body rest after orderedRest), rfl⟩
      rw [← Source.span_of_le le, List.append_nil, List.reverse_reverse]
      exact readChoice_eq_ok_iff.mpr ⟨_, _, given, bare, checks, reads, rfl⟩

/-- Pieces that say branches are divided and read as the branches. -/
theorem read_branches : {room : Nat} → {condition : Expr} → {events : List Event} →
    {branches : List (Expr × List Node)} → {otherwise : Option (List Node)} →
    Branches room condition events branches otherwise →
    ∀ {pieces : List Piece} {tag : Tag}, source.Says limits pieces events → Ordered pieces →
    tag.keyword? ≠ some .otherwise →
    Node.Parser.expression source limits tag tag.statement.arguments tag.statement.start =
      .ok condition →
    checkBranches source false (Branch.divide [] pieces).2 = .ok () ∧
      readBranches source limits (read source limits room)
        (⟨tag, (Branch.divide [] pieces).1⟩ :: (Branch.divide [] pieces).2) =
          .ok (branches, otherwise)
  | room, _, _, _, _, .only body, _, _, said, ordered, isConditional, reads => by
      have walk : Walk (room + 1) [] _ [] := walk_body body said (room_of_outside (Nat.le_refl _))
      rw [divide_all walk]
      simp [checkBranches, readBranches, readBranch, isConditional, reads,
        read_body body said ordered, bind, Except.bind, pure, Except.pure]
  | room, _, _, _, _, .elseIf body rest, _, _, said, ordered, isConditional, reads => by
      obtain ⟨_, tag, _, rfl, keyword, here, firstSays, after⟩ := said.divide rfl
      obtain ⟨orderedFirst, orderedRest⟩ := ordered.parts
      obtain ⟨given, condition, isCondition, same⟩ := (Source.event_elseIf_iff keyword).mp here
      cases same
      obtain ⟨checks, restReads⟩ := read_branches rest after orderedRest (by simp [keyword])
        isCondition
      have walk : Walk (room + 1) [] _ [] :=
        walk_body body firstSays (room_of_outside (Nat.le_refl _))
      rw [divide_at walk keyword (.inl rfl)]
      have first := read_body body firstSays orderedFirst
      -- The form of the branches is checked before any of them is read.
      constructor
      · simp [checkBranches, keyword, given, require, checks, bind, Except.bind]
      · rw [readBranches, if_neg isConditional]
        simp [restReads, readBranch, first, reads, bind, Except.bind, pure, Except.pure]
  | room, _, _, _, _, .otherwise body last, _, _, said, ordered, isConditional, reads => by
      obtain ⟨_, tag, _, rfl, keyword, here, firstSays, after⟩ := said.divide rfl
      obtain ⟨orderedFirst, orderedRest⟩ := ordered.parts
      obtain ⟨bare, _⟩ := (Source.event_otherwise_iff keyword).mp here
      have walk : Walk (room + 1) [] _ [] :=
        walk_body body firstSays (room_of_outside (Nat.le_refl _))
      have walkLast : Walk (room + 1) [] _ [] :=
        walk_body last after (room_of_outside (Nat.le_refl _))
      rw [divide_at walk keyword (.inr rfl), divide_all walkLast]
      have first := read_body body firstSays orderedFirst
      have second := read_body last after orderedRest
      constructor
      · simp [checkBranches, keyword, bare, require, bind, Except.bind]
      · rw [readBranches, if_neg isConditional]
        simp [readBranches, keyword, readBranch, first, second, reads, bind, Except.bind, pure,
          Except.pure]

end

/-! ### Only bodies are read -/

/-- Nothing may follow the last branch. -/
theorem checkBranches_last {branches : List Branch}
    (checks : checkBranches source true branches = .ok ()) : branches = [] := by
  cases branches with
  | nil => rfl
  | cons branch rest =>
      by_cases isElseIf : branch.tag.keyword? = some .elseIf <;>
        simp [checkBranches, isElseIf, require, bind, Except.bind] at checks

/-- A conditional branch is read from its body, its condition, and the branches after it. -/
theorem readBranches_eq_ok_iff {readBody : ReadBody} {branch : Branch} {rest : List Branch}
    {result : List (Expr × List Node) × Option (List Node)}
    (conditional : branch.tag.keyword? ≠ some .otherwise) :
    readBranches source limits readBody (branch :: rest) = .ok result ↔
      ∃ body condition branches otherwise, readBody branch.pieces = .ok body ∧
        Node.Parser.expression source limits branch.tag branch.tag.statement.arguments
          branch.tag.statement.start = .ok condition ∧
        readBranches source limits readBody rest = .ok (branches, otherwise) ∧
        result = ((condition, body) :: branches, otherwise) := by
  rw [readBranches, if_neg conditional]
  simp only [readBranch, bind_eq_ok_iff, pure, Except.pure, Except.ok.injEq]
  constructor
  · rintro ⟨_, ⟨body, bodyReads, condition, reads, rfl⟩, ⟨branches, otherwise⟩, restReads, rfl⟩
    exact ⟨body, condition, branches, otherwise, bodyReads, reads, restReads, rfl⟩
  · rintro ⟨body, condition, branches, otherwise, bodyReads, reads, restReads, rfl⟩
    exact ⟨_, ⟨body, bodyReads, condition, reads, rfl⟩, _, restReads, rfl⟩

/-- Pieces that are divided and read as branches say branches. -/
theorem branches_of_read
    (inner : ∀ pieces nodes, Ordered pieces → read source limits room pieces = .ok nodes →
      ∃ events, source.Says limits pieces events ∧ Body room events nodes)
    {rest : List Branch} {tag : Tag} {first : List Piece} {branches : List (Expr × List Node)}
    {otherwise : Option (List Node)} (ordered : Ordered (first ++ rest.flatMap Branch.whole))
    (keywords : ∀ branch ∈ rest, branch.tag.keyword? = some .elseIf ∨
      branch.tag.keyword? = some .otherwise)
    (checks : checkBranches source false rest = .ok ())
    (conditional : tag.keyword? ≠ some .otherwise)
    (reads : readBranches source limits (read source limits room) (⟨tag, first⟩ :: rest) =
      .ok (branches, otherwise)) :
    ∃ condition events,
      Node.Parser.expression source limits tag tag.statement.arguments tag.statement.start =
        .ok condition ∧
      source.Says limits (first ++ rest.flatMap Branch.whole) events ∧
      Branches room condition events branches otherwise := by
  induction rest generalizing first tag branches with
  | nil =>
      obtain ⟨body, condition, others, last, bodyReads, isCondition, restReads, same⟩ :=
        (readBranches_eq_ok_iff conditional).mp reads
      rw [List.flatMap_nil, List.append_nil] at ordered ⊢
      obtain ⟨events, said, whole⟩ := inner _ _ ordered bodyReads
      cases restReads
      cases same
      exact ⟨condition, events, isCondition, said, .only whole⟩
  | cons branch more ih =>
      obtain ⟨body, condition, others, last, bodyReads, isCondition, restReads, same⟩ :=
        (readBranches_eq_ok_iff conditional).mp reads
      cases same
      rw [List.flatMap_cons, Branch.whole, List.cons_append] at ordered ⊢
      obtain ⟨orderedFirst, orderedRest⟩ := ordered.parts
      obtain ⟨events, said, whole⟩ := inner _ _ orderedFirst bodyReads
      rcases keywords branch (.head _) with isElseIf | isOtherwise
      · simp only [checkBranches, isElseIf, if_true, bind_eq_ok_iff, require_eq_ok_iff] at checks
        obtain ⟨_, _, _, given, checks⟩ := checks
        obtain ⟨next, tailEvents, isNext, tailSays, tail⟩ := ih orderedRest
          (fun later isLater => keywords later (.tail _ isLater)) checks (by simp [isElseIf])
          restReads
        have here : source.event? limits (.tag branch.tag) = some (.elseIf next) :=
          (Source.event_elseIf_iff isElseIf).mpr ⟨by simpa using given, next, isNext, rfl⟩
        exact ⟨condition, _, isCondition, said.append (.cons here tailSays), .elseIf whole tail⟩
      · have notElseIf : branch.tag.keyword? ≠ some .elseIf := by simp [isOtherwise]
        simp only [checkBranches, if_neg notElseIf, bind_eq_ok_iff, require_eq_ok_iff] at checks
        obtain ⟨_, _, _, bare, checks⟩ := checks
        -- The branch has no condition, and the check has made sure that none follows it.
        obtain rfl := checkBranches_last checks
        simp only [readBranches, if_pos isOtherwise, bind_eq_ok_iff] at restReads
        obtain ⟨final, finalReads, same⟩ := restReads
        cases same
        rw [List.flatMap_nil, List.append_nil] at orderedRest ⊢
        obtain ⟨tailEvents, tailSays, tail⟩ := inner _ _ orderedRest finalReads
        have here : source.event? limits (.tag branch.tag) = some .otherwise :=
          (Source.event_otherwise_iff isOtherwise).mpr ⟨bare, rfl⟩
        exact ⟨condition, _, isCondition, said.append (.cons here tailSays),
          .otherwise whole tail⟩

/-- A block that is read says what its inside says between its opener and its closer. -/
theorem body_of_block
    (inner : ∀ smaller, room = smaller + 1 → ∀ pieces nodes, Ordered pieces →
      read source limits smaller pieces = .ok nodes →
      ∃ events, source.Says limits pieces events ∧ Body smaller events nodes)
    {kind : BlockKind} {opener closer : Tag} {inside rest : List Piece} {node : Node}
    {nodes : List Node} {events : List Event} (opens : opener.keyword? = some (.opens kind))
    (closes : closer.keyword? = some (.closes kind)) (le : opener.start ≤ closer.stop)
    (ordered : Ordered inside)
    (reads : readItem source limits (bodyReader source limits room)
      (.block ⟨kind, opener⟩ (.ok ⟨inside, closer⟩)) = .ok node)
    (said : source.Says limits rest events) (body : Body room events nodes) :
    ∃ events, source.Says limits (.tag opener :: (inside ++ .tag closer :: rest)) events ∧
      Body room events (node :: nodes) := by
  -- Without room for a block its opener is a fault.
  cases room with
  | zero => cases reads
  | succ smaller =>
      cases kind with
      | loop =>
          obtain ⟨header, entries, nested, isHeader, bare, isSource, insideReads, rfl⟩ :=
            readLoop_eq_ok_iff.mp reads
          obtain ⟨insides, insideSays, whole⟩ := inner smaller rfl _ _ ordered insideReads
          have here : source.event? limits (.tag opener) = some (.opensLoop ..) :=
            (Source.event_loop_iff opens).mpr ⟨header, entries, isHeader, isSource, rfl⟩
          have there : source.event? limits (.tag closer) = some (.closes ..) :=
            (Source.event_closes_iff closes).mpr ⟨bare, rfl⟩
          rw [Source.span_of_le le]
          exact ⟨_, .cons here (insideSays.append (.cons there said)), .loop whole body⟩
      | choice =>
          obtain ⟨branches, otherwise, given, bare, checks, branchesRead, rfl⟩ :=
            readChoice_eq_ok_iff.mp reads
          obtain ⟨cut, keywords⟩ := Branch.divide_whole [] inside
          rw [cut] at ordered
          obtain ⟨condition, insides, isCondition, insideSays, whole⟩ :=
            branches_of_read (inner smaller rfl) ordered keywords checks (by simp [opens])
              branchesRead
          rw [← cut] at insideSays
          have here : source.event? limits (.tag opener) = some (.opensChoice ..) :=
            (Source.event_choice_iff opens).mpr ⟨given, condition, isCondition, rfl⟩
          have there : source.event? limits (.tag closer) = some (.closes ..) :=
            (Source.event_closes_iff closes).mpr ⟨bare, rfl⟩
          rw [Source.span_of_le le]
          exact ⟨_, .cons here (insideSays.append (.cons there said)), .choice whole body⟩

/-- Pieces are read when they say a body, provided that this holds inside of blocks. -/
theorem body_of_items
    (inner : ∀ smaller, room = smaller + 1 → ∀ pieces nodes, Ordered pieces →
      read source limits smaller pieces = .ok nodes →
      ∃ events, source.Says limits pieces events ∧ Body smaller events nodes)
    (size : Nat) (pieces : List Piece) (nodes : List Node) (fits : pieces.length ≤ size)
    (ordered : Ordered pieces) (reads : read source limits room pieces = .ok nodes) :
    ∃ events, source.Says limits pieces events ∧ Body room events nodes := by
  -- Behind a block the outline goes on after the closer, which is further than the next piece, so
  -- the induction is on a bound for the length.
  induction size generalizing pieces nodes with
  | zero =>
      obtain rfl := List.eq_nil_of_length_eq_zero (Nat.le_zero.mp fits)
      rw [read_eq] at reads
      cases reads
      exact ⟨[], rfl, .nil⟩
  | succ size ih =>
      cases pieces with
      | nil =>
          rw [read_eq] at reads
          cases reads
          exact ⟨[], rfl, .nil⟩
      | cons piece rest =>
          by_cases opener : ∃ kind, piece.keyword? = some (.opens kind)
          · obtain ⟨kind, opens⟩ := opener
            cases piece with
            | text => cases opens
            | unclosed => cases opens
            | tag opener =>
                rw [read_eq, OutlineItem.outline_opens opens] at reads
                rcases OutlineItem.outlineInside_cases limits.maxBlockDepth room
                  ⟨kind, opener⟩ [] [] rest with
                  ⟨fault, fails⟩ | ⟨inside, closer, after, rfl, closes, cut⟩
                · rw [fails, mapM_cons_ok_iff] at reads
                  obtain ⟨_, _, blockReads, _⟩ := reads
                  exact absurd blockReads readItem_fault
                · rw [cut, mapM_cons_ok_iff] at reads
                  obtain ⟨node, others, blockReads, restReads, rfl⟩ := reads
                  obtain ⟨le, orderedInside, orderedRest⟩ := ordered.block
                  obtain ⟨events, said, body⟩ := ih after others
                    (by simp at fits; omega) orderedRest ((read_eq ..).trans restReads)
                  exact body_of_block inner opens closes le orderedInside blockReads said body
          · rw [read_eq, OutlineItem.outline_plain fun kind opens => opener ⟨kind, opens⟩,
              mapM_cons_ok_iff] at reads
            obtain ⟨node, others, pieceReads, restReads, rfl⟩ := reads
            obtain ⟨event, here, isLeaf⟩ := readPiece_eq_ok_iff.mp pieceReads
            obtain ⟨events, said, body⟩ := ih rest others (by simpa using fits) ordered.tail
              ((read_eq ..).trans restReads)
            exact ⟨_, .cons here said, .leaf isLeaf body⟩

/-- Pieces are read only when they say a body. -/
theorem body_of_read (room : Nat) (pieces : List Piece) (nodes : List Node)
    (ordered : Ordered pieces) (reads : read source limits room pieces = .ok nodes) :
    ∃ events, source.Says limits pieces events ∧ Body room events nodes := by
  induction room generalizing pieces nodes with
  | zero =>
      refine body_of_items (fun smaller same => ?_) _ pieces nodes (Nat.le_refl _) ordered reads
      cases same
  | succ room ih =>
      refine body_of_items (fun smaller same => ?_) _ pieces nodes (Nat.le_refl _) ordered reads
      cases same
      exact ih

end Node.Parser

/-- A source is read as the nodes of what its pieces say. -/
theorem Source.nodes_iff_body {nodes : List Node} :
    source.nodes limits = .ok nodes ↔ ∃ events,
      source.Says limits source.pieces events ∧ Body limits.maxBlockDepth events nodes := by
  have ordered : Ordered source.pieces := Piece.ordered_scan 0 0 source.text
  exact ⟨body_of_read _ _ _ ordered, fun ⟨_, said, body⟩ => read_body body said ordered⟩

/-- A source is read exactly when its pieces are well formed and one pass of the stack machine
accepts what they say. The nodes are those that the machine builds, and they list what the pieces
say, each of them once and in order. -/
theorem Source.nodes_eq_ok_iff {nodes : List Node} :
    (source.nodes limits = .ok nodes ↔ ∃ events,
      source.pieces.mapM (source.event? limits) = some events ∧
        Machine.accept limits.maxBlockDepth events = some nodes) ∧
      (source.nodes limits = .ok nodes →
        source.pieces.mapM (source.event? limits) = some (eventsOfList nodes)) := by
  constructor
  · rw [nodes_iff_body]
    simp only [Machine.accept_eq_some_iff, Says]
  · intro reads
    obtain ⟨events, said, body⟩ := nodes_iff_body.mp reads
    rw [body.events_eq]
    exact said

end TextTemplate
