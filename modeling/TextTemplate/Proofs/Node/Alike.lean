import TextTemplate.Node.Printer
import TextTemplate.Proofs.Expr.Alike
import TextTemplate.Proofs.Node.Words

/-! # Nodes that are built alike

Two lists of nodes are alike when they differ in nothing but the places where they are written and
the representation of the numbers in their expressions. The same blocks of events that are alike
make nodes that are alike. -/

namespace TextTemplate

namespace Node

mutual

/-- Whether two nodes are built alike, of numbers that correspond to each other. -/
inductive Alike (same : Numeric → Numeric → Prop) : Node → Node → Prop where
  | text {content : String} {span span' : Span} :
      Alike same (.text content span) (.text content span')
  | interpolation {expr expr' : Expr} {span span' : Span} :
      expr.Alike same expr' → Alike same (.interpolation expr span) (.interpolation expr' span')
  | comment {content : String} {span span' : Span} :
      Alike same (.comment content span) (.comment content span')
  | loop {item : String} {index : Option String} {source source' : Expr} {body body' : List Node}
      {span span' : Span} :
      source.Alike same source' → AllAlike same body body' →
      Alike same (.loop item index source body span) (.loop item index source' body' span')
  | choice {branches branches' : List (Expr × List Node)}
      {otherwise otherwise' : Option (List Node)} {span span' : Span} :
      BranchesAlike same branches branches' → ElseAlike same otherwise otherwise' →
      Alike same (.choice branches otherwise span) (.choice branches' otherwise' span')

/-- Whether the nodes of two lists are alike, one by one. -/
inductive AllAlike (same : Numeric → Numeric → Prop) : List Node → List Node → Prop where
  | nil : AllAlike same [] []
  | cons {node node' : Node} {rest rest' : List Node} :
      Alike same node node' → AllAlike same rest rest' →
      AllAlike same (node :: rest) (node' :: rest')

/-- Whether the branches of two lists are alike, one by one. -/
inductive BranchesAlike (same : Numeric → Numeric → Prop) :
    List (Expr × List Node) → List (Expr × List Node) → Prop where
  | nil : BranchesAlike same [] []
  | cons {condition condition' : Expr} {body body' : List Node}
      {rest rest' : List (Expr × List Node)} :
      condition.Alike same condition' → AllAlike same body body' →
      BranchesAlike same rest rest' →
      BranchesAlike same ((condition, body) :: rest) ((condition', body') :: rest')

/-- Whether two last branches are alike, or both missing. -/
inductive ElseAlike (same : Numeric → Numeric → Prop) :
    Option (List Node) → Option (List Node) → Prop where
  | none : ElseAlike same none none
  | some {body body' : List Node} : AllAlike same body body' → ElseAlike same (some body) (some body')

end

variable {same : Numeric → Numeric → Prop}

mutual

/-- A node is alike to itself. -/
theorem Alike.refl (reflexive : ∀ value, same value value) : (node : Node) → Alike same node node
  | .text _ _ => .text
  | .interpolation expr _ => .interpolation (.refl reflexive expr)
  | .comment _ _ => .comment
  | .loop _ _ source body _ => .loop (.refl reflexive source) (AllAlike.refl reflexive body)
  | .choice branches otherwise _ =>
      .choice (BranchesAlike.refl reflexive branches) (ElseAlike.refl reflexive otherwise)

/-- Nodes of a list are alike to themselves. -/
theorem AllAlike.refl (reflexive : ∀ value, same value value) :
    (nodes : List Node) → AllAlike same nodes nodes
  | [] => .nil
  | node :: rest => .cons (Alike.refl reflexive node) (AllAlike.refl reflexive rest)

/-- So are branches. -/
theorem BranchesAlike.refl (reflexive : ∀ value, same value value) :
    (branches : List (Expr × List Node)) → BranchesAlike same branches branches
  | [] => .nil
  | (condition, body) :: rest =>
      .cons (.refl reflexive condition) (AllAlike.refl reflexive body)
        (BranchesAlike.refl reflexive rest)

/-- So is the last branch. -/
theorem ElseAlike.refl (reflexive : ∀ value, same value value) :
    (otherwise : Option (List Node)) → ElseAlike same otherwise otherwise
  | none => .none
  | some body => .some (AllAlike.refl reflexive body)

end

/-! ### Other comparisons of numbers -/

mutual

/-- Nodes stay alike when the numbers that they have are compared less strictly. -/
theorem Alike.mono {looser : Numeric → Numeric → Prop} :
    {node node' : Node} → Alike same node node' →
    (∀ value, .number value ∈ node.words → ∀ value', same value value' → looser value value') →
    Alike looser node node'
  | _, _, .text, _ => .text
  | _, _, .interpolation expr, weaken => .interpolation (expr.mono weaken)
  | _, _, .comment, _ => .comment
  | _, _, .loop source body, weaken =>
      .loop (source.mono fun value isWord => weaken value (List.mem_append_left _ isWord))
        (body.mono fun value isWord => weaken value (List.mem_append_right _ isWord))
  | _, _, .choice branches otherwise, weaken =>
      .choice (branches.mono fun value isWord => weaken value (List.mem_append_left _ isWord))
        (otherwise.mono fun value isWord => weaken value (List.mem_append_right _ isWord))

/-- What holds of the numbers in a body may be weakened for all of them. -/
theorem AllAlike.mono {looser : Numeric → Numeric → Prop} :
    {nodes nodes' : List Node} → AllAlike same nodes nodes' →
    (∀ value, .number value ∈ wordsOfList nodes →
      ∀ value', same value value' → looser value value') →
    AllAlike looser nodes nodes'
  | _, _, .nil, _ => .nil
  | _, _, .cons first rest, weaken =>
      .cons (first.mono fun value isWord => weaken value (List.mem_append_left _ isWord))
        (rest.mono fun value isWord => weaken value (List.mem_append_right _ isWord))

/-- So may what holds of the numbers in branches. -/
theorem BranchesAlike.mono {looser : Numeric → Numeric → Prop} :
    {branches branches' : List (Expr × List Node)} → BranchesAlike same branches branches' →
    (∀ value, .number value ∈ wordsOfBranches branches →
      ∀ value', same value value' → looser value value') →
    BranchesAlike looser branches branches'
  | _, _, .nil, _ => .nil
  | _, _, .cons condition body rest, weaken =>
      .cons
        (condition.mono fun value isWord =>
          weaken value (List.mem_append_left _ (List.mem_append_left _ isWord)))
        (body.mono fun value isWord =>
          weaken value (List.mem_append_left _ (List.mem_append_right _ isWord)))
        (rest.mono fun value isWord => weaken value (List.mem_append_right _ isWord))

/-- So may what holds of those in the last branch. -/
theorem ElseAlike.mono {looser : Numeric → Numeric → Prop} :
    {otherwise otherwise' : Option (List Node)} → ElseAlike same otherwise otherwise' →
    (∀ value, .number value ∈ wordsOfOption otherwise →
      ∀ value', same value value' → looser value value') →
    ElseAlike looser otherwise otherwise'
  | _, _, .none, _ => .none
  | _, _, .some body, weaken => .some (body.mono weaken)

end

mutual

/-- What two comparisons say of the numbers of a node, they say of the same pairs. -/
theorem Alike.exists_pair {other : Numeric → Numeric → Prop} {value : Numeric} :
    {node node' : Node} → Alike same node node' → Alike other node node' →
    .number value ∈ node.words → ∃ value', same value value' ∧ other value value'
  | _, _, .text, .text, isWord | _, _, .comment, .comment, isWord => nomatch isWord
  | _, _, .interpolation expr, .interpolation expr', isWord => expr.exists_pair expr' isWord
  | _, _, .loop source body, .loop source' body', isWord =>
      (List.mem_append.mp isWord).elim (source.exists_pair source') (body.exists_pair body')
  | _, _, .choice branches otherwise, .choice branches' otherwise', isWord =>
      (List.mem_append.mp isWord).elim (branches.exists_pair branches')
        (otherwise.exists_pair otherwise')

/-- A number of a body has a counterpart in every body that is alike. -/
theorem AllAlike.exists_pair {other : Numeric → Numeric → Prop} {value : Numeric} :
    {nodes nodes' : List Node} → AllAlike same nodes nodes' → AllAlike other nodes nodes' →
    .number value ∈ wordsOfList nodes → ∃ value', same value value' ∧ other value value'
  | _, _, .nil, .nil, isWord => nomatch isWord
  | _, _, .cons first rest, .cons first' rest', isWord =>
      (List.mem_append.mp isWord).elim (first.exists_pair first') (rest.exists_pair rest')

/-- So has a number of branches. -/
theorem BranchesAlike.exists_pair {other : Numeric → Numeric → Prop} {value : Numeric} :
    {branches branches' : List (Expr × List Node)} → BranchesAlike same branches branches' →
    BranchesAlike other branches branches' → .number value ∈ wordsOfBranches branches →
    ∃ value', same value value' ∧ other value value'
  | _, _, .nil, .nil, isWord => nomatch isWord
  | _, _, .cons condition body rest, .cons condition' body' rest', isWord =>
      (List.mem_append.mp isWord).elim
        (fun isFirst => (List.mem_append.mp isFirst).elim (condition.exists_pair condition')
          (body.exists_pair body'))
        (rest.exists_pair rest')

/-- So has a number of the last branch. -/
theorem ElseAlike.exists_pair {other : Numeric → Numeric → Prop} {value : Numeric} :
    {otherwise otherwise' : Option (List Node)} → ElseAlike same otherwise otherwise' →
    ElseAlike other otherwise otherwise' → .number value ∈ wordsOfOption otherwise →
    ∃ value', same value value' ∧ other value value'
  | _, _, .none, .none, isWord => nomatch isWord
  | _, _, .some body, .some body', isWord => body.exists_pair body' isWord

end

/-! ### Names -/

mutual

/-- Nodes that are alike read the same names. -/
theorem Alike.reads_eq : {bound : List String} → {node node' : Node} → Alike same node node' →
    reads bound node' = reads bound node
  | _, _, _, .text | _, _, _, .comment => rfl
  | _, _, _, .interpolation expr => by rw [reads, reads, expr.roots_eq]
  | _, _, _, .loop source body => by rw [reads, reads, source.roots_eq, body.reads_eq]
  | _, _, _, .choice branches otherwise => by
      rw [reads, reads, branches.reads_eq, otherwise.reads_eq]

/-- Bodies that are alike read the same names. -/
theorem AllAlike.reads_eq : {bound : List String} → {nodes nodes' : List Node} →
    AllAlike same nodes nodes' → readsOfList bound nodes' = readsOfList bound nodes
  | _, _, _, .nil => rfl
  | _, _, _, .cons first rest => by rw [readsOfList, readsOfList, first.reads_eq, rest.reads_eq]

/-- So do branches. -/
theorem BranchesAlike.reads_eq : {bound : List String} →
    {branches branches' : List (Expr × List Node)} → BranchesAlike same branches branches' →
    readsOfBranches bound branches' = readsOfBranches bound branches
  | _, _, _, .nil => rfl
  | _, _, _, .cons condition body rest => by
      rw [readsOfBranches, readsOfBranches, condition.roots_eq, body.reads_eq, rest.reads_eq]

/-- So do last branches. -/
theorem ElseAlike.reads_eq : {bound : List String} → {otherwise otherwise' : Option (List Node)} →
    ElseAlike same otherwise otherwise' → readsOfElse bound otherwise' = readsOfElse bound otherwise
  | _, _, _, .none => rfl
  | _, _, _, .some body => body.reads_eq

end

mutual

/-- Nodes that are alike call the same methods. -/
theorem Alike.calls_eq : {node node' : Node} → Alike same node node' → calls node' = calls node
  | _, _, .text | _, _, .comment => rfl
  | _, _, .interpolation expr => expr.calls_eq
  | _, _, .loop source body => by rw [calls, calls, source.calls_eq, body.calls_eq]
  | _, _, .choice branches otherwise => by
      rw [calls, calls, branches.calls_eq, otherwise.calls_eq]

/-- Bodies that are alike call the same methods. -/
theorem AllAlike.calls_eq : {nodes nodes' : List Node} → AllAlike same nodes nodes' →
    callsOfList nodes' = callsOfList nodes
  | _, _, .nil => rfl
  | _, _, .cons first rest => by rw [callsOfList, callsOfList, first.calls_eq, rest.calls_eq]

/-- So do branches. -/
theorem BranchesAlike.calls_eq : {branches branches' : List (Expr × List Node)} →
    BranchesAlike same branches branches' → callsOfBranches branches' = callsOfBranches branches
  | _, _, .nil => rfl
  | _, _, .cons condition body rest => by
      rw [callsOfBranches, callsOfBranches, condition.calls_eq, body.calls_eq, rest.calls_eq]

/-- So do last branches. -/
theorem ElseAlike.calls_eq : {otherwise otherwise' : Option (List Node)} →
    ElseAlike same otherwise otherwise' → callsOfElse otherwise' = callsOfElse otherwise
  | _, _, .none => rfl
  | _, _, .some body => body.calls_eq

end

/-- Nodes that are alike have the same analysis. -/
theorem AllAlike.analysis_eq {nodes nodes' : List Node} (alike : AllAlike same nodes nodes') :
    Analysis.ofNodes nodes' = Analysis.ofNodes nodes := by
  rw [Analysis.ofNodes, Analysis.ofNodes, alike.reads_eq, alike.calls_eq]

/-! ### Spelling -/

mutual

/-- Nodes that are alike have the same text when their numbers do. -/
theorem Alike.print_eq : {node node' : Node} → Alike Numeric.Respelled node node' →
    print node' = print node
  | _, _, .text | _, _, .comment => rfl
  | _, _, .interpolation expr => by rw [print, print, expr.print_eq]
  | _, _, .loop source body => by rw [print, print, source.print_eq, body.print_eq]
  | _, _, .choice branches otherwise => by
      rw [print, print, branches.print_eq, otherwise.print_eq]

/-- Bodies whose numbers are spelled in the same way have the same text. -/
theorem AllAlike.print_eq : {nodes nodes' : List Node} →
    AllAlike Numeric.Respelled nodes nodes' → printList nodes' = printList nodes
  | _, _, .nil => rfl
  | _, _, .cons first rest => by rw [printList, printList, first.print_eq, rest.print_eq]

/-- So have branches. -/
theorem BranchesAlike.print_eq : {word : String} → {branches branches' : List (Expr × List Node)} →
    BranchesAlike Numeric.Respelled branches branches' →
    printBranches word branches' = printBranches word branches
  | _, _, _, .nil => rfl
  | _, _, _, .cons condition body rest => by
      rw [printBranches, printBranches, condition.print_eq, body.print_eq, rest.print_eq]

/-- So have last branches. -/
theorem ElseAlike.print_eq : {otherwise otherwise' : Option (List Node)} →
    ElseAlike Numeric.Respelled otherwise otherwise' → printElse otherwise' = printElse otherwise
  | _, _, .none => rfl
  | _, _, .some body => by rw [printElse, printElse, body.print_eq]

end

end Node

/-! ### Events -/

/-- Whether two events say the same, of numbers that correspond to each other. -/
inductive Event.Alike (same : Numeric → Numeric → Prop) : Event → Event → Prop where
  | text {content : String} {span span' : Span} :
      Alike same (.text content span) (.text content span')
  | interpolation {expr expr' : Expr} {span span' : Span} :
      expr.Alike same expr' → Alike same (.interpolation expr span) (.interpolation expr' span')
  | comment {content : String} {span span' : Span} :
      Alike same (.comment content span) (.comment content span')
  | opensChoice {condition condition' : Expr} {start start' : Position} :
      condition.Alike same condition' →
      Alike same (.opensChoice condition start) (.opensChoice condition' start')
  | opensLoop {item : String} {index : Option String} {source source' : Expr}
      {start start' : Position} :
      source.Alike same source' →
      Alike same (.opensLoop item index source start) (.opensLoop item index source' start')
  | elseIf {condition condition' : Expr} :
      condition.Alike same condition' → Alike same (.elseIf condition) (.elseIf condition')
  | otherwise : Alike same .otherwise .otherwise
  | closes {kind : BlockKind} {stop stop' : Position} :
      Alike same (.closes kind stop) (.closes kind stop')

namespace Node

variable {same : Numeric → Numeric → Prop}

/-- What is alike to one list of events after another is one list after another, too. -/
theorem split_alike {events others again : List Event}
    (alike : List.Forall₂ (Event.Alike same) (events ++ others) again) :
    ∃ first second, again = first ++ second ∧ List.Forall₂ (Event.Alike same) events first ∧
      List.Forall₂ (Event.Alike same) others second := by
  induction events generalizing again with
  | nil => exact ⟨[], again, rfl, .nil, alike⟩
  | cons event rest ih =>
      cases alike with
      | cons here tail =>
          obtain ⟨first, second, rfl, restAlike, othersAlike⟩ := ih tail
          exact ⟨_ :: first, second, rfl, .cons here restAlike, othersAlike⟩

mutual

/-- Events that are alike make nodes that are alike. -/
theorem Body.alike : {room : Nat} → {events : List Event} → {nodes : List Node} →
    Body room events nodes → ∀ {again : List Event}, List.Forall₂ (Event.Alike same) events again →
    ∃ nodes', Body room again nodes' ∧ AllAlike same nodes nodes'
  | _, _, _, .nil, _, .nil => ⟨[], .nil, .nil⟩
  | _, _, _, .leaf isLeaf rest, _, .cons first others => by
      obtain ⟨nodes', body, alike⟩ := rest.alike others
      cases first with
      | text =>
          cases isLeaf
          exact ⟨_, .leaf rfl body, .cons .text alike⟩
      | interpolation expr =>
          cases isLeaf
          exact ⟨_, .leaf rfl body, .cons (.interpolation expr) alike⟩
      | comment =>
          cases isLeaf
          exact ⟨_, .leaf rfl body, .cons .comment alike⟩
      | _ => cases isLeaf
  -- The closer is at the same place among the other events, since the lists go on side by side.
  | _, _, _, .loop inside rest, _, .cons (.opensLoop source) others => by
      obtain ⟨_, _, rfl, insideAlike, closing⟩ := split_alike others
      cases closing with
      | cons closer after =>
          cases closer
          obtain ⟨body', insideBody, bodyAlike⟩ := inside.alike insideAlike
          obtain ⟨nodes', body, alike⟩ := rest.alike after
          exact ⟨_, .loop insideBody body, .cons (.loop source bodyAlike) alike⟩
  | _, _, _, .choice inside rest, _, .cons (.opensChoice condition) others => by
      obtain ⟨_, _, rfl, insideAlike, closing⟩ := split_alike others
      cases closing with
      | cons closer after =>
          cases closer
          obtain ⟨branches', otherwise', insideBody, branchesAlike, elseAlike⟩ :=
            inside.alike condition insideAlike
          obtain ⟨nodes', body, alike⟩ := rest.alike after
          exact ⟨_, .choice insideBody body, .cons (.choice branchesAlike elseAlike) alike⟩

/-- Events that are alike make branches that are alike. -/
theorem Branches.alike : {room : Nat} → {condition : Expr} → {events : List Event} →
    {branches : List (Expr × List Node)} → {otherwise : Option (List Node)} →
    Branches room condition events branches otherwise →
    ∀ {condition' : Expr} {again : List Event}, condition.Alike same condition' →
    List.Forall₂ (Event.Alike same) events again →
    ∃ branches' otherwise', Branches room condition' again branches' otherwise' ∧
      BranchesAlike same branches branches' ∧ ElseAlike same otherwise otherwise'
  | _, _, _, _, _, .only body, _, _, condition, events => by
      obtain ⟨body', derived, alike⟩ := body.alike events
      exact ⟨_, _, .only derived, .cons condition alike .nil, .none⟩
  | _, _, _, _, _, .elseIf body rest, _, _, condition, events => by
      obtain ⟨_, _, rfl, bodyAlike, tail⟩ := split_alike events
      cases tail with
      | cons branch after =>
          -- Only the start of a branch with a condition is alike to one.
          cases branch with
          | elseIf next =>
              obtain ⟨body', derived, alike⟩ := body.alike bodyAlike
              obtain ⟨branches', otherwise', others, branchesAlike, elseAlike⟩ :=
                rest.alike next after
              exact ⟨_, _, .elseIf derived others, .cons condition alike branchesAlike, elseAlike⟩
  | _, _, _, _, _, .otherwise body last, _, _, condition, events => by
      obtain ⟨_, _, rfl, bodyAlike, tail⟩ := split_alike events
      cases tail with
      | cons branch after =>
          cases branch
          obtain ⟨body', derived, alike⟩ := body.alike bodyAlike
          obtain ⟨last', derivedLast, lastAlike⟩ := last.alike after
          exact ⟨_, _, .otherwise derived derivedLast, .cons condition alike .nil, .some lastAlike⟩

end

end Node

end TextTemplate
