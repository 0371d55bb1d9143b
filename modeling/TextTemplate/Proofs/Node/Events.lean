import TextTemplate.Node.Parser

/-! # What pieces say

Each piece of a template says one thing of its own, whatever stands around it: it shows something,
or it opens, continues or closes a block. A list of nodes is a tree over such events, and listing
them in order gives back what the pieces say. -/

namespace TextTemplate

/-! ### Events -/

/-- What a piece says. -/
inductive Event where
  | text (content : String) (span : Span)
  | interpolation (expr : Expr) (span : Span)
  | comment (content : String) (span : Span)
  /-- A choice begins, with the condition of its first branch. -/
  | opensChoice (condition : Expr) (start : Position)
  /-- A loop begins. -/
  | opensLoop (item : String) (index : Option String) (source : Expr) (start : Position)
  /-- The next branch of a choice begins. -/
  | elseIf (condition : Expr)
  /-- The last branch of a choice begins. -/
  | otherwise
  /-- A block ends. -/
  | closes (kind : BlockKind) (stop : Position)

/-- The node of an event that belongs to no block. -/
def Event.leaf? : Event → Option Node
  | .text content span => some (.text content span)
  | .interpolation expr span => some (.interpolation expr span)
  | .comment content span => some (.comment content span)
  | .opensChoice _ _ | .opensLoop _ _ _ _ | .elseIf _ | .otherwise | .closes _ _ => none

/-- What a statement says on its own: a header must be well formed with its expression, and a word
that takes no text may not have any. -/
def Source.statementEvent? (source : Source) (limits : Limits) (tag : Tag) : Option Event :=
  let statement := tag.statement
  let condition? :=
    if statement.arguments.isEmpty then none
    else
      (Node.Parser.expression source limits tag statement.arguments statement.start).toOption
  match statement.keyword? with
  | some (.opens .choice) => condition?.map (.opensChoice · (source.position tag.start))
  | some (.opens .loop) =>
      match LoopHeader.ofStatement statement tag.inner with
      | .error _ => none
      | .ok header =>
          (Node.Parser.expression source limits tag header.source header.start).toOption.map
            (.opensLoop header.item header.index · (source.position tag.start))
  | some .elseIf => condition?.map .elseIf
  | some .otherwise => if statement.arguments.isEmpty then some .otherwise else none
  | some (.closes kind) =>
      if statement.arguments.isEmpty then some (.closes kind (source.position tag.stop)) else none
  | none => none

/-- What a piece says on its own, if it is well formed. -/
def Source.event? (source : Source) (limits : Limits) : Piece → Option Event
  | .text content start =>
      some (.text (String.ofList content) (source.span start (start + byteLength content)))
  | .unclosed _ _ => none
  | .tag tag =>
      match tag.kind with
      | .interpolation =>
          (Node.Parser.expression source limits tag tag.inner tag.innerStart).toOption.map
            (.interpolation · (source.tagSpan tag))
      | .comment => some (.comment (String.ofList tag.inner) (source.tagSpan tag))
      | .statement => source.statementEvent? limits tag

/-! ### Events of nodes -/

namespace Node

mutual

/-- The events that a node is built from, in order. -/
def events : Node → List Event
  | .text content span => [.text content span]
  | .interpolation expr span => [.interpolation expr span]
  | .comment content span => [.comment content span]
  | .loop item index source body span =>
      .opensLoop item index source span.start :: eventsOfList body ++ [.closes .loop span.stop]
  | .choice ((condition, body) :: branches) otherwise span =>
      .opensChoice condition span.start :: eventsOfList body ++ eventsOfBranches branches ++
        eventsOfOption otherwise ++ [.closes .choice span.stop]
  | .choice [] otherwise span => eventsOfOption otherwise ++ [.closes .choice span.stop]

/-- The events of several nodes. -/
def eventsOfList : List Node → List Event
  | [] => []
  | node :: rest => events node ++ eventsOfList rest

/-- The events of the branches after the first one. -/
def eventsOfBranches : List (Expr × List Node) → List Event
  | [] => []
  | (condition, body) :: rest => .elseIf condition :: eventsOfList body ++ eventsOfBranches rest

/-- The events of the last branch. -/
def eventsOfOption : Option (List Node) → List Event
  | none => []
  | some body => .otherwise :: eventsOfList body

end

/-! ### Bodies -/

mutual

/-- Events that are the nodes of a body, in which at most `room` blocks lie inside each other. -/
inductive Body : Nat → List Event → List Node → Prop where
  | nil {room : Nat} : Body room [] []
  | leaf {room : Nat} {event : Event} {node : Node} {events : List Event} {nodes : List Node} :
      event.leaf? = some node → Body room events nodes →
      Body room (event :: events) (node :: nodes)
  | loop {room : Nat} {item : String} {index : Option String} {source : Expr}
      {start stop : Position} {inside events : List Event} {body nodes : List Node} :
      Body room inside body → Body (room + 1) events nodes →
      Body (room + 1) (.opensLoop item index source start :: inside ++ .closes .loop stop :: events)
        (.loop item index source body ⟨start, stop⟩ :: nodes)
  | choice {room : Nat} {condition : Expr} {start stop : Position} {inside events : List Event}
      {branches : List (Expr × List Node)} {otherwise : Option (List Node)} {nodes : List Node} :
      Branches room condition inside branches otherwise → Body (room + 1) events nodes →
      Body (room + 1) (.opensChoice condition start :: inside ++ .closes .choice stop :: events)
        (.choice branches otherwise ⟨start, stop⟩ :: nodes)

/-- Events that are the branches of a choice from the one with the given condition on. -/
inductive Branches :
    Nat → Expr → List Event → List (Expr × List Node) → Option (List Node) → Prop where
  | only {room : Nat} {condition : Expr} {events : List Event} {body : List Node} :
      Body room events body → Branches room condition events [(condition, body)] none
  | elseIf {room : Nat} {condition next : Expr} {events others : List Event} {body : List Node}
      {branches : List (Expr × List Node)} {otherwise : Option (List Node)} :
      Body room events body → Branches room next others branches otherwise →
      Branches room condition (events ++ .elseIf next :: others) ((condition, body) :: branches)
        otherwise
  | otherwise {room : Nat} {condition : Expr} {events others : List Event}
      {body last : List Node} :
      Body room events body → Body room others last →
      Branches room condition (events ++ .otherwise :: others) [(condition, body)] (some last)

end

variable {others : List Event} {more : List Node}

/-- Bodies can be written one after the other. -/
theorem Body.append : {room : Nat} → {events : List Event} → {nodes : List Node} →
    Body room events nodes → Body room others more → Body room (events ++ others) (nodes ++ more)
  | _, _, _, .nil, tail => tail
  | _, _, _, .leaf isLeaf rest, tail => .leaf isLeaf (rest.append tail)
  | _, _, _, .loop inside rest, tail => by simpa using .loop inside (rest.append tail)
  | _, _, _, .choice inside rest, tail => by simpa using .choice inside (rest.append tail)

/-- The node of an event that belongs to no block is built from that event only. -/
theorem events_of_leaf {event : Event} {node : Node} (isLeaf : event.leaf? = some node) :
    node.events = [event] := by
  cases event <;> cases isLeaf <;> rfl

mutual

/-- The nodes of a body list its events. -/
theorem Body.events_eq : {room : Nat} → {events : List Event} → {nodes : List Node} →
    Body room events nodes → eventsOfList nodes = events
  | _, _, _, .nil => rfl
  | _, _, _, .leaf isLeaf rest => by
      rw [eventsOfList, events_of_leaf isLeaf, rest.events_eq, List.singleton_append]
  | _, _, _, .loop inside rest => by
      rw [eventsOfList, Node.events, inside.events_eq, rest.events_eq]
      simp
  | _, _, _, .choice inside rest => by
      obtain ⟨body, others, rfl, listed⟩ := inside.events_eq
      rw [eventsOfList, Node.events, rest.events_eq, ← listed]
      simp

/-- The branches of a choice list its events. -/
theorem Branches.events_eq : {room : Nat} → {condition : Expr} → {events : List Event} →
    {branches : List (Expr × List Node)} → {otherwise : Option (List Node)} →
    Branches room condition events branches otherwise →
    ∃ body rest, branches = (condition, body) :: rest ∧
      eventsOfList body ++ eventsOfBranches rest ++ eventsOfOption otherwise = events
  | _, _, _, _, _, .only body =>
      ⟨_, _, rfl, by simp [eventsOfBranches, eventsOfOption, body.events_eq]⟩
  | _, _, _, _, _, .elseIf body rest => by
      obtain ⟨second, others, rfl, listed⟩ := rest.events_eq
      exact ⟨_, _, rfl, by simp [eventsOfBranches, body.events_eq, ← listed]⟩
  | _, _, _, _, _, .otherwise body last =>
      ⟨_, _, rfl, by simp [eventsOfBranches, eventsOfOption, body.events_eq, last.events_eq]⟩

end

end Node

end TextTemplate
