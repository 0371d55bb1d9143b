import TextTemplate.Proofs.Node.Events

/-! # A stack machine for blocks

One pass over the events of a template builds its nodes: the blocks that are open lie on a stack,
and every event concerns only the innermost of them. The machine accepts exactly the bodies. -/

namespace TextTemplate.Node

/-! ### The machine -/

/-- A block that is open. Lists are kept with their last entry first. -/
inductive OpenNode where
  | loop (item : String) (index : Option String) (source : Expr) (start : Position)
      (before : List Node)
  /-- A choice, with its finished branches, and the condition of the branch that is open; the last
  branch has none. -/
  | choice (start : Position) (finished : List (Expr × List Node)) (condition : Option Expr)
      (before : List Node)

/-- The open blocks, the innermost one first, and the nodes so far in the body that is open. -/
structure Machine where
  blocks : List OpenNode
  nodes : List Node

namespace Machine

/-- The machine before the first event. -/
def initial : Machine := ⟨[], []⟩

/-- What an event does. At most `limit` blocks may be open. -/
def step (limit : Nat) (machine : Machine) : Event → Option Machine
  | .text content span => some { machine with nodes := .text content span :: machine.nodes }
  | .interpolation expr span =>
      some { machine with nodes := .interpolation expr span :: machine.nodes }
  | .comment content span => some { machine with nodes := .comment content span :: machine.nodes }
  | .opensLoop item index source start =>
      if machine.blocks.length < limit then
        some ⟨.loop item index source start machine.nodes :: machine.blocks, []⟩
      else none
  | .opensChoice condition start =>
      if machine.blocks.length < limit then
        some ⟨.choice start [] (some condition) machine.nodes :: machine.blocks, []⟩
      else none
  | .elseIf next =>
      match machine.blocks with
      | .choice start finished (some condition) before :: outer =>
          some ⟨.choice start ((condition, machine.nodes.reverse) :: finished) (some next) before ::
            outer, []⟩
      | _ => none
  | .otherwise =>
      match machine.blocks with
      | .choice start finished (some condition) before :: outer =>
          some ⟨.choice start ((condition, machine.nodes.reverse) :: finished) none before ::
            outer, []⟩
      | _ => none
  | .closes .loop stop =>
      match machine.blocks with
      | .loop item index source start before :: outer =>
          some ⟨outer, .loop item index source machine.nodes.reverse ⟨start, stop⟩ :: before⟩
      | _ => none
  | .closes .choice stop =>
      match machine.blocks with
      | .choice start finished (some condition) before :: outer =>
          some ⟨outer, .choice ((condition, machine.nodes.reverse) :: finished).reverse none
            ⟨start, stop⟩ :: before⟩
      | .choice start finished none before :: outer =>
          some ⟨outer, .choice finished.reverse (some machine.nodes.reverse) ⟨start, stop⟩ ::
            before⟩
      | _ => none

/-- What events do, one after the other. -/
def run (limit : Nat) : Machine → List Event → Option Machine
  | machine, [] => some machine
  | machine, event :: rest => (machine.step limit event).bind (run limit · rest)

/-- The nodes that all events of a template build. -/
def accept (limit : Nat) (events : List Event) : Option (List Node) :=
  match run limit initial events with
  | some ⟨[], nodes⟩ => some nodes.reverse
  | _ => none

variable {limit room : Nat} {machine next : Machine} {event : Event} {events others : List Event}

/-- Events that can be passed do not stop a run. -/
theorem run_append :
    run limit machine (events ++ others) = (run limit machine events).bind (run limit · others) := by
  induction events generalizing machine with
  | nil => rfl
  | cons event rest ih =>
      rw [List.cons_append, run, run, Option.bind_assoc]
      exact congrArg _ (funext fun _ => ih)

/-- An event that belongs to no block adds its node. -/
theorem step_leaf {node : Node} (isLeaf : event.leaf? = some node) :
    step limit machine event = some { machine with nodes := node :: machine.nodes } := by
  cases event <;> cases isLeaf <;> rfl

/-! ### Bodies are accepted -/

mutual

/-- The events of a body leave its nodes, if no block in it is too many. -/
theorem run_body : {room : Nat} → {events : List Event} → {nodes : List Node} →
    Body room events nodes → ∀ {blocks : List OpenNode} {before : List Node},
    blocks.length + room ≤ limit →
    run limit ⟨blocks, before⟩ events = some ⟨blocks, nodes.reverse ++ before⟩
  | _, _, _, .nil, _, _, _ => rfl
  | _, _, _, .leaf isLeaf rest, _, _, fits => by
      rw [run, step_leaf isLeaf, Option.bind_some, run_body rest fits]
      simp
  | _, _, _, .loop inside rest, blocks, _, fits => by
      have deeper : blocks.length < limit := by omega
      rw [List.cons_append, run, step, if_pos deeper, Option.bind_some, run_append,
        run_body inside (by simp only [List.length_cons]; omega), Option.bind_some, run, step,
        Option.bind_some, run_body rest fits]
      simp
  | _, _, _, .choice inside rest, blocks, _, fits => by
      have deeper : blocks.length < limit := by omega
      rw [List.cons_append, run, step, if_pos deeper, Option.bind_some, run_branches inside fits,
        run_body rest fits]
      simp

/-- The events of branches, with the event that closes the choice, leave the choice. -/
theorem run_branches : {room : Nat} → {condition : Expr} → {events : List Event} →
    {branches : List (Expr × List Node)} → {otherwise : Option (List Node)} →
    Branches room condition events branches otherwise →
    ∀ {blocks : List OpenNode} {start stop : Position} {finished : List (Expr × List Node)}
      {before : List Node} {rest : List Event}, blocks.length + (room + 1) ≤ limit →
      run limit ⟨.choice start finished (some condition) before :: blocks, []⟩
          (events ++ .closes .choice stop :: rest) =
        run limit ⟨blocks, .choice (finished.reverse ++ branches) otherwise ⟨start, stop⟩ ::
          before⟩ rest
  | _, _, _, _, _, .only body, _, _, _, _, _, _, fits => by
      rw [run_append, run_body body (by simp only [List.length_cons]; omega), Option.bind_some, run,
        step, Option.bind_some]
      simp
  | _, _, _, _, _, .elseIf body rest, _, _, _, _, _, _, fits => by
      rw [List.append_assoc, run_append, run_body body (by simp only [List.length_cons]; omega),
        Option.bind_some, List.cons_append, run, step, Option.bind_some, run_branches rest fits]
      simp
  | _, _, _, _, _, .otherwise body last, _, _, _, _, _, _, fits => by
      rw [List.append_assoc, run_append, run_body body (by simp only [List.length_cons]; omega),
        Option.bind_some, List.cons_append, run, step, Option.bind_some, run_append,
        run_body last (by simp only [List.length_cons]; omega), Option.bind_some, run, step,
        Option.bind_some]
      simp

end

/-! ### Only bodies are accepted -/

/-- Whether events are the branches of a choice up to the one that is open: branches from that one
on continue them. -/
def Continues (room : Nat) (first : Expr) (events : List Event)
    (finished : List (Expr × List Node)) (condition : Expr) : Prop :=
  ∀ others branches otherwise, Branches room condition others branches otherwise →
    Branches room first (events ++ others) (finished.reverse ++ branches) otherwise

/-- Whether events are the branches of a choice up to its last one: a body completes them. -/
def Completes (room : Nat) (first : Expr) (events : List Event)
    (finished : List (Expr × List Node)) : Prop :=
  ∀ others last, Body room others last →
    Branches room first (events ++ others) finished.reverse (some last)

/-- The first branch is the one that is open at first. -/
theorem continues_nil {condition : Expr} : Continues room condition [] [] condition :=
  fun _ _ _ branches => branches

/-- The open branch is finished by a condition. -/
theorem Continues.elseIf {first condition : Expr} {finished : List (Expr × List Node)}
    {body : List Node} (following : Expr)
    (continues : Continues room first events finished condition) (inside : Body room others body) :
    Continues room first (events ++ others ++ [.elseIf following])
      ((condition, body) :: finished) following := fun _ _ _ branches => by
  simpa using continues _ _ _ (.elseIf inside branches)

/-- The open branch is finished by the last one. -/
theorem Continues.otherwise {first condition : Expr} {finished : List (Expr × List Node)}
    {body : List Node} (continues : Continues room first events finished condition)
    (inside : Body room others body) :
    Completes room first (events ++ others ++ [.otherwise]) ((condition, body) :: finished) :=
  fun _ _ last => by simpa using continues _ _ _ (.otherwise inside last)

/-- The events before the body that is open, with the blocks that they have opened. -/
inductive Opened (limit : Nat) : List Event → List OpenNode → Prop where
  | none : Opened limit [] []
  | loop {events outside : List Event} {blocks : List OpenNode} {nodes : List Node}
      {item : String} {index : Option String} {source : Expr} {start : Position} :
      Opened limit events blocks → blocks.length < limit →
      Body (limit - blocks.length) outside nodes →
      Opened limit (events ++ outside ++ [.opensLoop item index source start])
        (.loop item index source start nodes.reverse :: blocks)
  | choice {events outside inside : List Event} {blocks : List OpenNode} {nodes : List Node}
      {first condition : Expr} {finished : List (Expr × List Node)} {start : Position} :
      Opened limit events blocks → blocks.length < limit →
      Body (limit - blocks.length) outside nodes →
      Continues (limit - (blocks.length + 1)) first inside finished condition →
      Opened limit (events ++ outside ++ [.opensChoice first start] ++ inside)
        (.choice start finished (some condition) nodes.reverse :: blocks)
  | last {events outside inside : List Event} {blocks : List OpenNode} {nodes : List Node}
      {first : Expr} {finished : List (Expr × List Node)} {start : Position} :
      Opened limit events blocks → blocks.length < limit →
      Body (limit - blocks.length) outside nodes →
      Completes (limit - (blocks.length + 1)) first inside finished →
      Opened limit (events ++ outside ++ [.opensChoice first start] ++ inside)
        (.choice start finished none nodes.reverse :: blocks)

/-- The events that a machine has passed. -/
inductive Passed (limit : Nat) : List Event → Machine → Prop where
  | intro {events inside : List Event} {blocks : List OpenNode} {nodes : List Node} :
      Opened limit events blocks → Body (limit - blocks.length) inside nodes →
      Passed limit (events ++ inside) ⟨blocks, nodes.reverse⟩

/-- A body goes on with what one more piece of it is. -/
theorem Passed.grow {before inside : List Event} {blocks : List OpenNode} {nodes more : List Node}
    (opened : Opened limit before blocks) (outside : Body (limit - blocks.length) inside nodes)
    (body : Body (limit - blocks.length) events more) :
    Passed limit (before ++ inside ++ events) ⟨blocks, more.reverse ++ nodes.reverse⟩ := by
  simpa using Passed.intro opened (outside.append body)

/-- Where a block may be opened, there is room for one more. -/
theorem room_eq {blocks : List OpenNode} (deeper : blocks.length < limit) :
    limit - blocks.length = limit - (blocks.length + 1) + 1 := by
  omega

/-- Every event continues what has been passed. -/
theorem Passed.step (passed : Passed limit events machine)
    (steps : machine.step limit event = some next) : Passed limit (events ++ [event]) next := by
  obtain ⟨opened, body⟩ := passed
  cases event with
  | text content span =>
      cases steps
      exact .grow opened body (.leaf rfl .nil)
  | interpolation expr span =>
      cases steps
      exact .grow opened body (.leaf rfl .nil)
  | comment content span =>
      cases steps
      exact .grow opened body (.leaf rfl .nil)
  | opensLoop item index source start =>
      rw [Machine.step, Option.ite_none_right_eq_some, Option.some.injEq] at steps
      obtain ⟨deeper, rfl⟩ := steps
      simpa using Passed.intro (.loop opened deeper body) .nil
  | opensChoice condition start =>
      rw [Machine.step, Option.ite_none_right_eq_some, Option.some.injEq] at steps
      obtain ⟨deeper, rfl⟩ := steps
      simpa using Passed.intro (.choice opened deeper body continues_nil) .nil
  -- The events from here on meet a block of one form, and every other one refuses them.
  | elseIf following =>
      cases opened with
      | none | loop | last => cases steps
      | choice opened deeper outside continues =>
          cases steps
          have further := continues.elseIf following body
          simpa using Passed.intro (.choice opened deeper outside further) .nil
  | otherwise =>
      cases opened with
      | none | loop | last => cases steps
      | choice opened deeper outside continues =>
          cases steps
          simpa using Passed.intro (.last opened deeper outside (continues.otherwise body)) .nil
  | closes kind stop =>
      cases kind with
      | loop =>
          cases opened with
          | none | choice | last => cases steps
          | @loop _ _ _ _ item index source start opened deeper outside =>
              cases steps
              -- The inside has one level less than the body that the block stands in.
              have whole : Body _ (.opensLoop item index source start :: _ ++
                  [.closes .loop stop]) _ := .loop body .nil
              rw [List.length_cons, ← room_eq deeper] at whole
              simpa using Passed.grow opened outside whole
      | choice =>
          cases opened with
          | none | loop => cases steps
          | @choice _ _ _ _ _ _ _ _ start opened deeper outside continues =>
              cases steps
              have whole : Body _ (.opensChoice _ start :: _ ++ [.closes .choice stop]) _ :=
                .choice (continues _ _ _ (.only body)) .nil
              rw [← room_eq deeper] at whole
              simpa using Passed.grow opened outside whole
          | @last _ _ _ _ _ _ _ start opened deeper outside completes =>
              cases steps
              have whole : Body _ (.opensChoice _ start :: _ ++ [.closes .choice stop]) _ :=
                .choice (completes _ _ body) .nil
              rw [← room_eq deeper] at whole
              simpa using Passed.grow opened outside whole

/-- So do all events. -/
theorem Passed.run (passed : Passed limit events machine)
    (runs : machine.run limit others = some next) : Passed limit (events ++ others) next := by
  induction others generalizing events machine with
  | nil =>
      obtain rfl : machine = next := Option.some.inj runs
      simpa using passed
  | cons event rest ih =>
      obtain ⟨after, steps, runs⟩ := Option.bind_eq_some_iff.mp runs
      simpa using ih (passed.step steps) runs

/-- The machine accepts the bodies, and builds their nodes. -/
theorem accept_eq_some_iff {nodes : List Node} :
    accept limit events = some nodes ↔ Body limit events nodes := by
  constructor
  · intro accepts
    cases runs : run limit initial events with
    | none => simp [accept, runs] at accepts
    | some machine =>
        rw [accept, runs] at accepts
        have passed : Passed limit events machine := by
          simpa using Passed.run (.intro .none .nil) runs
        obtain ⟨opened, body⟩ := passed
        cases opened with
        | none =>
            cases accepts
            simpa using body
        | loop | choice | last => cases accepts
  · intro body
    have runs : run limit initial events = some ⟨[], nodes.reverse ++ []⟩ :=
      run_body body (by simp)
    simp [accept, runs]

end Machine

end TextTemplate.Node
