import TextTemplate.Template

/-! # Rendering in one environment

Rendering can also keep one environment for all nodes, and add to one output. A pass through a loop
puts a scope on top of the others, defines the loop's variables in it and takes it off again. No
variable is left behind: behind every node the environment is what it was in front of it, and the
output has got the text of the node. -/

namespace TextTemplate

namespace Environment

variable {env : Environment}

/-- What is pushed is popped. -/
@[simp] theorem pop_push : env.push.pop = env := rfl

/-- A variable of the innermost loop is gone with the loop. -/
@[simp] theorem pop_define (name : String) (value : Value) :
    (env.define name value).pop = env.pop := by
  rw [define]
  split
  next inside => rw [pop, pop, inside, List.tail_cons, List.tail_cons]
  next => rfl

/-- What one pass through a loop defines is gone behind it. -/
@[simp] theorem pop_enter (item : String) (index : Option String) (entry : Value × Value) :
    (env.enter item index entry).pop = env := by
  cases index <;> simp [enter]

end Environment

namespace Node

/-! ### Steps of rendering -/

/-- What rendering works on. -/
structure Progress where
  env : Environment
  /-- The text of the nodes so far. -/
  output : List Char

/-- The same environment with more output. -/
def Progress.add (progress : Progress) (text : List Char) : Progress :=
  { progress with output := progress.output ++ text }

@[simp] theorem Progress.add_nil (progress : Progress) : progress.add [] = progress := by
  simp [add]

@[simp] theorem Progress.add_add (progress : Progress) (text more : List Char) :
    (progress.add text).add more = progress.add (text ++ more) := by
  simp [add]

/-- A step of rendering. -/
abbrev Renderer := StateM Progress

namespace Renderer

/-- Adds a text to the output. -/
def write (text : List Char) : Renderer Unit := modify (·.add text)

/-- Changes the environment. -/
def change (next : Environment → Environment) : Renderer Unit :=
  modify fun progress => { progress with env := next progress.env }

/-- The value of an expression in the environment. -/
def value (methods : Registry) (expr : Expr) : Renderer Value :=
  return expr.eval (← get).env methods

/-- Takes the steps of a body in a scope of its own, for one entry of a loop. -/
def pass (item : String) (index : Option String) (body : Renderer Unit) (entry : Value × Value) :
    Renderer Unit := do
  change .push
  change (·.define item entry.1)
  if let some name := index then change (·.define name entry.2)
  body
  change .pop

end Renderer

open Renderer

mutual

/-- Adds the text of a node. -/
def visit (methods : Registry) : Node → Renderer Unit
  | .text content _ => write content.toList
  | .interpolation expr _ => do write (← value methods expr).display
  | .comment _ _ => return
  | .loop item index source body _ => do
      (← value methods source).entries.forM (pass item index (visitList methods body))
  | .choice branches otherwise _ => do
      unless ← visitBranches methods branches do visitElse methods otherwise

/-- Adds the texts of nodes, one after the other. -/
def visitList (methods : Registry) : List Node → Renderer Unit
  | [] => return
  | node :: rest => do
      visit methods node
      visitList methods rest

/-- Adds the text of the first branch whose condition holds, if there is one. -/
def visitBranches (methods : Registry) : List (Expr × List Node) → Renderer Bool
  | [] => return false
  | (condition, body) :: rest => do
      if (← value methods condition).isTruthy then
        visitList methods body
        return true
      else visitBranches methods rest

/-- Adds the text of the last branch, if there is one. -/
def visitElse (methods : Registry) : Option (List Node) → Renderer Unit
  | some body => visitList methods body
  | none => return

end

/-! ### What rendering leaves -/

/-- Whether a step adds the text that belongs to the environment, and leaves the environment as it
is. -/
def Adds (step : Renderer Unit) (text : Environment → List Char) : Prop :=
  ∀ progress, step.run progress = ((), progress.add (text progress.env))

section Adds

variable {step next : Renderer Unit} {text more : Environment → List Char}

/-- A step that does nothing adds nothing. -/
theorem adds_nothing : Adds (return) fun _ => [] := fun progress =>
  congrArg (Prod.mk ()) progress.add_nil.symm

/-- Two steps add the one text behind the other. -/
theorem Adds.andThen (first : Adds step text) (second : Adds next more) :
    Adds (step >>= fun _ => next) fun env => text env ++ more env := by
  intro progress
  rw [StateT.run_bind, first progress]
  exact (second _).trans (congrArg (Prod.mk ()) (progress.add_add _ _))

/-- A pass enters the loop, takes the steps of the body and leaves the loop. -/
theorem pass_eq (item : String) (index : Option String) (entry : Value × Value) :
    pass item index step entry = (do
      change (·.enter item index entry)
      step
      change .pop) := by
  cases index <;> rfl

/-- A pass through a loop adds the text of the body inside. What it defines is gone behind it. -/
theorem Adds.onePass (body : Adds step text) (item : String) (index : Option String)
    (entry : Value × Value) :
    Adds (pass item index step entry) fun env => text (env.enter item index entry) := by
  intro progress
  have inside := body { progress with env := progress.env.enter item index entry }
  rw [pass_eq]
  change (step.run { progress with env := progress.env.enter item index entry } >>= fun taken =>
    (change .pop).run taken.2) = _
  rw [inside]
  change ((), (⟨(progress.env.enter item index entry).pop, _⟩ : Progress)) = _
  rw [Environment.pop_enter]
  rfl

/-- All passes add their texts, one after the other. -/
theorem Adds.passes (body : Adds step text) (item : String) (index : Option String)
    (entries : List (Value × Value)) :
    Adds (entries.forM (pass item index step)) fun env =>
      entries.flatMap fun entry => text (env.enter item index entry) := by
  induction entries with
  | nil => exact adds_nothing
  | cons entry rest ih => exact (body.onePass item index entry).andThen ih

end Adds

variable {methods : Registry}

mutual

/-- A node adds its text, and the variables of its loops are gone behind it. -/
theorem adds_visit : (node : Node) → Adds (visit methods node) (render methods · node)
  | .text _ _ | .interpolation _ _ => fun _ => rfl
  | .comment _ _ => adds_nothing
  | .loop item index source body _ => fun progress =>
      (adds_visitList body).passes item index (source.eval progress.env methods).entries progress
  | .choice branches otherwise _ => fun progress => by
      simp only [visit, render, StateT.run_bind, run_visitBranches branches progress]
      cases renderBranches methods progress.env branches with
      | some taken => rfl
      | none => exact adds_visitElse otherwise progress

/-- Nodes add their texts, one after the other. -/
theorem adds_visitList : (nodes : List Node) →
    Adds (visitList methods nodes) (renderList methods · nodes)
  | [] => adds_nothing
  | node :: rest => (adds_visit node).andThen (adds_visitList rest)

/-- The first branch whose condition holds adds its text. -/
theorem run_visitBranches : (branches : List (Expr × List Node)) → ∀ progress : Progress,
    (visitBranches methods branches).run progress =
      match renderBranches methods progress.env branches with
      | some taken => (true, progress.add taken)
      | none => (false, progress)
  | [], _ => rfl
  | (condition, body) :: rest, progress => by
      rw [visitBranches, renderBranches, StateT.run_bind]
      change (if (condition.eval progress.env methods).isTruthy then do
        visitList methods body
        return true
      else visitBranches methods rest : Renderer Bool).run progress = _
      by_cases holds : (condition.eval progress.env methods).isTruthy = true
      · rw [if_pos holds, if_pos holds, StateT.run_bind, adds_visitList body progress]
        rfl
      · rw [if_neg holds, if_neg holds]
        exact run_visitBranches rest progress

/-- The last branch adds its text, if there is one. -/
theorem adds_visitElse : (otherwise : Option (List Node)) →
    Adds (visitElse methods otherwise) (renderElse methods · otherwise)
  | some body => adds_visitList body
  | none => adds_nothing

end

end Node

/-- Rendering in one environment starts and ends with the data alone, and its output is the text of
the template. -/
theorem Template.run_visitList (template : Template) (data : Value) (methods : Registry) :
    (Node.visitList methods template.nodes).run ⟨.ofData data, []⟩ =
      ((), ⟨.ofData data, (template.render data methods).toList⟩) := by
  rw [Node.adds_visitList]
  simp [Node.Progress.add, Template.render]

end TextTemplate
