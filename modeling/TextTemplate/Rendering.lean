import TextTemplate.Evaluation
import TextTemplate.Node.Basic

/-! # Rendering

The text that a template gives for some data. -/

namespace TextTemplate

/-- What a loop over a value runs through: the items of an array with their places, or the values of
an object with their keys; nothing for other values. -/
def Value.entries : Value → List (Value × Value)
  | .array items => items.zipIdx.map fun (item, place) => (item, .number (.ofLength place))
  | .object fields => fields.map fun (key, value) => (value, .text key)
  | _ => []

/-- The environment inside a loop, for one of its entries. -/
def Environment.enter (env : Environment) (item : String) (index : Option String)
    (entry : Value × Value) : Environment :=
  -- The name of the place is defined last, so it hides an entry of the same name.
  let env := env.push.define item entry.1
  match index with
  | some name => env.define name entry.2
  | none => env

namespace Node

mutual

/-- The text of a node. -/
def render (methods : Registry) (env : Environment) : Node → List Char
  | .text content _ => content.toList
  | .interpolation expr _ => (expr.eval env methods).display
  | .comment _ _ => []
  | .loop item index source body _ =>
      (source.eval env methods).entries.flatMap fun entry =>
        renderList methods (env.enter item index entry) body
  | .choice branches otherwise _ =>
      match renderBranches methods env branches with
      | some taken => taken
      | none => renderElse methods env otherwise

/-- The texts of nodes, one after the other. -/
def renderList (methods : Registry) (env : Environment) : List Node → List Char
  | [] => []
  | node :: rest => render methods env node ++ renderList methods env rest

/-- The text of the first branch whose condition holds. -/
def renderBranches (methods : Registry) (env : Environment) :
    List (Expr × List Node) → Option (List Char)
  | [] => none
  | (condition, body) :: rest =>
      if (condition.eval env methods).isTruthy then some (renderList methods env body)
      else renderBranches methods env rest

/-- The text of the last branch, if there is one. -/
def renderElse (methods : Registry) (env : Environment) : Option (List Node) → List Char
  | some body => renderList methods env body
  | none => []

end

end Node

end TextTemplate
