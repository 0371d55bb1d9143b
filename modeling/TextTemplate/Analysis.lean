import TextTemplate.Environment
import TextTemplate.Node.Basic

/-! # Analysis

The names that a template reads from its data, and the methods that it calls. -/

namespace TextTemplate

namespace Expr

mutual

/-- The names that the variables of an expression start from. -/
def roots : Expr → List String
  | .number _ _ | .text _ _ | .boolean _ _ => []
  | .array items _ => rootsOfList items
  | .variable path _ => [pathRoot path]
  | .binary _ left right _ => roots left ++ roots right
  | .unary _ operand _ => roots operand
  | .call _ arguments _ => rootsOfList arguments
  | .member object key _ => roots object ++ roots key

/-- The names that the variables of expressions start from. -/
def rootsOfList : List Expr → List String
  | [] => []
  | expr :: rest => roots expr ++ rootsOfList rest

end

mutual

/-- The names of the methods that an expression calls. -/
def calls : Expr → List String
  | .number _ _ | .text _ _ | .boolean _ _ | .variable _ _ => []
  | .array items _ => callsOfList items
  | .binary _ left right _ => calls left ++ calls right
  | .unary _ operand _ => calls operand
  | .call name arguments _ => name :: callsOfList arguments
  | .member object key _ => calls object ++ calls key

/-- The names of the methods that expressions call. -/
def callsOfList : List Expr → List String
  | [] => []
  | expr :: rest => calls expr ++ callsOfList rest

end

end Expr

namespace Node

mutual

/-- The names that a node reads from the data, inside loops that bind the names `bound`. -/
def reads (bound : List String) : Node → List String
  | .text _ _ | .comment _ _ => []
  | .interpolation expr _ => expr.roots.filter (!bound.contains ·)
  | .loop item index source body _ =>
      source.roots.filter (!bound.contains ·) ++
        readsOfList (item :: index.toList ++ bound) body
  | .choice branches otherwise _ =>
      readsOfBranches bound branches ++ readsOfElse bound otherwise

/-- The names that nodes read from the data. -/
def readsOfList (bound : List String) : List Node → List String
  | [] => []
  | node :: rest => reads bound node ++ readsOfList bound rest

/-- The names that branches read from the data. -/
def readsOfBranches (bound : List String) : List (Expr × List Node) → List String
  | [] => []
  | (condition, body) :: rest =>
      condition.roots.filter (!bound.contains ·) ++ readsOfList bound body ++
        readsOfBranches bound rest

/-- The names that a last branch reads from the data. -/
def readsOfElse (bound : List String) : Option (List Node) → List String
  | some body => readsOfList bound body
  | none => []

end

mutual

/-- The names of the methods that a node calls. -/
def calls : Node → List String
  | .text _ _ | .comment _ _ => []
  | .interpolation expr _ => expr.calls
  | .loop _ _ source body _ => source.calls ++ callsOfList body
  | .choice branches otherwise _ => callsOfBranches branches ++ callsOfElse otherwise

/-- The names of the methods that nodes call. -/
def callsOfList : List Node → List String
  | [] => []
  | node :: rest => calls node ++ callsOfList rest

/-- The names of the methods that branches call. -/
def callsOfBranches : List (Expr × List Node) → List String
  | [] => []
  | (condition, body) :: rest =>
      condition.calls ++ callsOfList body ++ callsOfBranches rest

/-- The names of the methods that a last branch calls. -/
def callsOfElse : Option (List Node) → List String
  | some body => callsOfList body
  | none => []

end

end Node

/-- Names without repetitions, by the order of their characters. -/
def sortedNames (names : List String) : List String := names.eraseDups.mergeSort (· ≤ ·)

/-- What a template needs from outside. -/
structure Analysis where
  /-- The names that it reads from its data. -/
  reads : List String
  /-- The names of the methods that it calls. -/
  calls : List String
  deriving DecidableEq

/-- The analysis of the nodes of a template. -/
def Analysis.ofNodes (nodes : List Node) : Analysis :=
  ⟨sortedNames (Node.readsOfList [] nodes), sortedNames (Node.callsOfList nodes)⟩

end TextTemplate
