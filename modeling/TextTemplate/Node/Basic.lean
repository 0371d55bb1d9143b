import TextTemplate.Expr.Basic

/-! # Nodes

The tree of a template. Every node knows the span that it was written in, tags included. -/

namespace TextTemplate

/-- A node of a template. -/
inductive Node where
  /-- Text that stands for itself. -/
  | text (content : String) (span : Span)
  /-- An expression whose value is shown. -/
  | interpolation (expr : Expr) (span : Span)
  /-- A remark, which shows nothing. -/
  | comment (content : String) (span : Span)
  /-- A body repeated for every entry of a source. -/
  | loop (item : String) (index : Option String) (source : Expr) (body : List Node) (span : Span)
  /-- The first body whose condition holds, or else the last one. -/
  | choice (branches : List (Expr × List Node)) (otherwise : Option (List Node)) (span : Span)

namespace Node

instance : Inhabited Node := ⟨.text "" default⟩

/-- The span that a node was written in. -/
def span : Node → Span
  | .text _ span | .interpolation _ span | .comment _ span | .loop _ _ _ _ span
  | .choice _ _ span => span

mutual

/-- Whether two nodes are built alike, of the same expressions, and written at the same places. -/
def same : Node → Node → Bool
  | .text content span, .text content' span' => content == content' && span == span'
  | .interpolation expr span, .interpolation expr' span' => expr.same expr' && span == span'
  | .comment content span, .comment content' span' => content == content' && span == span'
  | .loop item index source body span, .loop item' index' source' body' span' =>
      item == item' && index == index' && source.same source' && sameList body body' &&
        span == span'
  | .choice branches otherwise span, .choice branches' otherwise' span' =>
      sameBranches branches branches' && sameOption otherwise otherwise' && span == span'
  | _, _ => false

/-- Whether two lists hold the same nodes in the same order. -/
def sameList : List Node → List Node → Bool
  | [], [] => true
  | node :: rest, node' :: rest' => same node node' && sameList rest rest'
  | _, _ => false

/-- Whether two lists hold the same branches in the same order. -/
def sameBranches : List (Expr × List Node) → List (Expr × List Node) → Bool
  | [], [] => true
  | (condition, body) :: rest, (condition', body') :: rest' =>
      condition.same condition' && sameList body body' && sameBranches rest rest'
  | _, _ => false

/-- Whether two optional bodies are both missing or both the same. -/
def sameOption : Option (List Node) → Option (List Node) → Bool
  | none, none => true
  | some body, some body' => sameList body body'
  | _, _ => false

end

end Node

end TextTemplate
