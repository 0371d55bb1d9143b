import TextTemplate.Expr.Printer
import TextTemplate.Node.Basic

/-! # Writing templates

The text of a tree of nodes, with one blank around what a tag says. -/

namespace TextTemplate.Node

/-- The text of a statement tag. -/
def statementTag (text : List Char) : List Char :=
  "\x7b% ".toList ++ text ++ " %\x7d".toList

/-- The names of a loop. -/
def printNames (item : String) : Option String → List Char
  | some index => item.toList ++ ", ".toList ++ index.toList
  | none => item.toList

mutual

/-- The text of a node. -/
def print : Node → List Char
  | .text content _ => content.toList
  | .interpolation expr _ => "\x7b\x7b ".toList ++ expr.print ++ " \x7d\x7d".toList
  | .comment content _ => "\x7b#".toList ++ content.toList ++ "#\x7d".toList
  | .loop item index source body _ =>
      statementTag ("for ".toList ++ printNames item index ++ " in ".toList ++ source.print) ++
        printList body ++ statementTag "endfor".toList
  | .choice branches otherwise _ =>
      printBranches "if" branches ++ printElse otherwise ++ statementTag "endif".toList

/-- The texts of nodes, one after the other. -/
def printList : List Node → List Char
  | [] => []
  | node :: rest => print node ++ printList rest

/-- The texts of branches, the first of which starts with the given word. -/
def printBranches (word : String) : List (Expr × List Node) → List Char
  | [] => []
  | (condition, body) :: rest =>
      statementTag (word.toList ++ ' ' :: condition.print) ++ printList body ++
        printBranches "elif" rest

/-- The text of the last branch. -/
def printElse : Option (List Node) → List Char
  | none => []
  | some body => statementTag "else".toList ++ printList body

end

end TextTemplate.Node
