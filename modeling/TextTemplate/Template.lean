import TextTemplate.Analysis
import TextTemplate.Diagnostic
import TextTemplate.Digest
import TextTemplate.Interchange.Node
import TextTemplate.Json.Reader
import TextTemplate.Json.Writer
import TextTemplate.Node.Parser
import TextTemplate.Node.Printer
import TextTemplate.Rendering

/-! # Templates

A template is a tree of nodes with a name and the text that it was read from. It is read from such
a text or from its interchange form, and can be rendered, analysed, and written in both forms. -/

namespace TextTemplate

/-- A template. -/
structure Template where
  name : String
  /-- The text of the template. -/
  source : String
  nodes : List Node

namespace Template

/-- The name of a template without one. -/
def defaultName : String := "template"

/-- The template of a source. -/
def compile (source : Source) (limits : Limits) : Except Diagnostic Template :=
  match source.nodes limits with
  | .ok nodes => .ok ⟨source.name, String.ofList source.text, nodes⟩
  | .error fault => .error (.ofFault source fault)

/-- The text that a template gives for some data. -/
def render (template : Template) (data : Value) (methods : Registry) : String :=
  String.ofList (Node.renderList methods (.ofData data) template.nodes)

/-- What the template needs from outside. -/
def analysis (template : Template) : Analysis := .ofNodes template.nodes

/-- The nodes written as a text. -/
def print (template : Template) : String := String.ofList (Node.printList template.nodes)

/-- The digest of the text, which tells whether two templates were read from the same one. -/
def fingerprint (template : Template) : String :=
  String.ofList (Digest.ofString template.source)

/-! ### Interchange -/

/-- The template as an interchange value. -/
def toJson (template : Template) : Json :=
  .object [("name", .string template.name), ("nodes", .array (Node.listToJson template.nodes))]

/-- The template of an interchange value. Its text is what its nodes are written as. -/
def ofJson? (json : Json) : Option Template :=
  match json.record? ["name", "nodes"] 2 with
  | some [some name, some nodes] => do
      let name ← name.string?
      let nodes ← Node.listOfJson? (Json.maxDepth - 1) nodes
      return ⟨name, String.ofList (Node.printList nodes), nodes⟩
  | _ => none

/-- The template of a JSON text. -/
def read? (text : List Char) : Option Template := (Json.read? text).bind ofJson?

end Template

end TextTemplate
