import HtmlWriter.Body

/-! Markup held as a tree. Writing a tree goes through the same checks as writing its
parts one by one. -/

namespace HtmlWriter

/-- A piece of markup. -/
inductive Node
  | text (content : String)
  | comment (content : String)
  | element (tag : Tag) (attributes : List (String × String)) (children : List Node)
deriving Repr

namespace Node

mutual

/-- Write a piece of markup. An element whose only child is text is finished with the
text, so that no line is broken around it. -/
def write (place : Place) : Node → Writing Unit
  | .text content => place.text content
  | .comment content => Writing.comment content
  | .element tag attributes children => do
      let start ← place.element tag
      let start ← start.addAll (attributes.map fun entry => .custom entry.1 entry.2)
      match children with
      | [] => start.close
      | [.text content] => start.text content
      | children => start.writeBody (ε := Error) fun inside => writeAll inside children

def writeAll (place : Place) : List Node → Writing Unit
  | [] => return
  | node :: rest => do
      write place node
      writeAll place rest

end

/-- The text of a piece of markup on its own. -/
def render (parameters : Parameters) (node : Node) : Except Error (List UInt8) :=
  let writing : Writing Sink := do
    node.write .document
    Writing.finish
  match writing.run (.start {} parameters .markup) with
  | .ok sink _ => .ok sink.contents
  | .error error _ => .error error

end Node
end HtmlWriter
