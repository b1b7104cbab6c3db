import HtmlWriter.Attribute.Basic
import HtmlWriter.Place

/-! Start tags. A start tag takes attributes until it is finished, and until then
nothing else can be written. One that is given up leaves the document unfinished for
good. -/

namespace HtmlWriter

structure StartTag where
  tag : Tag
  /-- The model in effect inside the element. -/
  model : ContentModel
  /-- The names of the attributes written so far, in lower case. -/
  names : List String
deriving Repr

namespace Writing

/-- Write the bracket that ends a start tag with content. -/
def bracket : Writing Unit := do
  write ">"
  modify fun document => { document with unfinished := none }

def endTag (tag : Tag) : Writing Unit := do
  refuseInTag .endTag
  write "</"
  write tag.name
  write ">"
  modify fun document => { document with rawSuffix := [] }

/-- End the line after a whole element, unless the element is part of a line. -/
def endLine (tag : Tag) : Writing Unit :=
  match tag.definition.layout with
  | .block | .root | .verbatim | .lineBreak => freshLine
  | .inline => return

/-- Write the end tag, and what follows a whole element. -/
def endElement (tag : Tag) : Writing Unit := do
  endTag tag
  endLine tag

end Writing

def xhtmlNamespace : String := "http://www.w3.org/1999/xhtml"

open Writing in
/-- Start an element here. The outermost element of an XML document names its
namespace, which counts as an attribute written. -/
def Place.element (place : Place) (tag : Tag) : Writing StartTag := do
  refuseInTag (.element tag)
  let document ← get
  MonadExcept.ofExcept (place.check document tag)
  match tag.definition.layout with
  | .inline | .lineBreak => indentFresh 0
  | .block | .root | .verbatim => freshIndentedLine 0
  write "<"
  write tag.name
  let namespaced := tag = .html && document.serialization = .xml
  if namespaced then
    write " xmlns=\""
    write xhtmlNamespace
    write "\""
  modify fun document => { document with unfinished := some tag }
  return {
    tag
    model := tag.definition.content.inside place.model
    names := if namespaced then ["xmlns"] else [] }

namespace StartTag
open Writing

/-- Give an attribute's name to the start tag, which takes each name once. Names that
differ only in the case of ASCII letters are the same. -/
def claimName (start : StartTag) (name : String) : Except Error StartTag :=
  let lower := Text.toLowercase name
  if start.names.contains lower then
    .error (.duplicateAttribute name start.tag)
  else
    .ok { start with names := lower :: start.names }

/-- Put an attribute, or nothing, into the start tag. XML has no attribute without a
value, so there a flag's value is its name. -/
def emit (start : StartTag) : Emission → Writing StartTag
  | .nothing => return start
  | .valued name value => do
      let start ← MonadExcept.ofExcept (start.claimName name)
      let document ← get
      write " "
      write name
      write "=\""
      write (document.encoder.value document.serialization value)
      write "\""
      return start
  | .flag name => do
      let start ← MonadExcept.ofExcept (start.claimName name)
      write " "
      write name
      if (← get).serialization = .xml then
        write "=\""
        write name
        write "\""
      return start

/-- Write an attribute, once all checks have passed. -/
def add (start : StartTag) (requested : Attribute) : Writing StartTag := do
  let document ← get
  let emission ← MonadExcept.ofExcept
    (requested.emission ⟨start.tag, document.serialization, document.doctype⟩)
  start.emit emission

def addAll (start : StartTag) (requested : List Attribute) : Writing StartTag :=
  requested.foldlM add start

/-- Finish an element without content. A void element is its start tag alone. -/
def close (start : StartTag) : Writing Unit := do
  if start.tag.definition.isVoid then
    write (← get).serialization.selfClose
    modify fun document => { document with unfinished := none }
    endLine start.tag
  else
    bracket
    endElement start.tag

def text (start : StartTag) (content : String) : Writing Unit := do
  if start.tag.definition.isVoid then
    throw (.voidElement start.tag)
  if !start.model.allowsText then
    throw (.illegalNesting (some start.tag) .text)
  bracket
  textInside (some start.tag) content
  endElement start.tag

/-- Finish an element with text if there is any, and without content if not. -/
def textOption (start : StartTag) : Option String → Writing Unit
  | some content => start.text content
  | none => start.close

end StartTag
end HtmlWriter
