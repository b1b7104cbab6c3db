import HtmlWriter.Document
import HtmlWriter.Text.Ascii
import HtmlWriter.Text.Cut

/-! A place to write content: the top level of a document, or the inside of an element.
Content is checked against the model of its place, and elements also against the
exclusions of all open elements. -/

namespace HtmlWriter

/-- Where content is written: the element around it, and the model in effect, which for
a transparent element is the one its own place has, and more. -/
structure Place where
  parent : Option Tag
  model : ContentModel
deriving DecidableEq, Repr, Inhabited

namespace Place

/-- The top level, which accepts anything, so that fragments can be written as well as
whole documents. -/
def document : Place := ⟨none, .anything⟩

/-- Whether an element may start here: the document type has to know it, the model to
allow it, and no open element to forbid it. Of the elements that forbid it the
innermost is reported. -/
def check (place : Place) (document : Document) (tag : Tag) : Except Error Unit :=
  let categories := tag.categories
  if !tag.definition.support.allows document.doctype then
    .error (.unsupportedElement tag document.doctype)
  else if !place.model.allows tag categories then
    .error (.illegalNesting place.parent (.element tag))
  else
    match document.exclusions.find? (fun entry => entry.2.forbids tag categories) with
    | some (ancestor, _) => .error (.forbiddenDescendant ancestor tag)
    | none => .ok ()

end Place

namespace Writing

/-- The characters with which an end tag begins. -/
def endTagOpening (tag : Tag) : List Char := '<' :: '/' :: tag.name.toList

/-- Write text as it is into a raw text element. The first characters of an end tag may
have been written before, so the text is judged together with the end of what was. No more
is remembered than could begin an end tag. -/
def rawText (tag : Tag) (text : String) : Writing Unit := do
  let opening := endTagOpening tag
  let pending := (← get).rawSuffix ++ Text.lowercase text
  if Text.occursIn opening pending then
    throw (.invalidRawText tag)
  write text
  modify fun document =>
    { document with rawSuffix := Text.lastBytes (Text.byteLength opening - 1) pending }

def encodedText (text : String) : Writing Unit := do
  let document ← get
  write (document.encoder.text document.serialization text)

/-- Write text into an element, or at the top level: raw where the syntax reads it raw,
encoded anywhere else. -/
def textInside (parent : Option Tag) (text : String) : Writing Unit := do
  let document ← get
  match parent with
  | some tag =>
      if tag.definition.rawText && document.serialization == .sgml then rawText tag text
      else encodedText text
  | none => encodedText text

end Writing

namespace Place

/-- Write text here. Empty text is checked like any other, but writes nothing, not even
indentation. -/
def text (place : Place) (content : String) : Writing Unit := do
  Writing.refuseInTag .text
  if !place.model.allowsText then
    throw (.illegalNesting place.parent .text)
  if !content.isEmpty then
    Writing.indentFresh 0
    Writing.textInside place.parent content

end Place
end HtmlWriter
