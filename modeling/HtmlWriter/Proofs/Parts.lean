import HtmlWriter.Proofs.Runs

/-! The longer writing functions as sequences of parts. A part is what the layout of an
element decides, or what belongs to one tag; facts about a whole element are put together
from facts about its parts. -/

namespace HtmlWriter

def Tag.isNamespaced (tag : Tag) (serialization : Serialization) : Bool :=
  tag = .html && serialization = .xml

namespace Writing

/-- What the layout of an element asks for before its start tag. -/
def lead (tag : Tag) : Writing Unit :=
  match tag.definition.layout with
  | .inline | .lineBreak => indentFresh 0
  | .block | .root | .verbatim => freshIndentedLine 0

/-- Write the beginning of a start tag. From then on it waits for its attributes. -/
def beginTag (tag : Tag) (namespaced : Bool) : Writing Unit := do
  write "<"
  write tag.name
  if namespaced then
    write " xmlns=\""
    write xhtmlNamespace
    write "\""
  modify fun document => { document with unfinished := some tag }

def beginBody (tag : Tag) : Writing Unit :=
  if tag.definition.layout = .block ∨ tag.definition.layout = .root then freshLine else return

/-- Leave a body and write the end tag, in the order that the layout asks for. -/
def endBody (tag : Tag) (around : Surroundings) : Writing Unit :=
  match tag.definition.layout with
  | .verbatim => tryFinally (endTag tag) (leave around)
  | .block | .root => do
      leave around
      freshIndentedLine 0
      endTag tag
  | .inline | .lineBreak => do
      leave around
      indentFresh 0
      endTag tag

end Writing

open Writing

theorem Place.element_eq (place : Place) (tag : Tag) :
    place.element tag = (do
      refuseInTag (.element tag)
      let document ← get
      MonadExcept.ofExcept (place.check document tag)
      lead tag
      beginTag tag (tag.isNamespaced document.serialization)
      return {
        tag
        model := tag.definition.content.inside place.model
        names := if tag.isNamespaced document.serialization then ["xmlns"] else [] }) := by
  unfold Place.element lead beginTag Tag.isNamespaced
  congr; funext _; congr; funext document; congr; funext _
  dsimp only
  generalize (decide (tag = .html) && decide (document.serialization = .xml)) = namespaced
  cases tag.definition.layout <;> cases namespaced <;>
    simp only [bind_assoc, Bool.false_eq_true, if_true, if_false]

theorem StartTag.openBody_eq (start : StartTag) :
    start.openBody =
      if start.tag.definition.isVoid then throw (.voidElement start.tag)
      else (do
        bracket
        beginBody start.tag
        let around ← enter start.tag
        return {
          tag := start.tag
          place := ⟨some start.tag, start.model⟩
          around := some around }) := by
  unfold StartTag.openBody beginBody
  dsimp only
  split
  · rfl
  · congr; funext _
    split <;> simp only [pure_bind]

theorem Body.close_eq {body : Body} {around : Surroundings} (held : body.around = some around) :
    body.close = (do
      tryCatch (refuseInTag .endTag) fun error => do
        leave around
        throw error
      endBody body.tag around
      endLine body.tag) := by
  unfold Body.close endBody
  simp only [held]
  congr; funext _
  cases body.tag.definition.layout <;> simp only [bind_assoc]

theorem Body.close_ended {body : Body} (ended : body.around = none) : body.close = pure () := by
  simp only [Body.close, ended]

end HtmlWriter
