import HtmlWriter.StartTag

/-! Bodies of elements. Entering a body changes the formatting settings and adds the
element's exclusion; whichever way the body is left, both are put back as they were. -/

namespace HtmlWriter

/-- What was in force around a body, and is again once the body is left: the formatting
settings, and so many exclusions. -/
structure Surroundings where
  settings : FormatSettings
  exclusions : Nat
deriving DecidableEq, Repr

/-- The body of an element, which is written to through its place. -/
structure Body where
  tag : Tag
  place : Place
  /-- What to put back, until that is done. -/
  around : Option Surroundings
deriving Repr

namespace Writing

/-- Enter the body of an element: format by its layout, and forbid what it excludes. -/
def enter (tag : Tag) : Writing Surroundings := do
  Action.demand ((← get).format.canEnter tag.definition.layout)
  modifyGet fun document =>
    let definition := tag.definition
    let settings := document.format.toFormatSettings
    (⟨settings, document.exclusions.length⟩,
      { document with
        format := document.format.set (settings.within definition.layout)
        exclusions :=
          if definition.exclusion.isEmpty then document.exclusions
          else (tag, definition.exclusion) :: document.exclusions
        rawSuffix := [] })

/-- Leave a body, whatever happened in it. -/
def leave (around : Surroundings) : Writing Unit :=
  modify fun document =>
    { document with
      format := document.format.set around.settings
      exclusions := document.exclusions.drop (document.exclusions.length - around.exclusions)
      rawSuffix := [] }

end Writing

open Writing in
/-- Finish the start tag and enter the body. Nothing that can fail comes after the body
is entered, so whoever entered it holds it and can leave it. -/
def StartTag.openBody (start : StartTag) : Writing Body := do
  let definition := start.tag.definition
  if definition.isVoid then
    throw (.voidElement start.tag)
  bracket
  if definition.layout = .block ∨ definition.layout = .root then
    freshLine
  let around ← enter start.tag
  return { tag := start.tag, place := ⟨some start.tag, start.model⟩, around := some around }

namespace Body
open Writing

def isEnded (body : Body) : Bool := body.around.isNone

def ended (body : Body) : Body := { body with around := none }

/-- Leave the body and write the end tag. The end tag of a verbatim element belongs to
the verbatim region, so there it comes first. A body that was left already is not left
again. -/
def close (body : Body) : Writing Unit :=
  match body.around with
  | none => return
  | some around => do
      try refuseInTag .endTag
      catch error =>
        leave around
        throw error
      match body.tag.definition.layout with
      | .verbatim =>
          try endTag body.tag
          finally leave around
      | .block | .root =>
          leave around
          freshIndentedLine 0
          endTag body.tag
      | .inline | .lineBreak =>
          leave around
          indentFresh 0
          endTag body.tag
      endLine body.tag

/-- Leave the body without writing anything. -/
def abandon (body : Body) : Writing Unit :=
  match body.around with
  | none => return
  | some around => leave around

end Body

section
variable {m : Type → Type} {ε : Type} [Monad m] [MonadLiftT Writing m] [MonadExceptOf ε m]

/-- Write the body of an element. If that fails, the body is abandoned and the failure
passed on as it is; if not, the element is ended. The body may be written by any
computation that can write, and may fail with failures of its own. -/
def StartTag.writeBody (start : StartTag) (content : Place → m Unit) : m Unit := do
  let body ← liftM start.openBody
  tryCatchThe ε (content body.place) fun failure => do
    liftM body.abandon
    throwThe ε failure
  liftM body.close

/-- Open elements one in the other, and write the body of the innermost. -/
def Place.nested (place : Place) (tags : List Tag) (content : Place → m Unit) : m Unit :=
  match tags with
  | [] => content place
  | tag :: rest => do
      let start ← liftM (place.element tag)
      start.writeBody (ε := ε) fun inside => inside.nested rest content

end
end HtmlWriter
