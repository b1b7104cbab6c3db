import HtmlWriter.Node

/-! Scripts: what a caller does with a document, as data. A script may misuse the writer
in any way a caller can. It may give up start tags and bodies, fail or unwind in the
middle of a body, write at the top level from inside an element, go on using a body that
was left, and exchange or lose the sink. -/

namespace HtmlWriter.Script

/-- A call that writes, and is not about one element. -/
inductive WriteCall
  | text (content : String)
  | raw (markup : String)
  | comment (content : String)
  | newline
  | space
  | newlineIndent (offset : Int64)
  | indent (offset : Int64)
  | freshLine
  | freshIndentedLine (offset : Int64)
  | indentFresh (offset : Int64)
  | xmlDeclaration
  | doctypeDeclaration
  | node (tree : Node)

namespace WriteCall

def word : WriteCall → String
  | text _ => "text"
  | raw _ => "raw"
  | comment _ => "comment"
  | newline => "nl"
  | space => "sp"
  | newlineIndent _ => "nli"
  | indent _ => "indent"
  | freshLine => "auto_newline"
  | freshIndentedLine _ => "auto_newline_indent"
  | indentFresh _ => "auto_indent"
  | xmlDeclaration => "xml_declaration"
  | doctypeDeclaration => "doctype_declaration"
  | node _ => "fixed"

def perform (place : Place) : WriteCall → Writing Unit
  | text content => place.text content
  | raw markup => Writing.raw markup
  | comment content => Writing.comment content
  | newline => Writing.newline
  | space => Writing.space
  | newlineIndent offset => Writing.newlineIndent offset
  | indent offset => Writing.indent offset
  | freshLine => Writing.freshLine
  | freshIndentedLine offset => Writing.freshIndentedLine offset
  | indentFresh offset => Writing.indentFresh offset
  | xmlDeclaration => Writing.xmlDeclaration
  | doctypeDeclaration => Writing.doctypeDeclaration
  | .node tree => tree.write place

end WriteCall

inductive Adjustment
  | autoNewline (on : Bool)
  | indent (on : Bool)
  | depth (value : UInt64)
  | deeper
  | shallower

namespace Adjustment

def word : Adjustment → String
  | autoNewline _ => "set_auto_newline"
  | indent _ => "set_indent"
  | depth _ => "set_depth"
  | deeper => "inc_depth"
  | shallower => "dec_depth"

def apply (settings : FormatSettings) : Adjustment → FormatSettings
  | autoNewline on => { settings with autoNewline := on }
  | indent on => { settings with indent := on }
  | depth value => { settings with depth := value }
  | deeper => settings.deeper
  | shallower => settings.shallower

/-- Whether the settings can be adjusted so. -/
def fits (settings : FormatSettings) : Adjustment → Bool
  | deeper => settings.canDeepen
  | autoNewline _ | indent _ | depth _ | shallower => true

def perform (change : Adjustment) : Writing Unit := do
  Action.demand (change.fits (← get).format.toFormatSettings)
  Writing.modifySettings (change.apply ·)

end Adjustment

inductive Inquiry
  | sink
  | place
  | document

def Inquiry.word : Inquiry → String
  | sink => "sink"
  | place => "where"
  | document => "debug"

/-- Which element a step starts. The root element can be started without a place, as if
at the top level. -/
inductive Start
  | here (tag : Tag)
  | root

/-- How an element without a body is finished. -/
inductive Ending
  | close
  | text (content : String)
  | textOption (content : Option String)
  /-- The start tag is given up, and stays unfinished. -/
  | giveUp

/-- One thing a caller does. -/
inductive Step
  | write (call : WriteCall)
  | adjust (change : Adjustment)
  | inquire (question : Inquiry)
  | detach
  /-- Put another sink into the place of the one there is. -/
  | replaceSink (sink : Sink)
  | fail (message : String)
  /-- Unwind. Whatever is open on the way is abandoned. -/
  | panic (message : String)
  | leaf (start : Start) (attributes : List Attribute) (ending : Ending)
  /-- Write an element with a body. Errors of the caller's own leave the body as they
  are, or as failures of the sink. -/
  | body (start : Start) (attributes : List Attribute) (keepsErrors : Bool) (steps : List Step)
  /-- Write an element whose body is held open: steps in it, then so many requests to end
  it, then more steps in it if none of the requests failed. At last it is dropped. -/
  | held (start : Start) (attributes : List Attribute) (steps : List Step) (ends : Nat)
      (afterwards : List Step)
  /-- Open elements one in the other, and write into the innermost. -/
  | chain (tags : List Tag) (steps : List Step)
  /-- Write at the top level, wherever the output is. -/
  | top (steps : List Step)
  | catchPanic (steps : List Step)
  /-- Go on after the step even if it fails. -/
  | attempt (step : Step)

end HtmlWriter.Script
