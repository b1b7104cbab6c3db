import HtmlWriter.Action
import HtmlWriter.Encoder
import HtmlWriter.Format
import HtmlWriter.Sink
import HtmlWriter.Text.Occurrence

/-! A document being written, and what is written into it outside of elements. Markup
goes to the sink as it is produced; the document keeps only what later output depends
on. A failed call leaves behind what it had already written. -/

namespace HtmlWriter

structure Document where
  /-- Where the output goes, unless the sink was taken away. -/
  sink : Option Sink
  encoder : Encoder
  serialization : Serialization
  doctype : Doctype
  format : Format
  /-- The element whose start tag still takes attributes, if any. -/
  unfinished : Option Tag
  /-- The open elements that forbid descendants, innermost first. -/
  exclusions : List (Tag × Exclusion)
  /-- The end of the raw text written so far in the current element, in lower case and
  too short in bytes for an end tag of its own. -/
  rawSuffix : List Char

/-- Writing changes the document, and may fail. -/
abbrev Writing := Action Error Document

namespace Document

def start (sink : Sink) (parameters : Parameters) (encoder : Encoder) : Document where
  sink := some sink
  encoder := encoder
  serialization := parameters.serialization
  doctype := parameters.doctype
  format := .initial parameters
  unfinished := none
  exclusions := []
  rawSuffix := []

/-- The bytes that the current sink holds, if there is a sink. -/
def contents (document : Document) : Option (List UInt8) := document.sink.map Sink.contents

/-- The state of a document in one line, for people who look for a mistake. -/
def describe (document : Document) : String :=
  let format := document.format
  let unfinished := match document.unfinished with
    | some tag => "Some(\"" ++ tag.name ++ "\")"
    | none => "None"
  "Document \x7b serialization: " ++ document.serialization.label ++
    ", doctype: " ++ document.doctype.label ++
    ", state: FormatState \x7b auto_newline: " ++ toString format.autoNewline ++
    ", indent: " ++ toString format.indent ++
    ", depth: " ++ toString format.depth.toNat ++
    ", at_newline: " ++ toString format.atNewline ++
    " \x7d, open_tag: " ++ unfinished ++
    ", detached: " ++ toString document.sink.isNone ++ " \x7d"

end Document

namespace Writing

/-- Write a text. All output passes through here. When the sink fails, it keeps what it
took, and formatting goes on as if nothing had been written. -/
def write (text : String) : Writing Unit := .always fun document =>
  match document.sink with
  | none => .error .sinkDetached document
  | some sink =>
      match sink.writeAll text.toUTF8.data.toList with
      | (sink, none) =>
          .ok () { document with sink := some sink, format := document.format.after text }
      | (sink, some fault) => .error (.sink fault) { document with sink := some sink }

/-- While a start tag is unfinished, nothing but its attributes can be written. -/
def refuseInTag (attempt : Attempt) : Writing Unit := do
  match (← get).unfinished with
  | some pending => throw (.tagInProgress pending attempt)
  | none => return

def modifySettings (change : FormatSettings → FormatSettings) : Writing Unit :=
  modify fun document =>
    { document with format := document.format.set (change document.format.toFormatSettings) }

/-- The most bytes that a text has room for. -/
def longestText : Nat := 9223372036854775807

/-- Write so many units of indentation, as one text. -/
def indentUnits (count : Nat) : Writing Unit := do
  Action.demand (count ≤ longestText)
  if count > 0 then
    write (String.ofList (List.replicate count Format.indentUnit))

/-- Start a new line, unless automatic newlines are off or a line has just started. -/
def freshLine : Writing Unit := do
  refuseInTag .newline
  if (← get).format.wantsBreak then
    write "\n"

/-- Start a new line where one is wanted, and indent it. -/
def freshIndentedLine (offset : Int64) : Writing Unit := do
  freshLine
  let format := (← get).format
  if format.wantsIndent then
    indentUnits (format.indentation offset)

/-- Indent, if a line has just started and indentation is automatic. -/
def indentFresh (offset : Int64) : Writing Unit := do
  refuseInTag .indentation
  let format := (← get).format
  if format.wantsIndent && format.atNewline then
    indentUnits (format.indentation offset)

def newline : Writing Unit := do
  refuseInTag .newline
  write "\n"

def indent (offset : Int64) : Writing Unit := do
  refuseInTag .indentation
  let format := (← get).format
  if format.indent then
    indentUnits (format.indentation offset)

/-- Start a new line, and indent it if indentation is on. -/
def newlineIndent (offset : Int64) : Writing Unit := do
  newline
  indent offset

def space : Writing Unit := do
  refuseInTag .space
  write " "

/-- Write markup as it is, without a check. -/
def raw (markup : String) : Writing Unit := do
  refuseInTag .rawMarkup
  write markup

/-- Whether a comment of this text ends where it should. A reader ends a comment early
at two hyphens, or right at its start at `>` or `->`; a last hyphen joins the end. -/
def isComment (text : String) : Bool :=
  let chars := text.toList
  !(Text.occursIn ['-', '-'] chars || Text.occursIn ['<', '!', '-', '-'] chars ||
    chars.getLast? == some '-' || ['>'].isPrefixOf chars || ['-', '>'].isPrefixOf chars)

def comment (text : String) : Writing Unit := do
  refuseInTag .comment
  if !isComment text then
    throw (.invalidComment text)
  indentFresh 0
  write ("<!--" ++ text ++ "-->")

/-- Write the declaration that opens an XML document. Other documents have none. -/
def xmlDeclaration : Writing Unit := do
  refuseInTag .xmlDeclaration
  if (← get).serialization = .xml then
    write "<?xml version=\"1.0\" encoding=\"UTF-8\"?>\n"

/-- Write the declaration of the document type, if there is one. -/
def doctypeDeclaration : Writing Unit := do
  refuseInTag .doctype
  let document ← get
  match document.doctype.declaration document.serialization with
  | some declaration =>
      write declaration
      write "\n"
  | none => return

/-- Install a sink, and get the one before it. The formatting state carries on, so the
output continues in the new sink. -/
def replaceSink (sink : Sink) : Writing (Option Sink) :=
  modifyGet fun document => (document.sink, { document with sink := some sink })

/-- Take the sink away. Until there is another, nothing can be written. -/
def detach : Writing (Option Sink) :=
  modifyGet fun document => (document.sink, { document with sink := none })

/-- End the document: flush the sink, and get it. -/
def finish : Writing Sink := do
  refuseInTag .endOfDocument
  match ← detach with
  | none => throw .sinkDetached
  | some sink =>
      match sink.flush with
      | .ok () => return sink
      | .error fault => throw (.sink fault)

end Writing
end HtmlWriter
