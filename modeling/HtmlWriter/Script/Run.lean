import HtmlWriter.Script.Session

/-! Running scripts. Every step ends with one event of its own, after the events of the
steps inside it; only an unwinding passes without. -/

namespace HtmlWriter.Script

def Inquiry.answer (place : Place) (document : Document) : Inquiry → Report
  | .sink => .bytes document.contents
  | .place => .place place document.format.depth
  | .document => .text document.describe

/-- Write attributes in order, and record each that succeeds. -/
def addAttributes (start : StartTag) : List Attribute → Running StartTag
  | [] => return start
  | requested :: rest => do
      let start ← liftM (start.add requested)
      Running.record "attr" none none false
      addAttributes start rest

def Start.begin (place : Place) (start : Start) (attributes : List Attribute) :
    Running StartTag := do
  let opened ← liftM <|
    match start with
    | here tag => place.element tag
    | root => Place.document.element .html
  Running.record "start" none (some (.text opened.tag.name)) false
  addAttributes opened attributes

def Ending.finish (start : StartTag) : Ending → Writing Unit
  | close => start.close
  | text content => start.text content
  | textOption content => start.textOption content
  | giveUp => return

def recordEntered (inside : Place) : Running Unit :=
  Running.record "enter" none (some (.text (parentName inside.parent))) true

mutual

def Step.run (place : Place) : Step → Running Unit
  | .write call => Running.recorded call.word do
      liftM (call.perform place)
      return none
  | .adjust change => Running.recorded change.word do
      liftM change.perform
      return none
  | .inquire question => Running.recorded question.word do
      return some (question.answer place (← get).document)
  | .detach => Running.recorded "detach" do
      Running.collect (← liftM Writing.detach)
  | .replaceSink sink => Running.recorded "replace_sink" do
      Running.collect (← liftM (Writing.replaceSink sink))
  | .fail message => Running.recorded "fail" (throw (.failure (.user message)))
  | .panic message => throw (.panic message)
  | .leaf start attributes ending => Running.recorded "el" do
      let opened ← start.begin place attributes
      liftM (ending.finish opened)
      return none
  | .body start attributes keepsErrors steps => Running.recorded "el" do
      let opened ← start.begin place attributes
      opened.writeBody (ε := Stop) fun inside => do
        recordEntered inside
        if keepsErrors then runAll inside steps
        else Running.withoutUserErrors (runAll inside steps)
      return none
  | .held start attributes steps ends afterwards => Running.recorded "el" do
      let opened ← start.begin place attributes
      let body ← liftM opened.openBody
      recordEntered body.place
      Running.holding body (runAll body.place steps)
      Running.endBody body ends
      let body := if ends = 0 then body else body.ended
      Running.holding body (runAll body.place afterwards)
      Running.drop body false
      return none
  | .chain tags steps => Running.recorded "chain" do
      place.nested (ε := Stop) tags fun inside => runAll inside steps
      return none
  | .top steps => Running.recorded "top" do
      runAll .document steps
      return none
  | .catchPanic steps => Running.recorded "catch" do
      tryCatch (do runAll place steps; return none) fun stop =>
        match stop with
        | .panic message => return some (.panic message)
        | stop => throw stop
  | .attempt step =>
      tryCatch (step.run place) fun stop =>
        match stop with
        | .failure _ => return
        | .panic message => throw (.panic message)

/-- Run steps in order, up to the first that stops. -/
def runAll (place : Place) : List Step → Running Unit
  | [] => return
  | step :: rest => do
      step.run place
      runAll place rest

end

/-- What a run of a script leaves: the record, and how the document ended. -/
structure Outcome where
  events : List Event
  finished : Except Error Sink

def Outcome.of (session : Session) : Outcome where
  events := session.events.toList
  finished := match Writing.finish.run session.document with
    | .ok sink _ => .ok sink
    | .error error _ => .error error

/-- Run a script on a new document, and end the document however the script ended. Nothing is
known of a script that the machine breaks off: no step catches that. -/
def execute (document : Document) (steps : List Step) : Option Outcome :=
  let session := Session.start document
  match ((Step.catchPanic steps).run .document).outcome? session with
  | none => none
  | some (.ok () session) | some (.error _ session) => some (.of session)

end HtmlWriter.Script
