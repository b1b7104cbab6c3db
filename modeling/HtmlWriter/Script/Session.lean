import HtmlWriter.Script.Step

/-! Sessions: a document while a script runs on it, and the record of what happened. An
event tells what the sinks took since the event before it, so the events together tell
all of the output. -/

namespace HtmlWriter.Script

/-- How a step fails: with an error of the writer, or with the caller's own. -/
inductive Failure
  | error (error : Error)
  | user (message : String)
deriving DecidableEq, Repr

/-- Why a run of steps stops early. -/
inductive Stop
  | failure (failure : Failure)
  | panic (message : String)
deriving DecidableEq, Repr

inductive Report
  | text (text : String)
  | flag (on : Bool)
  /-- The bytes that a sink holds, if there is a sink. -/
  | bytes (bytes : Option (List UInt8))
  | place (place : Place) (depth : UInt64)
  | panic (message : String)
deriving DecidableEq, Repr

structure Event where
  word : String
  /-- The bytes that sinks took since the event before. -/
  written : List UInt8
  failure : Option Failure
  report : Option Report
  /-- The formatting state, except in the middle of a start tag. -/
  format : Option Format
deriving DecidableEq, Repr

structure Session where
  document : Document
  /-- The bytes held by the sinks that were taken away, in order. -/
  collected : Array UInt8
  /-- How many bytes of output the record tells of. -/
  reported : Nat
  events : Array Event

namespace Session

def start (document : Document) : Session := ⟨document, #[], 0, #[]⟩

/-- The bytes that the current sink holds, if there is one. -/
def held (session : Session) : Array UInt8 := (session.document.sink.map Sink.held).getD #[]

/-- All bytes that sinks have taken, in order. -/
def output (session : Session) : List UInt8 := session.collected.toList ++ session.held.toList

/-- The output that the record does not tell of yet. -/
def unreported (session : Session) : List UInt8 :=
  (session.collected.extract session.reported).toList ++
    (session.held.extract (session.reported - session.collected.size)).toList

end Session

/-- Running a script changes the session, and may stop. -/
abbrev Running := Action Stop Session

/-- What comes of running something, from what comes of writing it. -/
def Session.passOn {α : Type} (session : Session) :
    EStateM.Result Error Document α → EStateM.Result Stop Session α
  | .ok value document => .ok value { session with document }
  | .error error document => .error (.failure (.error error)) { session with document }

/-- Writing is part of running: its errors are failures of the step. -/
instance : MonadLift Writing Running where
  monadLift writing := {
    run session := session.passOn (writing.run session.document)
    outcome? session := (writing.outcome? session.document).map session.passOn
    agrees session result seen := by
      obtain ⟨written, heard, rfl⟩ := Option.map_eq_some_iff.mp seen
      rw [writing.agrees session.document written heard] }

/-- The session after a run, however the run stopped. -/
def Session.after {α : Type} (session : Session) (running : Running α) : Session :=
  match running.run session with
  | .ok _ session => session
  | .error _ session => session

namespace Running

def record (word : String) (failure : Option Failure) (report : Option Report)
    (withFormat : Bool) : Running Unit :=
  modify fun session =>
    let event : Event := {
      word, failure, report
      written := session.unreported
      format := if withFormat then some session.document.format else none }
    { session with
      reported := session.collected.size + session.held.size
      events := session.events.push event }

/-- Keep what a sink holds that was taken away. -/
def collect (sink : Option Sink) : Running (Option Report) := do
  let held := sink.map Sink.held
  modify fun session => { session with collected := session.collected ++ held.getD #[] }
  return some (.bytes (held.map Array.toList))

/-- Run a step and record how it ended. An unwinding leaves no record on its way. -/
def recorded (word : String) (step : Running (Option Report)) : Running Unit := do
  let report ← tryCatch step fun stop => do
    match stop with
    | .failure failure => record word (some failure) none true
    | .panic _ => pure ()
    throw stop
  record word none report true

/-- Run steps whose own errors leave as failures of the sink. -/
def withoutUserErrors (steps : Running Unit) : Running Unit :=
  tryCatch steps fun stop =>
    match stop with
    | .failure (.user message) => throw (.failure (.error (.sink (.other message))))
    | stop => throw stop

/-- Drop a body that is held open. Nobody hears of errors then; while unwinding the body
is abandoned. -/
def drop (body : Body) (unwinding : Bool) : Running Unit :=
  if unwinding then
    liftM body.abandon
  else
    tryCatch (liftM body.close) fun _ => pure ()

/-- Run steps in a body that is dropped if they stop early. -/
def holding (body : Body) (steps : Running Unit) : Running Unit :=
  tryCatch steps fun stop => do
    drop body (stop matches .panic _)
    throw stop

/-- Request a body to end, so many times, and record each time. The first failure is
passed on after the last. -/
def endBody (body : Body) : Nat → Running Unit
  | 0 => return
  | times + 1 => do
      let stopped ← tryCatch (do liftM body.close; return none) fun stop => return some stop
      let failure := match stopped with
        | some (.failure failure) => some failure
        | _ => none
      record "end" failure (some (.flag body.ended.isEnded)) true
      endBody body.ended times
      match stopped with
      | some stop => throw stop
      | none => return

end Running
end HtmlWriter.Script
