import HtmlWriter.Proofs.Restoration
import HtmlWriter.Proofs.Tokens

/-! What callers do, one call after the other. A caller holds the places, start tags and
bodies it got from a document, and uses the one it got last; those before it wait until it
is let go. What is said of every run of calls is said of all callers, since any of them makes
one call after the other, whatever it decides by. -/

namespace HtmlWriter
open Script Writing

/-- Something a caller got and has not let go. Elements are numbered, so that it can be told
which of two elements of the same name an end tag belongs to. -/
inductive Handle
  | top
  | tag (element : Nat) (start : StartTag)
  /-- The body of an element, also when it has ended. -/
  | body (element : Nat) (body : Body)

inductive Piece
  | opening (element : Nat) (tag : Tag)
  | bracket (element : Nat) (tag : Tag)
  | endTag (element : Nat) (tag : Tag)
  /-- Anything else: attributes, text, comments, declarations and blanks, and what a sink held
  before it was given. -/
  | other (bytes : List UInt8)
deriving DecidableEq, Repr

inductive Call
  | write (call : WriteCall)
  | adjust (change : Adjustment)
  | detach
  | replaceSink (sink : Sink)
  | top
  | start (tag : Tag)
  | add (requested : Attribute)
  /-- Finish an element without a body, or give up its start tag. -/
  | finish (ending : Ending)
  | openBody
  | endBody
  /-- Let go of what was got last. A body that has not ended is ended then, and nobody hears
  of errors. -/
  | drop
  /-- Let go of a body without ending it, as failures and unwindings do. -/
  | abandon

structure Caller where
  document : Document
  /-- What is held, the last first. -/
  handles : List Handle := []
  /-- What the sinks had taken that were taken away, in order. -/
  collected : List UInt8 := []
  /-- What was written, in order, apart from the gaps that formatting puts around tags. -/
  pieces : List Piece := []

def Writing.verdict {α : Type} (action : Writing α) (document : Document) : Except Error Unit :=
  match action.run document with
  | .ok _ _ => .ok ()
  | .error error _ => .error error

theorem Writing.ok_of_verdict {α : Type} {action : Writing α} {document : Document}
    (good : action.verdict document = .ok ()) :
    ∃ value final, action.run document = .ok value final := by
  cases ran : action.run document with
  | ok value final => exact ⟨value, final, rfl⟩
  | error error final =>
    rw [verdict, ran] at good
    cases good

def Document.bytes (document : Document) : List UInt8 := document.contents.getD []

def Document.gained (before after : Document) : List UInt8 :=
  after.bytes.drop before.bytes.length

namespace StartTag

def closePieces (start : StartTag) (element : Nat) : Except Error Unit → List Piece
  | .ok () =>
      .bracket element start.tag ::
        if start.tag.definition.isVoid then [] else [.endTag element start.tag]
  | .error _ => []

/-- What was written to finish an element with text. Raw text is rejected after the
bracket. -/
def textPieces (start : StartTag) (element : Nat) (document : Document) (content : String) :
    Except Error Unit → List Piece
  | .ok () => [.bracket element start.tag,
      .other (utf8 ((Token.text (some start.tag) content).markup
        document.encoder document.serialization)),
      .endTag element start.tag]
  | .error (.invalidRawText _) => [.bracket element start.tag]
  | .error _ => []

def pieces (start : StartTag) (element : Nat) (document : Document) (verdict : Except Error Unit) :
    Ending → List Piece
  | .close | .textOption none => start.closePieces element verdict
  | .text content | .textOption (some content) => start.textPieces element document content verdict
  | .giveUp => []

end StartTag

def Body.pieces (body : Body) (element : Nat) (document : Document) : List Piece :=
  match body.close.run document with
  | .ok () _ => if body.isEnded then [] else [.endTag element body.tag]
  | .error _ _ => []

namespace Handle

def element? : Handle → Option Nat
  | top => none
  | tag element _ | body element _ => some element

def place? : Handle → Option Place
  | top => some .document
  | tag _ _ => none
  | body _ opened => some opened.place

/-- Where is written with these in hand, unless the last of them is a start tag. -/
def placeIn : List Handle → Option Place
  | [] => some .document
  | handle :: _ => handle.place?

/-- The element that is open around what is written with it in hand. -/
def open? : Handle → Option Tag
  | body _ opened => if opened.isEnded then none else some opened.tag
  | top | tag _ _ => none

def opens (handles : List Handle) : Path := handles.filterMap open?

end Handle

/-- A tree is not written by one call but by several. -/
def Script.WriteCall.isSingle : WriteCall → Bool
  | .node _ => false
  | _ => true

namespace Caller

def start (sink : Sink) (parameters : Parameters) (encoder : Encoder) : Caller where
  document := .start sink parameters encoder
  pieces := [.other sink.contents]

def place? (caller : Caller) : Option Place := Handle.placeIn caller.handles

/-- The elements whose body was entered and neither ended nor abandoned, innermost first. -/
def openElements (caller : Caller) : Path := Handle.opens caller.handles

def output (caller : Caller) : List UInt8 := caller.collected ++ caller.document.bytes

def becomes (caller : Caller) (document : Document) (handles : List Handle)
    (added : List Piece) : Caller :=
  { caller with document, handles, pieces := caller.pieces ++ added }

def stepAt (caller : Caller) (place : Place) : Call → Option (Except Error Unit × Caller)
  | .write call =>
      let document := finalState (call.perform place) caller.document
      if call.isSingle then
        some ((call.perform place).verdict caller.document,
          caller.becomes document caller.handles [.other (caller.document.gained document)])
      else none
  | .adjust change =>
      some (.ok (), caller.becomes (finalState change.perform caller.document)
        caller.handles [])
  | .detach =>
      some (.ok (), { caller.becomes (finalState detach caller.document) caller.handles [] with
        collected := caller.output })
  | .replaceSink sink =>
      some (.ok (), { caller.becomes (finalState (replaceSink sink) caller.document)
        caller.handles [.other sink.contents] with collected := caller.output })
  | .top => some (.ok (), caller.becomes caller.document (.top :: caller.handles) [])
  | .start tag =>
      some <| match (place.element tag).run caller.document with
        | .ok start document => (.ok (), caller.becomes document
            (.tag caller.pieces.length start :: caller.handles) [.opening caller.pieces.length tag])
        | .error error document => (.error error, caller.becomes document caller.handles [])
  | _ => none

/-- Calls that are made on a start tag. All but attributes use it up, and so do attributes
that fail. -/
def stepTag (caller : Caller) (element : Nat) (start : StartTag) (outer : List Handle) :
    Call → Option (Except Error Unit × Caller)
  | .add requested =>
      some <| match (start.add requested).run caller.document with
        | .ok start document => (.ok (), caller.becomes document (.tag element start :: outer)
            [.other (caller.document.gained document)])
        | .error error document => (.error error, caller.becomes document outer
            [.other (caller.document.gained document)])
  | .finish ending =>
      let verdict := (ending.finish start).verdict caller.document
      some (verdict, caller.becomes (finalState (ending.finish start) caller.document) outer
        (start.pieces element caller.document verdict ending))
  | .openBody =>
      some <| match start.openBody.run caller.document with
        | .ok body document => (.ok (), caller.becomes document (.body element body :: outer)
            [.bracket element body.tag])
        | .error error document => (.error error, caller.becomes document outer [])
  | .drop => some (.ok (), caller.becomes caller.document outer [])
  | _ => none

/-- Calls that are made on a body itself, and not at its place. -/
def stepBody (caller : Caller) (element : Nat) (body : Body) (outer : List Handle) :
    Call → Option (Except Error Unit × Caller)
  | .endBody =>
      some (body.close.verdict caller.document, caller.becomes
        (finalState body.close caller.document) (.body element body.ended :: outer)
        (body.pieces element caller.document))
  | .drop =>
      some (.ok (), caller.becomes (finalState body.close caller.document) outer
        (body.pieces element caller.document))
  | .abandon =>
      some (.ok (), caller.becomes (finalState body.abandon caller.document) outer [])
  | _ => none

/-- What comes of a call: what is heard of it, and the caller afterwards. Not every call can
be made on what is in hand. -/
def step (caller : Caller) (call : Call) : Option (Except Error Unit × Caller) :=
  match caller.handles with
  | [] => caller.stepAt .document call
  | .top :: outer =>
      match call with
      | .drop => some (.ok (), caller.becomes caller.document outer [])
      | call => caller.stepAt .document call
  | .tag element start :: outer => caller.stepTag element start outer call
  | .body element body :: outer =>
      (caller.stepBody element body outer call).or (caller.stepAt body.place call)

def run (caller : Caller) : List Call → Option (List (Except Error Unit) × Caller)
  | [] => some ([], caller)
  | call :: rest =>
      match caller.step call with
      | some (heard, next) =>
          (next.run rest).map fun result => (heard :: result.1, result.2)
      | none => none

/-- All that can come of a call, and on what it can be made. -/
inductive Takes (caller : Caller) : Call → Except Error Unit → Caller → Prop
  | write {place : Place} {call : WriteCall} (here : caller.place? = some place)
      (single : call.isSingle) :
      Takes caller (.write call) ((call.perform place).verdict caller.document)
        (caller.becomes (finalState (call.perform place) caller.document) caller.handles
          [.other (caller.document.gained (finalState (call.perform place) caller.document))])
  | adjust {place : Place} (here : caller.place? = some place) (change : Adjustment) :
      Takes caller (.adjust change) (.ok ())
        (caller.becomes (finalState change.perform caller.document)
          caller.handles [])
  | detach {place : Place} (here : caller.place? = some place) :
      Takes caller .detach (.ok ())
        { caller.becomes (finalState Writing.detach caller.document) caller.handles [] with
          collected := caller.output }
  | replaceSink {place : Place} (here : caller.place? = some place) (sink : Sink) :
      Takes caller (.replaceSink sink) (.ok ())
        { caller.becomes (finalState (Writing.replaceSink sink) caller.document) caller.handles
          [.other sink.contents] with collected := caller.output }
  | top {place : Place} (here : caller.place? = some place) :
      Takes caller .top (.ok ()) (caller.becomes caller.document (.top :: caller.handles) [])
  | started {place : Place} {tag : Tag} {start : StartTag} {document : Document}
      (here : caller.place? = some place)
      (ran : (place.element tag).run caller.document = .ok start document) :
      Takes caller (.start tag) (.ok ()) (caller.becomes document
        (.tag caller.pieces.length start :: caller.handles) [.opening caller.pieces.length tag])
  | refused {place : Place} {tag : Tag} {error : Error} {document : Document}
      (here : caller.place? = some place)
      (ran : (place.element tag).run caller.document = .error error document) :
      Takes caller (.start tag) (.error error) (caller.becomes document caller.handles [])
  | added {element : Nat} {start next : StartTag} {outer : List Handle} {requested : Attribute}
      {document : Document} (front : caller.handles = .tag element start :: outer)
      (ran : (start.add requested).run caller.document = .ok next document) :
      Takes caller (.add requested) (.ok ()) (caller.becomes document (.tag element next :: outer)
        [.other (caller.document.gained document)])
  | rejected {element : Nat} {start : StartTag} {outer : List Handle} {requested : Attribute}
      {error : Error} {document : Document} (front : caller.handles = .tag element start :: outer)
      (ran : (start.add requested).run caller.document = .error error document) :
      Takes caller (.add requested) (.error error) (caller.becomes document outer
        [.other (caller.document.gained document)])
  | finish {element : Nat} {start : StartTag} {outer : List Handle}
      (front : caller.handles = .tag element start :: outer) (ending : Ending) :
      Takes caller (.finish ending) ((ending.finish start).verdict caller.document)
        (caller.becomes (finalState (ending.finish start) caller.document) outer
          (start.pieces element caller.document
            ((ending.finish start).verdict caller.document) ending))
  | opened {element : Nat} {start : StartTag} {outer : List Handle} {body : Body}
      {document : Document} (front : caller.handles = .tag element start :: outer)
      (ran : start.openBody.run caller.document = .ok body document) :
      Takes caller .openBody (.ok ()) (caller.becomes document (.body element body :: outer)
        [.bracket element body.tag])
  | unopened {element : Nat} {start : StartTag} {outer : List Handle} {error : Error}
      {document : Document} (front : caller.handles = .tag element start :: outer)
      (ran : start.openBody.run caller.document = .error error document) :
      Takes caller .openBody (.error error) (caller.becomes document outer [])
  | endBody {element : Nat} {body : Body} {outer : List Handle}
      (front : caller.handles = .body element body :: outer) :
      Takes caller .endBody (body.close.verdict caller.document)
        (caller.becomes (finalState body.close caller.document)
          (.body element body.ended :: outer) (body.pieces element caller.document))
  | dropBody {element : Nat} {body : Body} {outer : List Handle}
      (front : caller.handles = .body element body :: outer) :
      Takes caller .drop (.ok ()) (caller.becomes (finalState body.close caller.document) outer
        (body.pieces element caller.document))
  | dropTop {outer : List Handle} (front : caller.handles = .top :: outer) :
      Takes caller .drop (.ok ()) (caller.becomes caller.document outer [])
  | giveUp {element : Nat} {start : StartTag} {outer : List Handle}
      (front : caller.handles = .tag element start :: outer) :
      Takes caller .drop (.ok ()) (caller.becomes caller.document outer [])
  | abandon {element : Nat} {body : Body} {outer : List Handle}
      (front : caller.handles = .body element body :: outer) :
      Takes caller .abandon (.ok ())
        (caller.becomes (finalState body.abandon caller.document) outer [])

variable {caller next final : Caller} {call : Call} {heard : Except Error Unit}

private theorem takes_of_stepAt {place : Place} (here : caller.place? = some place)
    (stepped : caller.stepAt place call = some (heard, next)) : caller.Takes call heard next := by
  cases call with
  | write call =>
    rw [stepAt] at stepped
    split at stepped
    · cases stepped
      exact .write here ‹_›
    · cases stepped
  | adjust change => cases stepped; exact .adjust here change
  | detach => cases stepped; exact .detach here
  | replaceSink sink => cases stepped; exact .replaceSink here sink
  | top => cases stepped; exact .top here
  | start tag =>
    rw [stepAt] at stepped
    cases ran : (place.element tag).run caller.document with
    | ok start document => rw [ran] at stepped; cases stepped; exact .started here ran
    | error error document => rw [ran] at stepped; cases stepped; exact .refused here ran
  | _ => cases stepped

private theorem takes_of_stepTag {element : Nat} {start : StartTag} {outer : List Handle}
    (front : caller.handles = .tag element start :: outer)
    (stepped : caller.stepTag element start outer call = some (heard, next)) :
    caller.Takes call heard next := by
  cases call with
  | add requested =>
    rw [stepTag] at stepped
    cases ran : (start.add requested).run caller.document with
    | ok added document => rw [ran] at stepped; cases stepped; exact .added front ran
    | error error document => rw [ran] at stepped; cases stepped; exact .rejected front ran
  | finish ending => cases stepped; exact .finish front ending
  | openBody =>
    rw [stepTag] at stepped
    cases ran : start.openBody.run caller.document with
    | ok body document => rw [ran] at stepped; cases stepped; exact .opened front ran
    | error error document => rw [ran] at stepped; cases stepped; exact .unopened front ran
  | drop => cases stepped; exact .giveUp front
  | _ => cases stepped

private theorem takes_of_stepBody {element : Nat} {body : Body} {outer : List Handle}
    (front : caller.handles = .body element body :: outer)
    (stepped : caller.stepBody element body outer call = some (heard, next)) :
    caller.Takes call heard next := by
  cases call with
  | endBody => cases stepped; exact .endBody front
  | drop => cases stepped; exact .dropBody front
  | abandon => cases stepped; exact .abandon front
  | _ => cases stepped

theorem takes_of_step (stepped : caller.step call = some (heard, next)) :
    caller.Takes call heard next := by
  rw [step] at stepped
  split at stepped
  case h_1 front => exact takes_of_stepAt (by rw [place?, front]; rfl) stepped
  case h_2 outer front =>
    split at stepped
    · cases stepped
      exact .dropTop front
    · exact takes_of_stepAt (by rw [place?, front]; rfl) stepped
  case h_3 front => exact takes_of_stepTag front stepped
  case h_4 front =>
    rw [Option.or_eq_some_iff] at stepped
    cases stepped with
    | inl itself => exact takes_of_stepBody front itself
    | inr inside => exact takes_of_stepAt (by rw [place?, front]; rfl) inside.2

private theorem step_of_stepAt {place : Place} (here : caller.place? = some place)
    (stepped : caller.stepAt place call = some (heard, next)) :
    caller.step call = some (heard, next) := by
  rw [place?] at here
  rw [step]
  cases front : caller.handles with
  | nil =>
    rw [front] at here
    cases here
    exact stepped
  | cons handle outer =>
    rw [front] at here
    cases handle with
    | top =>
      cases here
      cases call with
      | drop => cases stepped
      | _ => exact stepped
    | tag element start => cases here
    | body element body =>
      cases here
      cases call with
      | endBody | drop | abandon => cases stepped
      | _ => exact stepped

theorem step_of_takes (takes : caller.Takes call heard next) :
    caller.step call = some (heard, next) := by
  cases takes with
  | write here single => exact step_of_stepAt here (by rw [stepAt, if_pos single])
  | adjust here change => exact step_of_stepAt here rfl
  | detach here => exact step_of_stepAt here rfl
  | replaceSink here sink => exact step_of_stepAt here rfl
  | top here => exact step_of_stepAt here rfl
  | started here ran => exact step_of_stepAt here (by rw [stepAt, ran])
  | refused here ran => exact step_of_stepAt here (by rw [stepAt, ran])
  | added front ran | rejected front ran | opened front ran | unopened front ran =>
    rw [step, front]
    simp only [stepTag, ran]
  | finish front ending => rw [step, front]; rfl
  | endBody front => rw [step, front]; rfl
  | dropBody front => rw [step, front]; rfl
  | dropTop front => rw [step, front]
  | giveUp front => rw [step, front]; rfl
  | abandon front => rw [step, front]; rfl

theorem run_cons {rest : List Call} {answers : List (Except Error Unit)}
    (ran : caller.run (call :: rest) = some (answers, final)) :
    ∃ heard next later, caller.step call = some (heard, next) ∧
      next.run rest = some (later, final) ∧ answers = heard :: later := by
  rw [run] at ran
  split at ran
  case h_1 heard next stepped =>
    obtain ⟨⟨later, last⟩, continued, same⟩ := Option.map_eq_some_iff.mp ran
    cases same
    exact ⟨heard, next, later, stepped, continued, rfl⟩
  case h_2 => cases ran

theorem run_of_step {rest : List Call} {answers : List (Except Error Unit)}
    (stepped : caller.step call = some (heard, next))
    (continued : next.run rest = some (answers, final)) :
    caller.run (call :: rest) = some (heard :: answers, final) := by
  rw [run, stepped]
  dsimp only
  rw [continued, Option.map_some]

theorem run_keeps (invariant : Caller → Prop) (allowed : Call → Prop)
    (expected : Except Error Unit → Prop)
    (kept : ∀ {caller next call heard}, invariant caller → allowed call → expected heard →
      caller.Takes call heard next → invariant next)
    {calls : List Call} {answers : List (Except Error Unit)}
    (ran : caller.run calls = some (answers, final)) (inside : ∀ call ∈ calls, allowed call)
    (answered : ∀ heard ∈ answers, expected heard) (holds : invariant caller) :
    invariant final := by
  induction calls generalizing caller answers with
  | nil =>
    cases ran
    exact holds
  | cons call rest ih =>
    obtain ⟨heard, next, later, stepped, continued, rfl⟩ := run_cons ran
    exact ih continued (fun call member => inside call (.tail _ member))
      (fun heard member => answered heard (.tail _ member))
      (kept holds (inside call (.head _)) (answered heard (.head _)) (takes_of_step stepped))

end Caller
end HtmlWriter
