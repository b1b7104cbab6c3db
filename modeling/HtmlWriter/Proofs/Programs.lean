import HtmlWriter.Proofs.Calls
import HtmlWriter.Proofs.Streaming

/-! Callers that decide what to call next by what they heard, and by what they can ask. A program
is such a caller, whatever it decides by. -/

namespace HtmlWriter
open Script Writing

def Call.LeavesSink : Call → Prop
  | .detach | .replaceSink _ => False
  | _ => True

inductive Program
  | done
  | make (call : Call) (next : Except Error Unit → Program)
  | ask (question : Inquiry) (next : Report → Program)

/-- A program that has only one sink, however its calls end. -/
def Program.LeavesSink : Program → Prop
  | done => True
  | make call next => call.LeavesSink ∧ ∀ heard, (next heard).LeavesSink
  | ask _ next => ∀ report, (next report).LeavesSink

/-- A call that was made, and what was heard of it. -/
structure Made where
  caller : Caller
  call : Call
  heard : Except Error Unit

namespace Caller
variable {caller next final : Caller} {call : Call} {heard : Except Error Unit}

/-- Follow a program, as long as its calls can be made on what is in hand. -/
def follow (caller : Caller) : Program → Option (List Made × Caller)
  | .done => some ([], caller)
  | .make call next =>
      match caller.step call with
      | some (heard, after) =>
          (after.follow (next heard)).map fun result =>
            (⟨caller, call, heard⟩ :: result.1, result.2)
      | none => none
  | .ask question next =>
      match caller.place? with
      | some place => caller.follow (next (question.answer place caller.document))
      | none => none

theorem follow_make {rest : Except Error Unit → Program} {history : List Made}
    (followed : caller.follow (.make call rest) = some (history, final)) :
    ∃ heard next later, caller.step call = some (heard, next) ∧
      next.follow (rest heard) = some (later, final) ∧
      history = ⟨caller, call, heard⟩ :: later := by
  rw [follow] at followed
  split at followed
  case h_1 heard next stepped =>
    obtain ⟨⟨later, last⟩, continued, same⟩ := Option.map_eq_some_iff.mp followed
    cases same
    exact ⟨heard, next, later, stepped, continued, rfl⟩
  case h_2 => cases followed

theorem follow_ask {question : Inquiry} {rest : Report → Program} {history : List Made}
    (followed : caller.follow (.ask question rest) = some (history, final)) :
    ∃ place, caller.place? = some place ∧
      caller.follow (rest (question.answer place caller.document)) = some (history, final) := by
  rw [follow] at followed
  split at followed
  case h_1 place here => exact ⟨place, here, followed⟩
  case h_2 => cases followed

theorem follow_keeps (invariant : Caller → Prop)
    (kept : ∀ {caller next call heard}, invariant caller → call.LeavesSink →
      caller.Takes call heard next → invariant next)
    {program : Program} {history : List Made} (leaves : program.LeavesSink)
    (followed : caller.follow program = some (history, final)) (holds : invariant caller) :
    invariant final := by
  induction program generalizing caller history with
  | done =>
    cases followed
    exact holds
  | make call rest ih =>
    obtain ⟨heard, next, later, stepped, continued, -⟩ := follow_make followed
    exact ih heard (leaves.2 heard) continued (kept holds leaves.1 (takes_of_step stepped))
  | ask question rest ih =>
    obtain ⟨place, -, continued⟩ := follow_ask followed
    exact ih _ (leaves _) continued holds

def writing (caller : Caller) : Call → Writing Unit
  | .write call => match caller.place? with
      | some place => call.perform place
      | none => return
  | .adjust change => change.perform
  | .start tag => match caller.place? with
      | some place => do let _ ← place.element tag
      | none => return
  | .add requested => match caller.handles with
      | .tag _ start :: _ => do let _ ← start.add requested
      | _ => return
  | .finish ending => match caller.handles with
      | .tag _ start :: _ => ending.finish start
      | _ => return
  | .openBody => match caller.handles with
      | .tag _ start :: _ => do let _ ← start.openBody
      | _ => return
  | .endBody | .drop => match caller.handles with
      | .body _ body :: _ => body.close
      | .top :: _ | .tag _ _ :: _ | [] => return
  | .abandon => match caller.handles with
      | .body _ body :: _ => body.abandon
      | .top :: _ | .tag _ _ :: _ | [] => return
  | .detach | .replaceSink _ | .top => return

theorem Takes.writing (takes : caller.Takes call heard next) :
    Streams (caller.writing call) ∧ (call.LeavesSink →
      next.document = finalState (caller.writing call) caller.document) := by
  have discards {α : Type} {action : Writing α} (streams : Streams action) :
      Streams (do let _ ← action) := .bind streams fun _ => .pure ()
  have ends {α : Type} (action : Writing α) (document : Document) :
      finalState action document = finalState (do let _ ← action) document := by
    rw [finalState, finalState, Action.run_bind]
    cases action.run document with
    | ok value final => rfl
    | error error final => rfl
  cases takes with
  | @write place call here single =>
    rw [Caller.writing, here]
    exact ⟨call.perform_streams place, fun _ => rfl⟩
  | adjust here change => exact ⟨change.perform_streams, fun _ => rfl⟩
  | detach here | replaceSink here => exact ⟨.pure (), False.elim⟩
  | top here => exact ⟨.pure (), fun _ => rfl⟩
  | @started place tag start document here ran | @refused place tag error document here ran =>
    rw [Caller.writing, here, ← ends, finalState, ran]
    exact ⟨discards (place.element_streams tag), fun _ => rfl⟩
  | @added element start next outer requested document front ran
  | @rejected element start outer requested error document front ran =>
    rw [Caller.writing, front, ← ends, finalState, ran]
    exact ⟨discards (start.add_streams requested), fun _ => rfl⟩
  | @finish element start outer front ending =>
    rw [Caller.writing, front]
    exact ⟨ending.finish_streams start, fun _ => rfl⟩
  | @opened element start outer body document front ran
  | @unopened element start outer error document front ran =>
    rw [Caller.writing, front, ← ends, finalState, ran]
    exact ⟨discards start.openBody_streams, fun _ => rfl⟩
  | @endBody element body outer front | @dropBody element body outer front =>
    rw [Caller.writing, front]
    exact ⟨body.close_streams, fun _ => rfl⟩
  | dropTop front | giveUp front =>
    rw [Caller.writing, front]
    exact ⟨.pure (), fun _ => rfl⟩
  | @abandon element body outer front =>
    rw [Caller.writing, front]
    exact ⟨body.abandon_streams, fun _ => rfl⟩

theorem Takes.streams (takes : caller.Takes call heard next) (leaves : call.LeavesSink) :
    ∃ (α : Type) (action : Writing α), Streams action ∧
      next.document = finalState action caller.document :=
  ⟨Unit, caller.writing call, takes.writing.1, takes.writing.2 leaves⟩

end Caller
end HtmlWriter
