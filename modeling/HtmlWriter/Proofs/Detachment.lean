import HtmlWriter.Proofs.Detours
import HtmlWriter.Proofs.Printing

/-! Documents whose sink was taken away. The first text that reaches such a document fails before
anything else was changed, so whatever is tried on it is as good as not tried. -/

namespace HtmlWriter
open Script Writing
variable {α β : Type}

/-- Without a sink an action fails and changes nothing. -/
def Stuck (action : Writing α) : Prop :=
  ∀ ⦃document⦄, document.sink = none → ∃ error, action.run document = .error error document

/-- Without a sink an action fails and changes nothing, or it has nothing to do with any sink. -/
def Barren (action : Writing α) : Prop :=
  ∀ ⦃document⦄, document.sink = none →
    (∃ error, action.run document = .error error document) ∨
      ∃ value, ∀ sink, action.run { document with sink } = .ok value { document with sink }

private theorem Document.with_none {document : Document} (detached : document.sink = none) :
    { document with sink := none } = document := by
  rw [← detached]

namespace Barren

theorem pure (value : α) : Barren (pure value : Writing α) :=
  fun _ _ => .inr ⟨value, fun _ => rfl⟩

theorem same {action : Writing α} (barren : Barren action) {document : Document}
    (detached : document.sink = none) : finalState action document = document := by
  rcases barren detached with ⟨error, failed⟩ | ⟨value, ran⟩
  · rw [finalState, failed]
  · have ran := ran none
    rw [Document.with_none detached] at ran
    rw [finalState, ran]

theorem bind {first : Writing α} {next : α → Writing β} (started : Barren first)
    (rest : ∀ value, Barren (next value)) : Barren (first >>= next) := by
  intro document detached
  rcases started detached with ⟨error, failed⟩ | ⟨value, ran⟩
  · exact .inl ⟨error, by rw [Action.run_bind, failed]⟩
  · have here := ran none
    rw [Document.with_none detached] at here
    rcases rest value detached with ⟨error, failed⟩ | ⟨result, later⟩
    · exact .inl ⟨error, (run_bind_ok here next).trans failed⟩
    · exact .inr ⟨result, fun sink => (run_bind_ok (ran sink) next).trans (later sink)⟩

theorem read {next : Document → Writing α}
    (blind : ∀ document sink, next { document with sink } = next document)
    (rest : ∀ document, Barren (next document)) :
    Barren ((get : Writing Document) >>= next) := by
  intro document detached
  rcases rest document detached with ⟨error, failed⟩ | ⟨value, ran⟩
  · exact .inl ⟨error, failed⟩
  · refine .inr ⟨value, fun sink => ?_⟩
    change (next { document with sink }).run { document with sink } = _
    rw [blind, ran]

theorem ite {condition : Prop} [Decidable condition] {yes no : Writing α} (first : Barren yes)
    (other : Barren no) : Barren (if condition then yes else no) := by
  split
  · exact first
  · exact other

end Barren

namespace Stuck

theorem barren {action : Writing α} (stuck : Stuck action) : Barren action :=
  fun _ detached => .inl (stuck detached)

theorem write (text : String) : Stuck (write text) := by
  intro document detached
  refine ⟨.sinkDetached, ?_⟩
  simp only [Writing.write, Action.always, detached]

theorem throw (error : Error) : Stuck (throw error : Writing α) := fun _ _ => ⟨error, rfl⟩

theorem bind {first : Writing α} (stuck : Stuck first) (next : α → Writing β) :
    Stuck (first >>= next) := by
  intro document detached
  obtain ⟨error, failed⟩ := stuck detached
  exact ⟨error, by rw [Action.run_bind, failed]⟩

theorem after {first : Writing α} {next : α → Writing β} (started : Barren first)
    (rest : ∀ value, Stuck (next value)) : Stuck (first >>= next) := by
  intro document detached
  rcases started detached with ⟨error, failed⟩ | ⟨value, ran⟩
  · exact ⟨error, by rw [Action.run_bind, failed]⟩
  · have here := ran none
    rw [Document.with_none detached] at here
    obtain ⟨error, failed⟩ := rest value detached
    exact ⟨error, (run_bind_ok here next).trans failed⟩

theorem read {next : Document → Writing α} (rest : ∀ document, Stuck (next document)) :
    Stuck ((get : Writing Document) >>= next) :=
  fun document detached => rest document detached

end Stuck

theorem Barren.guarded {condition : Prop} [Decidable condition] {error : Error}
    {rest : Writing α} (continues : Barren rest) :
    Barren (if condition then (MonadExcept.throw error : Writing Unit) >>= fun _ => rest
      else rest) :=
  .ite ((Stuck.throw error).bind _).barren continues

theorem Prints.barren {kind : Char → Prop} {offset? : Option Int64} {action : Writing α}
    (prints : Prints kind offset? action) :
    Barren action := by
  induction prints with
  | write fits => exact (Stuck.write _).barren
  | pure value => exact .pure value
  | throw accepts => exact (Stuck.throw _).barren
  | indent asked fits blind =>
    refine .read (fun document sink => ?_) fun _ => .ite (.bind ?_ fun _ => ?_) (.pure _)
    · rw [blind]
    · exact fun _ _ => .inr ⟨(), fun _ => rfl⟩
    · exact .ite (Stuck.write _).barren (.pure _)
  | read blind rest ih => exact .read blind ih
  | bind started rest ihStarted ihRest => exact .bind ihStarted ihRest

namespace Writing

theorem comment_barren (text : String) : Barren (comment text) :=
  .bind (refuseInTag_prints _).barren fun _ =>
    .guarded (.bind (indentFresh_prints 0).barren fun _ => (Stuck.write _).barren)

theorem textInside_barren (parent : Option Tag) (text : String) :
    Barren (textInside parent text) := by
  refine .read (fun _ _ => rfl) fun document => ?_
  cases parent with
  | none => exact (encodedText_prints text).barren
  | some tag =>
    refine .ite (.read (fun _ _ => rfl) fun _ => .guarded ?_) (encodedText_prints text).barren
    exact ((Stuck.write text).bind _).barren

theorem beginTag_stuck (tag : Tag) (namespaced : Bool) : Stuck (beginTag tag namespaced) :=
  (Stuck.write "<").bind _

end Writing

theorem Place.text_barren (place : Place) (content : String) : Barren (place.text content) :=
  .bind (refuseInTag_prints _).barren fun _ => .guarded <|
    .ite (.bind (indentFresh_prints 0).barren fun _ => textInside_barren _ _) (.pure ())

theorem Place.element_stuck (place : Place) (tag : Tag) : Stuck (place.element tag) := by
  have checks (verdict : Except Error Unit) :
      Barren (MonadExcept.ofExcept verdict : Writing Unit) := by
    cases verdict with
    | ok value => exact .pure value
    | error error => exact (Stuck.throw error).barren
  rw [Place.element_eq]
  refine .after (refuseInTag_prints _).barren fun _ => .read fun document => ?_
  exact .after (checks _) fun _ => .after (lead_prints tag).barren fun _ =>
    (beginTag_stuck tag _).bind _

theorem Script.WriteCall.perform_barren (call : WriteCall) (place : Place) :
    Barren (call.perform place) := by
  cases call with
  | text content => exact place.text_barren content
  | comment content => exact comment_barren content
  | node tree =>
    cases tree with
    | text content =>
      rw [perform, Node.write]
      exact place.text_barren content
    | comment content =>
      rw [perform, Node.write]
      exact comment_barren content
    | element tag attributes children =>
      rw [perform, Node.write_element]
      exact ((place.element_stuck tag).bind _).barren
  | _ => exact (perform_prints rfl place).barren

/-- Calls that write at a place. -/
def Call.isWriting : Call → Bool
  | .write _ | .start _ => true
  | _ => false

namespace Caller
variable {caller left right next : Caller} {call : Call} {heard : Except Error Unit}

/-- Make the calls that write, one after the other, as long as there is no sink. -/
def writingDetached (calls : Nat → List Call) (count : Nat) (caller : Caller) : Caller :=
  (calls count).foldl (fun caller call =>
    if caller.document.sink.isNone && call.isWriting then caller.attempt call else caller) caller

private theorem unnumbered_of_detached (detached : caller.document.sink = none)
    (writing : call.isWriting) (takes : caller.Takes call heard next) :
    next.unnumbered = caller.unnumbered := by
  have same {document : Document} (kept : document = caller.document) (added : List Piece) :
      (caller.becomes document caller.handles added).unnumbered = caller.unnumbered := by
    rw [kept]
    rfl
  cases takes with
  | @write place call here single => exact same ((call.perform_barren place).same detached) _
  | @started place tag start document here ran =>
    obtain ⟨error, failed⟩ := place.element_stuck tag detached
    rw [failed] at ran
    cases ran
  | @refused place tag error document here ran =>
    obtain ⟨cause, failed⟩ := place.element_stuck tag detached
    rw [failed] at ran
    cases ran
    exact same rfl _
  | _ => cases writing

private theorem unnumbered_writingDetached (calls : Nat → List Call) (count : Nat)
    (same : left.unnumbered = right.unnumbered) :
    (left.writingDetached calls count).unnumbered = right.unnumbered := by
  rw [writingDetached]
  induction calls count generalizing left with
  | nil => exact same
  | cons call rest ih =>
    rw [List.foldl_cons]
    refine ih ?_
    split
    case isTrue allowed =>
      rw [Bool.and_eq_true, Option.isNone_iff_eq_none] at allowed
      obtain ⟨detached, writing⟩ := allowed
      rcases left.attempt_cases call with unmade | ⟨heard, takes⟩
      · rw [unmade, same]
      · rw [unnumbered_of_detached detached writing takes, same]
    case isFalse => exact same

private theorem alike_unnumbered : Alike (fun _ => True) (fun _ => True)
    fun left right => left.unnumbered = right.unnumbered where
  symm := Eq.symm
  place := place?_of_unnumbered
  document same := by rw [document_of_unnumbered same]
  answer same _ place := by rw [document_of_unnumbered same]
  step same _ stepped := step_of_unnumbered same stepped

/-- A script that loses its sink between two texts and gets another. -/
def resumedScript : Program :=
  .make (.start .script) fun _ => .make .openBody fun _ => .make (.write (.text "</scr")) fun _ =>
    .make .detach fun _ => .make (.replaceSink {}) fun _ => .make (.write (.text "ipt")) fun _ =>
      .make .endBody fun _ => .done

end Caller
end HtmlWriter
