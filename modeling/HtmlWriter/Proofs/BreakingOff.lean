import HtmlWriter.Proofs.OpenElements
import HtmlWriter.Proofs.Programs

/-! Where the machine breaks off. That is where a line is indented by more units than a text has
room for, and where a body is entered, or the depth increased, at the largest depth. Nothing else
that is written asks for more than a machine can do. -/

namespace HtmlWriter
open Script Document Writing
variable {ε σ α β : Type}

namespace Action

theorem breaksOff_bind (first : Action ε σ α) (next : α → Action ε σ β) (state : σ) :
    (first >>= next).breaksOff state = (first.breaksOff state ||
      match first.run state with
      | .ok value middle => (next value).breaksOff middle
      | .error _ _ => false) := by
  rw [breaksOff, breaksOff, outcome?_bind]
  cases seen : first.outcome? state with
  | none => rfl
  | some result =>
    rw [first.agrees state result seen]
    cases result <;> rfl

theorem breaksOff_tryCatch (body : Action ε σ α) (handler : ε → Action ε σ α) (state : σ) :
    (tryCatch body handler).breaksOff state = (body.breaksOff state ||
      match body.run state with
      | .ok _ _ => false
      | .error error middle => (handler error).breaksOff middle) := by
  rw [breaksOff, breaksOff, outcome?_tryCatch]
  cases seen : body.outcome? state with
  | none => rfl
  | some result =>
    rw [body.agrees state result seen]
    cases result <;> rfl

theorem breaksOff_demand (fits : Bool) (state : σ) :
    (demand fits : Action ε σ Unit).breaksOff state = !fits := by
  cases fits <;> rfl

theorem breaksOff_demand_bind (fits : Bool) {rest : Action ε σ α} {state : σ}
    (goesOn : rest.breaksOff state = false) :
    (demand fits >>= fun _ => rest).breaksOff state = !fits := by
  rw [breaksOff_bind, breaksOff_demand, run_demand]
  dsimp only
  rw [goesOn, Bool.or_false]

theorem breaksOff_discard (action : Action ε σ α) (state : σ) :
    (do let _ ← action : Action ε σ Unit).breaksOff state = action.breaksOff state := by
  rw [breaksOff_bind]
  cases action.run state <;> exact Bool.or_false _

end Action

theorem indentation_of_standing {document final : Document}
    (same : final.standing = document.standing) (offset : Int64) :
    final.format.indentation offset = document.format.indentation offset := by
  have depth : final.format.depth = document.format.depth :=
    congrArg (fun standing => standing.settings.depth) same
  rw [Format.indentation, Format.indentation, depth]

/-- An action is broken off only where it indents a line, and then by more than there is room for. -/
def Indents (offset? : Option Int64) (action : Writing α) : Prop :=
  ∀ ⦃document⦄, action.breaksOff document = true →
    ∃ offset ∈ offset?, longestText < document.format.indentation offset

namespace Indents
variable {offset? : Option Int64}

theorem always (run : Document → EStateM.Result Error Document α) :
    Indents offset? (Action.always run) := by
  intro document off
  cases off

theorem bind {first : Writing α} {next : α → Writing β} (started : Indents offset? first)
    (kept : Keeps standing first) (rest : ∀ value, Indents offset? (next value)) :
    Indents offset? (first >>= next) := by
  intro document off
  rw [Action.breaksOff_bind, Bool.or_eq_true] at off
  rcases off with off | off
  · exact started off
  · split at off
    · rename_i value middle ran
      obtain ⟨offset, asked, wide⟩ := rest value off
      exact ⟨offset, asked, indentation_of_standing (kept.of_ok ran) offset ▸ wide⟩
    · cases off

theorem ite {condition : Prop} [Decidable condition] {yes no : Writing α}
    (first : Indents offset? yes) (other : Indents offset? no) :
    Indents offset? (if condition then yes else no) := by
  split
  · exact first
  · exact other

theorem ofExcept (verdict : Except Error α) :
    Indents offset? (MonadExcept.ofExcept verdict : Writing α) := by
  cases verdict with
  | ok value => exact .always _
  | error error => exact .always _

theorem never {action : Writing α} (indents : Indents none action) (document : Document) :
    action.breaksOff document = false := by
  rw [Bool.eq_false_iff]
  intro off
  obtain ⟨offset, asked, -⟩ := indents off
  cases asked

end Indents

private theorem Writing.indentUnits_breaksOff (count : Nat) (document : Document) :
    (indentUnits count).breaksOff document = !decide (count ≤ longestText) := by
  refine Action.breaksOff_demand_bind _ ?_
  split <;> rfl

theorem Prints.indents {kind : Char → Prop} {offset? : Option Int64} {action : Writing α}
    (prints : Prints kind offset? action) : Indents offset? action := by
  induction prints with
  | write fits | pure value | throw accepts => exact .always _
  | @indent offset wanted asked fits blind =>
    intro document off
    change (if wanted document then indentUnits (document.format.indentation offset)
      else Pure.pure () : Writing Unit).breaksOff document = true at off
    split at off
    · rw [indentUnits_breaksOff] at off
      exact ⟨offset, asked, by simpa using off⟩
    · cases off
  | read blind rest ih => exact .bind (.always _) .get ih
  | bind started rest ihStarted ihRest => exact .bind ihStarted started.keepsStanding ihRest

namespace Indents
variable {offset? : Option Int64}

theorem after {kind : Char → Prop} {first : Writing α} {next : α → Writing β}
    (printed : Prints kind offset? first) (rest : ∀ value, Indents offset? (next value)) :
    Indents offset? (first >>= next) :=
  .bind printed.indents printed.keepsStanding rest

theorem text {next : Unit → Writing β} (text : String) (rest : Indents offset? (next ())) :
    Indents offset? (write text >>= next) :=
  .after (Prints.any text).beside fun _ => rest

theorem guarded {condition : Prop} [Decidable condition] {error : Error} {rest : Writing α}
    (continues : Indents offset? rest) :
    Indents offset? (if condition then (MonadExcept.throw error : Writing Unit) >>= fun _ => rest
      else rest) :=
  .ite (.bind (.always _) (.throw error) fun _ => continues) continues

end Indents

section
variable {offset? : Option Int64}

namespace Writing

theorem comment_indents (text : String) : Indents (some 0) (comment text) :=
  .after (refuseInTag_prints _).beside fun _ =>
    .guarded (.after (indentFresh_prints 0) fun _ => .always _)

theorem textInside_indents (parent : Option Tag) (text : String) :
    Indents offset? (textInside parent text) := by
  have encoded : Indents offset? (encodedText text) := (encodedText_prints text).beside.indents
  refine .bind (.always _) .get fun document => ?_
  cases parent with
  | none => exact encoded
  | some tag =>
    exact .ite (.bind (.always _) .get fun _ => .guarded (.text text (.always _))) encoded

theorem bracket_indents : Indents offset? bracket := .text ">" (.always _)

theorem endTag_indents (tag : Tag) : Indents offset? (endTag tag) :=
  .after (refuseInTag_prints _).beside fun _ => .text _ (.text _ (.text _ (.always _)))

theorem endElement_indents (tag : Tag) : Indents offset? (endElement tag) :=
  .bind (endTag_indents tag) (endTag_keeps tag) fun _ => (endLine_prints tag).beside.indents

theorem beginTag_indents (tag : Tag) (namespaced : Bool) :
    Indents offset? (beginTag tag namespaced) :=
  .text _ (.text _ (.ite (.text _ (.text _ (.text _ (.always _)))) (.always _)))

end Writing

theorem Place.text_indents (place : Place) (content : String) :
    Indents (some 0) (place.text content) :=
  .after (refuseInTag_prints _).beside fun _ => .guarded <|
    .ite (.after (indentFresh_prints 0) fun _ => textInside_indents _ _) (.always _)

theorem Place.element_indents (place : Place) (tag : Tag) :
    Indents (some 0) (place.element tag) := by
  rw [Place.element_eq]
  exact .after (refuseInTag_prints _).beside fun _ => .bind (.always _) .get fun _ =>
    .bind (.ofExcept _) (.ofExcept _) fun _ => .after (lead_prints tag) fun _ =>
      .bind (beginTag_indents tag _) (beginTag_keeps tag _) fun _ => .always _

namespace StartTag

theorem add_indents (start : StartTag) (requested : Attribute) :
    Indents offset? (start.add requested) := by
  refine .bind (.always _) .get fun _ => .bind (.ofExcept _) (.ofExcept _) fun emission => ?_
  obtain ⟨claimed, next, -, same, prints⟩ := start.emit_eq emission
  rw [same]
  exact .bind (.ofExcept _) (.ofExcept _) fun start => (prints start).beside.indents

theorem close_indents (start : StartTag) : Indents offset? start.close := by
  unfold close
  refine .ite ?_ (.bind bracket_indents bracket_keeps fun _ => endElement_indents _)
  exact .bind (.always _) .get fun _ => .text _ <|
    .bind (.always _) (.modify fun _ => rfl) fun _ => (endLine_prints _).beside.indents

theorem text_indents (start : StartTag) (content : String) :
    Indents offset? (start.text content) := by
  have written : Indents offset? (do
      bracket
      textInside (some start.tag) content
      endElement start.tag) :=
    .bind bracket_indents bracket_keeps fun _ =>
      .bind (textInside_indents _ _) (textInside_keeps _ _) fun _ => endElement_indents _
  exact .guarded (.guarded written)

end StartTag

theorem Script.Ending.finish_indents (start : StartTag) (ending : Ending) :
    Indents offset? (ending.finish start) := by
  cases ending with
  | close => exact start.close_indents
  | text content => exact start.text_indents content
  | textOption content =>
    cases content with
    | some content => exact start.text_indents content
    | none => exact start.close_indents
  | giveUp => exact .always _

theorem Body.abandon_indents (body : Body) : Indents offset? body.abandon := by
  unfold abandon
  split
  · exact .always _
  · exact .always _

theorem Script.WriteCall.perform_indents {call : WriteCall} (single : call.isSingle)
    (place : Place) : Indents call.indents? (call.perform place) := by
  cases call with
  | text content => exact place.text_indents content
  | comment content => exact comment_indents content
  | node tree => cases single
  | _ => exact (perform_prints rfl place).indents

end

private theorem tidied_never {action : Writing Unit} (indents : Indents none action)
    (around : Surroundings) (document : Document) :
    (tryCatch action fun error => do leave around; throw error).breaksOff document = false := by
  rw [Action.breaksOff_tryCatch, indents.never]
  cases action.run document <;> rfl

/-- The end tag of a body is indented, if it is, like the element: once the body was left. -/
private theorem Writing.endBody_wide {tag : Tag} {around : Surroundings} {document : Document}
    (off : (endBody tag around).breaksOff document = true) :
    longestText < (finalState (leave around) document).format.indentation 0 := by
  have outside {rest : Writing Unit} (indents : Indents (some 0) rest)
      (off : (leave around >>= fun _ => rest).breaksOff document = true) :
      longestText < (finalState (leave around) document).format.indentation 0 := by
    obtain ⟨offset, ⟨⟩, wide⟩ := indents off
    exact wide
  unfold endBody at off
  split at off
  · rw [tryFinally_eq, Action.breaksOff_bind, tidied_never (endTag_indents tag)] at off
    split at off <;> cases off
  all_goals first
    | exact outside (.after (freshIndentedLine_prints 0) fun _ => endTag_indents tag) off
    | exact outside (.after (indentFresh_prints 0) fun _ => endTag_indents tag) off

theorem Body.close_wide {body : Body} {document : Document}
    (off : body.close.breaksOff document = true) :
    ∃ around, body.around = some around ∧
      longestText < (finalState (leave around) document).format.indentation 0 := by
  cases held : body.around with
  | none =>
    rw [close_ended held] at off
    cases off
  | some around =>
    rw [close_eq held, Action.breaksOff_bind,
      tidied_never (refuseInTag_prints _).indents, Action.run_tryCatch] at off
    refine ⟨around, rfl, ?_⟩
    cases waiting : document.unfinished with
    | some pending =>
      rw [run_refuseInTag_waiting waiting] at off
      cases off
    | none =>
      rw [run_refuseInTag_idle waiting] at off
      change (endBody body.tag around >>= fun _ => endLine body.tag).breaksOff document = true at off
      rw [Action.breaksOff_bind, Bool.or_eq_true] at off
      rcases off with off | off
      · exact endBody_wide off
      · split at off
        · rw [(endLine_prints _).indents.never] at off
          cases off
        · cases off

/-- A body that is otherwise entered is not entered where it would be too deep. -/
theorem StartTag.openBody_breaksOff (start : StartTag) (document : Document) :
    start.openBody.breaksOff document =
      match start.openBody.run document with
      | .ok _ _ => !document.format.canEnter start.tag.definition.layout
      | .error _ _ => false := by
  rw [openBody_eq]
  split
  · rfl
  · have kept : Keeps standing (bracket >>= fun _ => beginBody start.tag) :=
      .bind bracket_keeps fun _ => (beginBody_prints _).keepsStanding
    have begins : Indents none (bracket >>= fun _ => beginBody start.tag) :=
      .bind bracket_indents bracket_keeps fun _ => (beginBody_prints _).indents
    rw [← bind_assoc]
    generalize (bracket >>= fun _ => beginBody start.tag) = begin at kept begins ⊢
    rw [Action.breaksOff_bind, Action.run_bind, begins.never]
    cases ran : begin.run document with
    | error error final => rfl
    | ok value begun =>
      have same : begun.format.toFormatSettings = document.format.toFormatSettings :=
        congrArg (·.settings) (kept.of_ok ran)
      have entering : (enter start.tag).breaksOff begun =
          !document.format.canEnter start.tag.definition.layout := by
        rw [← same]
        exact Action.breaksOff_demand_bind _ rfl
      dsimp only
      rw [Action.run_bind, Action.breaksOff_bind, entering, run_enter]
      exact Bool.or_false _

/-- Depth is not increased beyond the largest. -/
theorem Script.Adjustment.perform_breaksOff (change : Adjustment) (document : Document) :
    change.perform.breaksOff document = !change.fits document.format.toFormatSettings :=
  Action.breaksOff_demand_bind _ rfl

/-- The offset by which a line is indented in a call, if it indents one. -/
def Call.indents? : Call → Option Int64
  | .write call => call.indents?
  | .start _ | .endBody | .drop => some 0
  | .adjust _ | .detach | .replaceSink _ | .top | .add _ | .finish _ | .openBody | .abandon => none

/-- Whether the caller never gets to hear how a call has ended. -/
def Caller.breaksOff (caller : Caller) (call : Call) : Bool :=
  (caller.writing call).breaksOff caller.document

end HtmlWriter
