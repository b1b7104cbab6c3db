import HtmlWriter.Proofs.Capacity
import HtmlWriter.Proofs.OpenElements

/-! What is rejected is rejected before anything is written, so whoever goes on finds the
document as it was. Raw text alone is judged later: its start tag was finished by then, or its
line was indented. -/

namespace HtmlWriter
open Script Writing
variable {α β : Type} {document final : Document} {error : Error}

/-- An action has done nothing yet when it rejects. -/
def RejectsAtOnce (action : Writing α) : Prop :=
  ∀ ⦃document error final⦄, action.run document = .error error final →
    error.isRejection → final = document

theorem Error.Accepts.not_rejection (accepts : error.Accepts) (rejected : error.isRejection) :
    False := by
  rw [accepts] at rejected
  cases rejected

namespace RejectsAtOnce

private theorem of_throws {action : Writing α} (throws : Throws Error.Accepts action) :
    RejectsAtOnce action :=
  fun _ _ _ failed rejected => ((throws failed).not_rejection rejected).elim

theorem throw (error : Error) : RejectsAtOnce (throw error : Writing α) := by
  intro document cause final failed _
  cases failed
  rfl

theorem ofExcept (verdict : Except Error α) :
    RejectsAtOnce (MonadExcept.ofExcept verdict : Writing α) := by
  cases verdict with
  | ok value => exact of_throws (.pure value)
  | error error => exact throw error

theorem ite {condition : Prop} [Decidable condition] {yes no : Writing α}
    (first : RejectsAtOnce yes) (other : RejectsAtOnce no) :
    RejectsAtOnce (if condition then yes else no) := by
  split
  · exact first
  · exact other

theorem after {first : Writing α} {next : α → Writing β} (checks : Keeps id first)
    (started : RejectsAtOnce first) (rest : ∀ value, RejectsAtOnce (next value)) :
    RejectsAtOnce (first >>= next) := by
  intro document error final failed rejected
  cases ran : first.run document with
  | ok value middle =>
    rw [Action.run_bind, ran] at failed
    rw [rest value failed rejected]
    exact checks.of_ok ran
  | error cause middle =>
    rw [Action.run_bind, ran] at failed
    cases failed
    exact started ran rejected

theorem bind {first : Writing α} {next : α → Writing β} (started : RejectsAtOnce first)
    (rest : ∀ value, Throws Error.Accepts (next value)) : RejectsAtOnce (first >>= next) := by
  intro document error final failed rejected
  cases ran : first.run document with
  | ok value middle =>
    rw [Action.run_bind, ran] at failed
    exact ((rest value failed).not_rejection rejected).elim
  | error cause middle =>
    rw [Action.run_bind, ran] at failed
    cases failed
    exact started ran rejected

theorem guarded {condition : Prop} [Decidable condition] {error : Error} {rest : Writing α}
    (continues : RejectsAtOnce rest) :
    RejectsAtOnce (if condition then (MonadExcept.throw error : Writing Unit) >>= fun _ => rest
      else rest) :=
  .ite (.after (.throw error) (.throw error) fun _ => continues) continues

end RejectsAtOnce

theorem Throws.tryCatch {kind : Error → Prop} {action : Writing α} {handler : Error → Writing α}
    (tried : Throws kind action) (handled : ∀ error, kind error → Throws kind (handler error)) :
    Throws kind (tryCatch action handler) := by
  intro document error final failed
  rw [Action.run_tryCatch] at failed
  cases ran : action.run document with
  | ok value middle =>
    rw [ran] at failed
    cases failed
  | error cause middle =>
    rw [ran] at failed
    exact handled cause (tried ran) failed

namespace Writing

private theorem refuseInTag_same (attempt : Attempt) : Keeps id (refuseInTag attempt) := by
  refine .bind .get fun document => ?_
  split
  · exact .throw _
  · exact .pure _

private theorem refuseInTag_rejectsAtOnce (attempt : Attempt) :
    RejectsAtOnce (refuseInTag attempt) :=
  .of_throws (refuseInTag_prints attempt).throws

theorem comment_rejectsAtOnce (text : String) : RejectsAtOnce (comment text) := by
  have written : Throws Error.Accepts
      (indentFresh 0 >>= fun _ => write ("<!--" ++ text ++ "-->")) :=
    .bind (indentFresh_prints 0).throws fun _ => (Prints.any _).throws
  exact .after (refuseInTag_same _) (refuseInTag_rejectsAtOnce _) fun _ =>
    .guarded (.of_throws written)

theorem bracket_throws : Throws Error.Accepts bracket :=
  .bind (Prints.any ">").throws fun _ => .modify _

theorem endTag_throws (tag : Tag) : Throws Error.Accepts (endTag tag) :=
  .bind (refuseInTag_prints _).throws fun _ => .bind (Prints.any _).throws fun _ =>
    .bind (Prints.any _).throws fun _ => .bind (Prints.any _).throws fun _ => .modify _

theorem endElement_throws (tag : Tag) : Throws Error.Accepts (endElement tag) :=
  .bind (endTag_throws tag) fun _ => (endLine_prints tag).throws

private theorem leave_throws (around : Surroundings) :
    Throws Error.Accepts (leave around) := .modify _

private theorem leave_throw_throws (around : Surroundings) (error : Error)
    (accepts : error.Accepts) :
    Throws Error.Accepts (do leave around; throw error : Writing Unit) :=
  .bind (leave_throws around) fun _ => .throw accepts

theorem endBody_throws (tag : Tag) (around : Surroundings) :
    Throws Error.Accepts (endBody tag around) := by
  unfold endBody
  split
  · rw [tryFinally_eq]
    exact .bind ((endTag_throws tag).tryCatch (leave_throw_throws around)) fun _ =>
      leave_throws around
  · exact .bind (leave_throws around) fun _ =>
      .bind (freshIndentedLine_prints 0).throws fun _ => endTag_throws tag
  · exact .bind (leave_throws around) fun _ =>
      .bind (freshIndentedLine_prints 0).throws fun _ => endTag_throws tag
  all_goals
    exact .bind (leave_throws around) fun _ =>
      .bind (indentFresh_prints 0).throws fun _ => endTag_throws tag

end Writing

private theorem Place.element_rejectsAtOnce (place : Place) (tag : Tag) :
    RejectsAtOnce (place.element tag) := by
  intro document error final failed rejected
  cases waiting : document.unfinished with
  | none =>
    have judged := place.element_judged waiting tag
    rw [failed] at judged
    rcases judged with ⟨-, same⟩ | ⟨-, ofSink⟩
    · exact same
    · exact (ofSink.accepts.not_rejection rejected).elim
  | some pending =>
    rw [Place.element_eq, Action.run_bind, run_refuseInTag_waiting waiting] at failed
    cases failed
    rfl

theorem Body.close_throws (body : Body) : Throws Error.Accepts body.close := by
  cases held : body.around with
  | none =>
    rw [close_ended held]
    exact .pure ()
  | some around =>
    rw [close_eq held]
    exact .bind ((refuseInTag_prints _).throws.tryCatch (leave_throw_throws around)) fun _ =>
      .bind (endBody_throws body.tag around) fun _ => (endLine_prints body.tag).throws

namespace StartTag

private theorem emit_rejectsAtOnce (start : StartTag) (emission : Emission) :
    RejectsAtOnce (start.emit emission) := by
  obtain ⟨claimed, next, -, same, prints⟩ := start.emit_eq emission
  rw [same]
  exact .bind (.ofExcept _) fun start => (prints start).throws

private theorem add_rejectsAtOnce (start : StartTag) (requested : Attribute) :
    RejectsAtOnce (start.add requested) := by
  unfold add
  refine .after .get (.of_throws .get) fun document => ?_
  exact .after (.ofExcept _) (.ofExcept _) fun emission => start.emit_rejectsAtOnce emission

theorem close_throws (start : StartTag) : Throws Error.Accepts start.close := by
  unfold close
  refine .ite ?_ (.bind bracket_throws fun _ => endElement_throws _)
  exact .bind .get fun _ => .bind (Prints.any _).throws fun _ => .bind (.modify _) fun _ =>
    (endLine_prints _).throws

private theorem openBody_rejectsAtOnce (start : StartTag) : RejectsAtOnce start.openBody := by
  rw [openBody_eq]
  refine .ite (.throw _) (.of_throws ?_)
  have enters : Throws Error.Accepts (enter start.tag) := by
    intro document error final failed
    rw [run_enter] at failed
    cases failed
  exact .bind bracket_throws fun _ => .bind (beginBody_prints _).throws fun _ =>
    .bind enters fun _ => .pure _

end StartTag

/-- What can come of raw text that is to be written. -/
inductive EndsRaw (tag : Tag) (text : String) (document : Document) :
    EStateM.Result Error Document Unit → Prop
  | rejected (found : endTagOpening tag <:+: document.rawSuffix ++ Text.lowercase text) :
      EndsRaw tag text document (.error (.invalidRawText tag) document)
  | failed {error : Error} {final : Document}
      (absent : ¬ endTagOpening tag <:+: document.rawSuffix ++ Text.lowercase text)
      (ran : (write text).run document = .error error final) :
      EndsRaw tag text document (.error error final)
  | written {final : Document}
      (absent : ¬ endTagOpening tag <:+: document.rawSuffix ++ Text.lowercase text)
      (ran : (write text).run document = .ok () final) :
      EndsRaw tag text document (.ok () { final with
        rawSuffix := Text.lastBytes (Text.byteLength (endTagOpening tag) - 1)
          (document.rawSuffix ++ Text.lowercase text) })

namespace Writing

private theorem rawText_ends (tag : Tag) (text : String) (document : Document) :
    EndsRaw tag text document ((rawText tag text).run document) := by
  change EndsRaw tag text document ((if Text.occursIn (endTagOpening tag)
    (document.rawSuffix ++ Text.lowercase text) then
      (throw (.invalidRawText tag) : Writing Unit) >>= fun _ => _ else _ : Writing Unit).run document)
  split
  case isTrue found => exact .rejected (Text.occursIn_iff_infix _ _ |>.mp found)
  case isFalse absent =>
    rw [Text.occursIn_iff_infix] at absent
    rw [Action.run_bind]
    cases ran : (write text).run document with
    | ok value final => exact .written absent ran
    | error error final => exact .failed absent ran

theorem textInside_ends (parent : Option Tag) (text : String) (document : Document) :
    (∃ tag, parent = some tag ∧ tag.isRaw document.serialization ∧
      EndsRaw tag text document ((textInside parent text).run document)) ∨
    (∀ tag, parent = some tag → tag.isRaw document.serialization = false) ∧
      (textInside parent text).run document = (encodedText text).run document := by
  cases parent with
  | none => exact .inr ⟨nofun, rfl⟩
  | some tag =>
    have cases : (textInside (some tag) text).run document =
        (if tag.isRaw document.serialization then rawText tag text
          else encodedText text : Writing Unit).run document := rfl
    rw [cases]
    cases isRaw : tag.isRaw document.serialization with
    | true => exact .inl ⟨tag, rfl, isRaw, rawText_ends tag text document⟩
    | false => exact .inr ⟨by rintro _ ⟨⟩; exact isRaw, rfl⟩

private theorem textInside_rejected {parent : Option Tag} {text : String}
    (failed : (textInside parent text).run document = .error error final)
    (rejected : error.isRejection) : (∃ tag, error = .invalidRawText tag) ∧ final = document := by
  obtain ⟨tag, -, -, ends⟩ | ⟨-, encoded⟩ := textInside_ends parent text document
  · rw [failed] at ends
    cases ends with
    | rejected found => exact ⟨⟨tag, rfl⟩, rfl⟩
    | failed absent ran =>
      exact ((write_throws text ran).accepts.not_rejection rejected).elim
  · rw [encoded] at failed
    exact (((encodedText_prints text).throws failed).not_rejection rejected).elim

theorem write_ok {text : String} (ran : (write text).run document = .ok () final) :
    final.bytes = document.bytes ++ utf8 text := by
  cases present : document.sink with
  | none =>
    simp only [write, Action.always, present] at ran
    cases ran
  | some sink =>
    have offered := sink.writeAll_offered (utf8 text)
    rw [run_write_of_sink present] at ran
    generalize sink.writeAll (utf8 text) = result at offered ran
    cases offered with
    | all room =>
      cases ran
      simp only [Document.bytes, Document.contents, present, Option.map_some, Option.getD_some,
        Sink.contents_filled]
    | part fault split more room spent => cases ran

private theorem bracket_ok (ran : bracket.run document = .ok () final) :
    final.bytes = document.bytes ++ utf8 ">" := by
  rw [bracket, Action.run_bind] at ran
  cases written : (write ">").run document with
  | ok value middle =>
    have bytes := write_ok written
    rw [written] at ran
    cases ran
    exact bytes
  | error error middle =>
    rw [written] at ran
    cases ran

private theorem indentUnits_ok {count : Nat}
    (ran : (indentUnits count).run document = .ok () final) :
    final.bytes = document.bytes ++ utf8 (Gap.text ⟨false, count⟩) ∧
      (Gap.text ⟨false, count⟩ = "" → final = document) := by
  have text : Gap.text ⟨false, count⟩ =
      String.ofList (List.replicate count Format.indentUnit) := String.empty_append
  rw [indentUnits] at ran
  rw [text]
  split at ran
  case isTrue some =>
    refine ⟨write_ok ran, fun empty => ?_⟩
    have none := congrArg String.toList empty
    simp only [String.toList_ofList, String.toList_empty, List.replicate_eq_nil_iff] at none
    omega
  case isFalse zero =>
    obtain rfl : count = 0 := by omega
    cases ran
    exact ⟨(List.append_nil _).symm, fun _ => rfl⟩

theorem indentFresh_ok (ran : (indentFresh 0).run document = .ok () final) :
    final.bytes = document.bytes ++ utf8 document.format.indentGap.text ∧
      (document.format.indentGap.text = "" → final = document) := by
  rw [indentFresh, Action.run_bind] at ran
  have passes := refuseInTag_same .indentation
  cases refused : (refuseInTag .indentation).run document with
  | error error middle =>
    rw [refused] at ran
    cases ran
  | ok value middle =>
    obtain rfl : middle = document := passes.of_ok refused
    rw [refused] at ran
    change (if middle.format.wantsIndent && middle.format.atNewline then
      indentUnits (middle.format.indentation 0) else pure () : Writing Unit).run middle = _ at ran
    rw [Format.indentGap]
    split at ran
    case isTrue wanted =>
      rw [if_pos wanted]
      exact indentUnits_ok ran
    case isFalse plain =>
      cases ran
      rw [if_neg plain]
      exact ⟨(List.append_nil _).symm, fun _ => rfl⟩

theorem run_of_ok {action : Writing Unit} (heard : .ok () = action.verdict document) :
    action.run document = .ok () (finalState action document) := by
  obtain ⟨value, final, ran⟩ := ok_of_verdict heard.symm
  rw [finalState, ran]

theorem run_of_error {action : Writing Unit} (heard : .error error = action.verdict document) :
    action.run document = .error error (finalState action document) := by
  rw [verdict] at heard
  rw [finalState]
  cases ran : action.run document with
  | ok value final =>
    rw [ran] at heard
    cases heard
  | error cause final =>
    rw [ran] at heard
    cases heard
    rfl

end Writing

/-- A rejection comes at once, or it is one of raw text, before which something was written. -/
inductive Rejected (before : Writing Unit) (document : Document) : Error → Document → Prop
  | atOnce {error : Error} (other : ∀ tag, error ≠ .invalidRawText tag) :
      Rejected before document error document
  | raw {tag : Tag} {final : Document} (ran : before.run document = .ok () final) :
      Rejected before document (.invalidRawText tag) final

/-- What can come of something that is written between other things. -/
inductive EndsBetween (before inside rest : Writing Unit) (document : Document) :
    EStateM.Result Error Document Unit → Prop
  | before {error : Error} {final : Document} (ran : before.run document = .error error final) :
      EndsBetween before inside rest document (.error error final)
  | inside {error : Error} {middle final : Document} (begun : before.run document = .ok () middle)
      (ran : inside.run middle = .error error final) :
      EndsBetween before inside rest document (.error error final)
  | rest {middle last : Document} {result : EStateM.Result Error Document Unit}
      (begun : before.run document = .ok () middle) (written : inside.run middle = .ok () last)
      (ran : rest.run last = result) : EndsBetween before inside rest document result

theorem ends_between (before inside rest : Writing Unit) (document : Document) :
    EndsBetween before inside rest document
      ((do before; inside; rest : Writing Unit).run document) := by
  rw [Action.run_bind]
  cases begun : before.run document with
  | error error final => exact .before begun
  | ok value middle =>
    dsimp only
    rw [Action.run_bind]
    cases written : inside.run middle with
    | error error final => exact .inside begun written
    | ok value last => exact .rest begun written rfl

/-- What can come of text that is to be written at a place. -/
inductive EndsText (place : Place) (content : String) (document : Document) :
    EStateM.Result Error Document Unit → Prop
  | refused {error : Error} (other : ∀ tag, error ≠ .invalidRawText tag) :
      EndsText place content document (.error error document)
  | nothing (empty : content.isEmpty = true) : EndsText place content document (.ok () document)
  | unindented {error : Error} {final : Document}
      (ran : (indentFresh 0).run document = .error error final) :
      EndsText place content document (.error error final)
  | reached {middle : Document} {result : EStateM.Result Error Document Unit}
      (full : content.isEmpty = false) (ran : (indentFresh 0).run document = .ok () middle)
      (written : (textInside place.parent content).run middle = result) :
      EndsText place content document result

theorem Place.text_ends (place : Place) (content : String) (document : Document) :
    EndsText place content document ((place.text content).run document) := by
  rw [Place.text, Action.run_bind]
  cases waiting : document.unfinished with
  | some pending =>
    rw [run_refuseInTag_waiting waiting]
    exact .refused nofun
  | none =>
    rw [run_refuseInTag_idle waiting]
    dsimp only
    split
    · exact .refused nofun
    · cases empty : content.isEmpty with
      | true => exact .nothing empty
      | false =>
        simp only [Bool.not_false, if_true]
        rw [Action.run_bind]
        cases ran : (indentFresh 0).run document with
        | ok value middle => exact .reached empty ran rfl
        | error error middle => exact .unindented ran

private theorem Place.text_rejected {place : Place} {content : String}
    (failed : (place.text content).run document = .error error final)
    (rejected : error.isRejection) : Rejected (indentFresh 0) document error final := by
  have ends := place.text_ends content document
  rw [failed] at ends
  cases ends with
  | refused other => exact .atOnce other
  | unindented ran =>
    exact (((indentFresh_prints 0).throws ran).not_rejection rejected).elim
  | reached full ran written =>
    obtain ⟨⟨tag, rfl⟩, rfl⟩ := textInside_rejected written rejected
    exact .raw ran

theorem StartTag.text_cases (start : StartTag) (content : String) :
    (∃ error, (∀ tag, error ≠ .invalidRawText tag) ∧ start.text content = throw error) ∨
      start.text content = (do
        bracket
        textInside (some start.tag) content
        endElement start.tag) := by
  rw [StartTag.text]
  split
  · exact .inl ⟨.voidElement start.tag, nofun, rfl⟩
  · dsimp only
    split
    · exact .inl ⟨.illegalNesting (some start.tag) .text, nofun, rfl⟩
    · exact .inr rfl

private theorem StartTag.text_rejected {start : StartTag} {content : String}
    (failed : (start.text content).run document = .error error final)
    (rejected : error.isRejection) : Rejected bracket document error final := by
  obtain ⟨cause, other, refused⟩ | written := start.text_cases content
  · rw [refused] at failed
    cases failed
    exact .atOnce other
  · have ends := ends_between bracket (textInside (some start.tag) content)
      (endElement start.tag) document
    rw [← written, failed] at ends
    cases ends with
    | before ran => exact ((bracket_throws ran).not_rejection rejected).elim
    | inside begun ran =>
      obtain ⟨⟨tag, rfl⟩, rfl⟩ := textInside_rejected ran rejected
      exact .raw begun
    | rest begun written ran =>
      exact ((endElement_throws start.tag ran).not_rejection rejected).elim

namespace Script

private theorem WriteCall.rejectsAtOnce {call : WriteCall} (single : call.isSingle)
    (other : ∀ content, call ≠ .text content) (place : Place) :
    RejectsAtOnce (call.perform place) := by
  cases call with
  | text content => exact (other content rfl).elim
  | comment content => exact comment_rejectsAtOnce content
  | node tree => cases single
  | _ => exact .of_throws (perform_prints rfl place).throws

private theorem Ending.finish_rejected {start : StartTag} {ending : Ending}
    (failed : (ending.finish start).run document = .error error final)
    (rejected : error.isRejection) : Rejected bracket document error final := by
  cases ending with
  | close => exact ((start.close_throws failed).not_rejection rejected).elim
  | text content => exact start.text_rejected failed rejected
  | textOption content =>
    cases content with
    | some content => exact start.text_rejected failed rejected
    | none => exact ((start.close_throws failed).not_rejection rejected).elim
  | giveUp => cases failed

end Script

/-- What a call writes before it judges raw text. -/
def Call.beforeRaw (format : Format) : Call → String
  | .finish _ => ">"
  | .write (.text _) => format.indentGap.text
  | _ => ""

namespace Caller
variable {caller next : Caller} {call : Call}

/-- What a rejected call has written all the same. -/
def leftBehind (caller : Caller) (call : Call) : Error → String
  | .invalidRawText _ => call.beforeRaw caller.document.format
  | _ => ""

/-- What is found after a call that wrote just this. -/
structure Leaves (caller next : Caller) (text : String) : Prop where
  output : next.output = caller.output ++ utf8 text
  document : next.document = caller.document ↔ text = ""

private theorem leftBehind_of_early {error : Error}
    (early : call.beforeRaw caller.document.format = "") :
    caller.leftBehind call error = "" := by
  cases error with
  | invalidRawText tag => exact early
  | _ => rfl

private theorem leaves_nothing {document : Document} {error : Error}
    (same : document = caller.document)
    (nothing : caller.leftBehind call error = "") (handles : List Handle) (added : List Piece) :
    caller.Leaves (caller.becomes document handles added) (caller.leftBehind call error) := by
  rw [same, nothing]
  exact ⟨(List.append_nil _).symm, iff_of_true rfl rfl⟩

private theorem leaves_of_rejected {before : Writing Unit} {document : Document} {error : Error}
    (rejected : Rejected before caller.document error document)
    (writes : ∀ {final}, before.run caller.document = .ok () final →
      final.bytes = caller.document.bytes ++ utf8 (call.beforeRaw caller.document.format) ∧
        (call.beforeRaw caller.document.format = "" → final = caller.document))
    (handles : List Handle) (added : List Piece) :
    caller.Leaves (caller.becomes document handles added) (caller.leftBehind call error) := by
  cases rejected with
  | atOnce other =>
    refine leaves_nothing rfl ?_ handles added
    cases error with
    | invalidRawText tag => exact (other tag rfl).elim
    | _ => rfl
  | raw ran =>
    obtain ⟨bytes, same⟩ := writes ran
    refine ⟨?_, fun unchanged => ?_, same⟩
    · rw [output, output, List.append_assoc]
      exact congrArg (caller.collected ++ ·) bytes
    · change document = caller.document at unchanged
      rw [unchanged] at bytes
      exact utf8_injective (List.append_cancel_left (bytes.symm.trans (List.append_nil _).symm))

/-- A call that is rejected has written nothing, and leaves the document as it was: the sink, the
formatting, the exclusions, what is remembered of raw text, and whether a start tag is unfinished.
Only raw text is rejected too late. By then the bracket of its start tag was written, or the
indentation of its line. -/
theorem rejected_call_leaves {error : Error}
    (stepped : caller.step call = some (.error error, next))
    (rejected : error.isRejection) :
    next.output = caller.output ++ utf8 (caller.leftBehind call error) ∧
      (next.document = caller.document ↔ caller.leftBehind call error = "") := by
  suffices caller.Leaves next (caller.leftBehind call error) from ⟨this.output, this.document⟩
  have takes := takes_of_step stepped
  generalize heard : (.error error : Except Error Unit) = answer at takes
  cases takes with
  | adjust here change | detach here | replaceSink here | top here | started here ran
  | added front ran | opened front ran | dropBody front | dropTop front | giveUp front
  | abandon front => cases heard
  | @write place call here single =>
    have failed := run_of_error heard
    -- Of all that is written at a place, text alone may be rejected behind its indentation.
    by_cases isText : ∃ content, call = .text content
    · obtain ⟨content, rfl⟩ := isText
      exact leaves_of_rejected (Place.text_rejected failed rejected) indentFresh_ok _ _
    · have other : ∀ content, call ≠ .text content := fun content same => isText ⟨content, same⟩
      refine leaves_nothing (call.rejectsAtOnce single other place failed rejected) ?_ _ _
      cases call with
      | text content => exact (other content rfl).elim
      | _ => exact leftBehind_of_early rfl
  | @refused place tag _ document here ran =>
    cases heard
    have same := place.element_rejectsAtOnce tag ran rejected
    exact leaves_nothing same (leftBehind_of_early rfl) _ _
  | @rejected element start outer requested _ document front ran =>
    cases heard
    have same := start.add_rejectsAtOnce requested ran rejected
    exact leaves_nothing same (leftBehind_of_early rfl) _ _
  | @unopened element start outer _ document front ran =>
    cases heard
    have same := start.openBody_rejectsAtOnce ran rejected
    exact leaves_nothing same (leftBehind_of_early rfl) _ _
  | @finish element start outer front ending =>
    have late := Ending.finish_rejected (run_of_error heard) rejected
    have mark : ">" ≠ "" := by decide
    have marked {final : Document} (ran : bracket.run caller.document = .ok () final) :
        final.bytes = caller.document.bytes ++
            utf8 ((Call.finish ending).beforeRaw caller.document.format) ∧
          ((Call.finish ending).beforeRaw caller.document.format = "" → final = caller.document) :=
      ⟨bracket_ok ran, fun empty => (mark empty).elim⟩
    exact leaves_of_rejected late marked _ _
  | @endBody element body outer front =>
    exact ((body.close_throws (run_of_error heard)).not_rejection rejected).elim

/-- The second half of an end tag is rejected in a script, and the first half stays remembered. -/
theorem second_half_leaves_nothing : ∃ answers caller next,
    (start {} {} .markup).run [.start .script, .openBody, .write (.text "</scr")] =
        some (answers, caller) ∧
      caller.step (.write (.text "ipt")) = some (.error (.invalidRawText .script), next) ∧
      caller.document.rawSuffix = ['<', '/', 's', 'c', 'r'] ∧
      next.document = caller.document ∧ next.output = utf8 "<script></scr" := by
  have seen : ((start {} {} .markup).run
      [.start .script, .openBody, .write (.text "</scr")]).bind (fun result =>
        (result.2.step (.write (.text "ipt"))).map fun stepped =>
          (stepped.1, result.2.document.rawSuffix, result.2.output,
            result.2.document.format.indentGap)) =
      some (.error (.invalidRawText .script), ['<', '/', 's', 'c', 'r'], utf8 "<script></scr",
        .empty) := rfl
  obtain ⟨⟨answers, caller⟩, ran, seen⟩ := Option.bind_eq_some_iff.mp seen
  obtain ⟨⟨heard, next⟩, stepped, same⟩ := Option.map_eq_some_iff.mp seen
  simp only [Prod.mk.injEq] at same
  obtain ⟨rfl, remembered, output, noIndent⟩ := same
  obtain ⟨written, unchanged⟩ := rejected_call_leaves stepped rfl
  have nothing : caller.leftBehind (.write (.text "ipt")) (.invalidRawText .script) = "" := by
    rw [leftBehind, Call.beforeRaw, noIndent]
    rfl
  refine ⟨answers, caller, next, ran, stepped, remembered, unchanged.mpr nothing, ?_⟩
  rw [written, output, nothing]
  rfl

/-- Raw text is rejected when the start tag of its script is finished already. In the body of a
script it is rejected when its line is indented already. -/
theorem raw_text_is_rejected_late :
    (∃ before after, (start {} {} .markup).step (.start .script) = some (.ok (), before) ∧
      before.step (.finish (.text "</script>")) = some (.error (.invalidRawText .script), after) ∧
      before.output = utf8 "<script" ∧ before.document.unfinished = some .script ∧
      after.output = utf8 "<script>" ∧ after.document.unfinished = none) ∧
    ∃ answers before after, (start {} {} .markup).run [.start .script, .openBody,
          .adjust (.autoNewline true), .adjust (.indent true), .adjust (.depth 1),
          .write .newline] = some (answers, before) ∧
      before.step (.write (.text "</script>")) = some (.error (.invalidRawText .script), after) ∧
      before.output = utf8 "<script>\n" ∧ after.output = utf8 "<script>\n\t" := by
  have bracketed : ((start {} {} .markup).step (.start .script)).bind (fun begun =>
      (begun.2.step (.finish (.text "</script>"))).map fun stepped =>
        (begun.1, stepped.1, begun.2.output, begun.2.document.unfinished, stepped.2.output,
          stepped.2.document.unfinished)) =
      some (.ok (), .error (.invalidRawText .script), utf8 "<script", some .script,
        utf8 "<script>", none) := rfl
  have indented : ((start {} {} .markup).run [.start .script, .openBody,
        .adjust (.autoNewline true), .adjust (.indent true), .adjust (.depth 1),
        .write .newline]).bind (fun result =>
      (result.2.step (.write (.text "</script>"))).map fun stepped =>
        (stepped.1, result.2.output, stepped.2.output)) =
      some (.error (.invalidRawText .script), utf8 "<script>\n", utf8 "<script>\n\t") := rfl
  constructor
  · obtain ⟨⟨heard, before⟩, begun, seen⟩ := Option.bind_eq_some_iff.mp bracketed
    obtain ⟨⟨answer, after⟩, stepped, same⟩ := Option.map_eq_some_iff.mp seen
    simp only [Prod.mk.injEq] at same
    obtain ⟨rfl, rfl, same⟩ := same
    exact ⟨before, after, begun, stepped, same⟩
  · obtain ⟨⟨answers, before⟩, ran, seen⟩ := Option.bind_eq_some_iff.mp indented
    obtain ⟨⟨answer, after⟩, stepped, same⟩ := Option.map_eq_some_iff.mp seen
    simp only [Prod.mk.injEq] at same
    obtain ⟨rfl, same⟩ := same
    exact ⟨answers, before, after, ran, stepped, same⟩

end Caller
end HtmlWriter
