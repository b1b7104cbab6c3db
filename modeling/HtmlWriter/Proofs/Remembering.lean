import HtmlWriter.Proofs.Outlines
import HtmlWriter.Proofs.Programs
import HtmlWriter.Proofs.Rejections

/-! What is remembered of raw text. A document remembers one end of text, whichever element it was
written in. A text in the body of a raw element is added to it, and it is forgotten when a body is
entered or left and when a whole element has been written. Nothing else changes it. -/

namespace HtmlWriter
open Script Writing
variable {α β : Type} {document final : Document}

/-- The text that an element is finished with. -/
def Script.Ending.text? : Ending → Option String
  | text content => some content
  | textOption content => content
  | close | giveUp => none

/-- The element whose body is written to, if text is raw there. -/
def Caller.raw? (caller : Caller) : Option Tag :=
  (caller.place?.bind Place.parent).filter (·.isRaw caller.document.serialization)

namespace Made

/-- A raw text that was written in a body. Empty text is not written. -/
def run? (made : Made) : Option String :=
  match made.call, made.heard with
  | .write (.text content), .ok () =>
      if !content.isEmpty && made.caller.raw?.isSome then some content else none
  | _, _ => none

/-- A body was entered. -/
def Enters (made : Made) : Prop := made.call = .openBody ∧ made.heard = .ok ()

/-- A body that had not ended was left, with or without an end tag. -/
def Leaves (made : Made) : Prop :=
  (made.call = .endBody ∨ made.call = .drop ∨ made.call = .abandon) ∧
    ∃ element body outer, made.caller.handles = .body element body :: outer ∧ body.isEnded = false

/-- An element with an end tag was to be finished. -/
def Finishes (made : Made) : Prop :=
  ∃ ending element start outer, made.call = .finish ending ∧ ending ≠ .giveUp ∧
    made.caller.handles = .tag element start :: outer ∧ start.tag.definition.isVoid = false

/-- Whatever was remembered before belongs to an element that is past. -/
def Settles (made : Made) : Prop :=
  made.Enters ∨ made.Leaves ∨ made.Finishes ∧ made.heard = .ok ()

/-- Raw text was written, and its element is not past. It may have been finished with the text, but
without an end tag. -/
def Begins (made : Made) : Prop :=
  made.run?.isSome ∨ ∃ ending content element start outer error, made.call = .finish ending ∧
    ending.text? = some content ∧ made.caller.handles = .tag element start :: outer ∧
    start.tag.isRaw made.caller.document.serialization ∧ made.heard = .error error ∧ error.Accepts

end Made

/-- All raw text that was begun belongs to elements that are past. -/
def Settled : List Made → Prop
  | [] => True
  | made :: later => (made.Begins → ∃ past ∈ later, past.Settles) ∧ Settled later

/-- Where an action succeeds, nothing is remembered. -/
def Forgets (action : Writing α) : Prop :=
  ∀ ⦃document value final⦄, action.run document = .ok value final → final.rawSuffix = []

/-- However an action ends, it has not changed what is remembered, or nothing is. -/
def MayForget (action : Writing α) : Prop :=
  ∀ document, (finalState action document).rawSuffix = document.rawSuffix ∨
    (finalState action document).rawSuffix = []

/-- However an action ends, nothing is remembered. -/
def Clears (action : Writing α) : Prop :=
  ∀ document, (finalState action document).rawSuffix = []

theorem Prints.remembers {kind : Char → Prop} {offset? : Option Int64} {action : Writing α}
    (prints : Prints kind offset? action) :
    Keeps Document.rawSuffix action :=
  prints.keeps fun _ _ _ => rfl

namespace Forgets

theorem last {first : Writing α} {next : α → Writing β} (rest : ∀ value, Forgets (next value)) :
    Forgets (first >>= next) := by
  intro document result final ran
  rw [Action.run_bind] at ran
  cases started : first.run document with
  | ok value middle =>
    rw [started] at ran
    exact rest value ran
  | error error middle =>
    rw [started] at ran
    cases ran

theorem before {first : Writing α} {next : α → Writing β} (forgets : Forgets first)
    (kept : ∀ value, Keeps Document.rawSuffix (next value)) : Forgets (first >>= next) := by
  intro document result final ran
  rw [Action.run_bind] at ran
  cases started : first.run document with
  | ok value middle =>
    rw [started] at ran
    exact ((kept value).of_ok ran).trans (forgets started)
  | error error middle =>
    rw [started] at ran
    cases ran

end Forgets

namespace MayForget

theorem of_keeps {action : Writing α} (kept : Keeps Document.rawSuffix action) :
    MayForget action :=
  fun document => .inl (kept document)

/-- What comes after something else leaves what that remembered, or nothing. -/
theorem after {next : α → Writing β} (rest : ∀ value, MayForget (next value)) (first : Writing α)
    (document : Document) :
    (finalState (first >>= next) document).rawSuffix = (finalState first document).rawSuffix ∨
      (finalState (first >>= next) document).rawSuffix = [] := by
  cases ran : first.run document with
  | ok value middle =>
    have begun : finalState first document = middle := by rw [finalState, ran]
    rw [finalState_bind_ok ran, begun]
    exact rest value middle
  | error error middle =>
    have begun : finalState first document = middle := by rw [finalState, ran]
    rw [finalState_bind_error ran, begun]
    exact .inl rfl

theorem bind {first : Writing α} {next : α → Writing β} (started : MayForget first)
    (rest : ∀ value, MayForget (next value)) : MayForget (first >>= next) := by
  intro document
  obtain same | none := after rest first document
  · rw [same]
    exact started document
  · exact .inr none

end MayForget

theorem Clears.bind {first : Writing α} {next : α → Writing β} (clears : Clears first)
    (rest : ∀ value, MayForget (next value)) : Clears (first >>= next) := by
  intro document
  obtain same | none := MayForget.after rest first document
  · rw [same]
    exact clears document
  · exact none

namespace Writing

private theorem leave_clears (around : Surroundings) : Clears (leave around) := fun _ => rfl

theorem bracket_remembers : Keeps Document.rawSuffix bracket :=
  .bind (Prints.any ">").remembers fun _ => .modify fun _ => rfl

theorem comment_remembers (text : String) : Keeps Document.rawSuffix (comment text) :=
  .bind (refuseInTag_prints _).remembers fun _ => .guarded <|
    .bind (indentFresh_prints 0).remembers fun _ => (Prints.any _).remembers

theorem beginTag_remembers (tag : Tag) (namespaced : Bool) :
    Keeps Document.rawSuffix (beginTag tag namespaced) := by
  unfold beginTag
  refine .bind (Prints.any _).remembers fun _ => .bind (Prints.any _).remembers fun _ =>
    .ite ?_ (.modify fun _ => rfl)
  exact .bind (Prints.any _).remembers fun _ => .bind (Prints.any _).remembers fun _ =>
    .bind (Prints.any _).remembers fun _ => .modify fun _ => rfl

private theorem endTag_forgets (tag : Tag) : Forgets (endTag tag) := by
  refine .last fun _ => .last fun _ => .last fun _ => .last fun _ => ?_
  intro document value final ran
  cases ran
  rfl

private theorem endTag_mayForget (tag : Tag) : MayForget (endTag tag) := by
  have text (text : String) : MayForget (write text) := .of_keeps (Prints.any text).remembers
  refine .bind (.of_keeps (refuseInTag_prints _).remembers) fun _ => .bind (text _) fun _ =>
    .bind (text _) fun _ => .bind (text _) fun _ => ?_
  exact fun _ => .inr rfl

private theorem endElement_forgets (tag : Tag) : Forgets (endElement tag) :=
  (endTag_forgets tag).before fun _ => (endLine_prints tag).remembers

private theorem endElement_mayForget (tag : Tag) : MayForget (endElement tag) :=
  .bind (endTag_mayForget tag) fun _ => .of_keeps (endLine_prints tag).remembers

private theorem endBody_clears (tag : Tag) (around : Surroundings) :
    Clears (endBody tag around) := by
  have line : MayForget (do freshIndentedLine 0; endTag tag) :=
    .bind (.of_keeps (freshIndentedLine_prints 0).remembers) fun _ => endTag_mayForget tag
  have fresh : MayForget (do indentFresh 0; endTag tag) :=
    .bind (.of_keeps (indentFresh_prints 0).remembers) fun _ => endTag_mayForget tag
  unfold endBody
  split
  · intro document
    rw [tryFinally_eq]
    cases written : (endTag tag).run document with
    | ok value middle =>
      have passed :=
        Action.run_tryCatch (endTag tag) (fun error => do leave around; throw error) document
      rw [written] at passed
      rw [finalState_bind_ok passed]
      rfl
    | error error middle =>
      obtain ⟨last, failed⟩ := run_tryCatch_rethrow (fun _ => leave around) written
      rw [finalState_bind_error failed]
      rfl
  all_goals first
  | exact (leave_clears around).bind fun _ => line
  | exact (leave_clears around).bind fun _ => fresh

end Writing

theorem Place.element_remembers (place : Place) (tag : Tag) :
    Keeps Document.rawSuffix (place.element tag) := by
  rw [Place.element_eq]
  exact .bind (refuseInTag_prints _).remembers fun _ => .bind .get fun _ => .bind (.ofExcept _)
    fun _ => .bind (lead_prints tag).remembers fun _ => .bind (beginTag_remembers tag _) fun _ =>
    .pure _

namespace StartTag

theorem add_remembers (start : StartTag) (requested : Attribute) :
    Keeps Document.rawSuffix (start.add requested) := by
  refine .bind .get fun document => .bind (.ofExcept _) fun emission => ?_
  obtain ⟨claimed, next, -, same, prints⟩ := start.emit_eq emission
  rw [same]
  exact .bind (.ofExcept _) fun start => (prints start).remembers

theorem openBody_forgets (start : StartTag) : Forgets start.openBody := by
  intro document body final ran
  obtain ⟨-, begun, -, rfl, -⟩ := start.openBody_ok ran
  rfl

private theorem openBody_failed {start : StartTag} {error : Error}
    (failed : start.openBody.run document = .error error final) :
    final.rawSuffix = document.rawSuffix := by
  have kept : Keeps Document.rawSuffix (bracket >>= fun _ => beginBody start.tag) :=
    .bind bracket_remembers fun _ => (beginBody_prints start.tag).remembers
  rw [openBody_eq] at failed
  split at failed
  · cases failed
    rfl
  · rw [← bind_assoc, Action.run_bind] at failed
    cases begins : (bracket >>= fun _ => beginBody start.tag).run document with
    | error cause middle =>
      rw [begins] at failed
      cases failed
      exact kept.of_error begins
    | ok value begun =>
      rw [begins] at failed
      simp only [Action.run_bind, run_enter] at failed
      cases failed

end StartTag

namespace Body

private theorem close_clears {body : Body} (live : body.isEnded = false) : Clears body.close := by
  intro document
  obtain ⟨around, held⟩ := Option.isSome_iff_exists.mp (Option.isNone_eq_false_iff.mp live)
  cases waiting : document.unfinished with
  | some pending =>
    rw [finalState, run_close_waiting waiting held]
    rfl
  | none =>
    rw [close_eq held]
    have checked : (tryCatch (refuseInTag .endTag) fun error => do
        leave around
        throw error : Writing Unit).run document = .ok () document := by
      rw [Action.run_tryCatch, run_refuseInTag_idle waiting]
    rw [finalState_bind_ok checked]
    exact (endBody_clears body.tag around).bind
      (fun _ => .of_keeps (endLine_prints body.tag).remembers) document

private theorem abandon_clears {body : Body} (live : body.isEnded = false) :
    Clears body.abandon := by
  obtain ⟨around, held⟩ := Option.isSome_iff_exists.mp (Option.isNone_eq_false_iff.mp live)
  rw [abandon, held]
  exact leave_clears around

private theorem close_same {body : Body} (ended : body.isEnded = true) (document : Document) :
    finalState body.close document = document := by
  rw [close_ended (Option.isNone_iff_eq_none.mp ended)]
  rfl

private theorem abandon_ended {body : Body} (ended : body.isEnded = true) (document : Document) :
    finalState body.abandon document = document := by
  rw [abandon, Option.isNone_iff_eq_none.mp ended]
  rfl

end Body

namespace Writing
variable {parent : Option Tag} {text : String}

private theorem textInside_failed {error : Error}
    (failed : (textInside parent text).run document = .error error final) :
    final.rawSuffix = document.rawSuffix := by
  obtain ⟨tag, -, -, ends⟩ | ⟨-, encoded⟩ := textInside_ends parent text document
  · rw [failed] at ends
    cases ends with
    | rejected found => rfl
    | failed absent ran => exact (Prints.any text).remembers.of_error ran
  · rw [encoded] at failed
    exact (encodedText_prints text).remembers.of_error failed

private theorem textInside_plain
    (plain : ∀ tag, parent = some tag → tag.isRaw document.serialization = false)
    (ran : (textInside parent text).run document = .ok () final) :
    final.rawSuffix = document.rawSuffix := by
  obtain ⟨tag, inside, isRaw, -⟩ | ⟨-, encoded⟩ := textInside_ends parent text document
  · rw [plain tag inside] at isRaw
    cases isRaw
  · rw [encoded] at ran
    exact (encodedText_prints text).remembers.of_ok ran

theorem textInside_raw {tag : Tag} (isRaw : tag.isRaw document.serialization)
    (ran : (textInside (some tag) text).run document = .ok () final) :
    ¬ endTagOpening tag <:+: document.rawSuffix ++ Text.lowercase text ∧
      final.rawSuffix = Text.lastBytes (Text.byteLength (endTagOpening tag) - 1)
        (document.rawSuffix ++ Text.lowercase text) := by
  obtain ⟨other, found, -, ends⟩ | ⟨plain, -⟩ := textInside_ends (some tag) text document
  · cases found
    rw [ran] at ends
    cases ends with
    | written absent ran => exact ⟨absent, rfl⟩
  · rw [plain tag rfl] at isRaw
    cases isRaw

end Writing

namespace Place
variable {place : Place} {content : String}

/-- Text is not remembered if it was not written, or not raw. -/
theorem text_remembers (quiet : (place.text content).verdict document ≠ .ok () ∨
      content.isEmpty = true ∨
      ∀ tag, place.parent = some tag → tag.isRaw document.serialization = false) :
    (finalState (place.text content) document).rawSuffix = document.rawSuffix := by
  have ends := place.text_ends content document
  rw [Writing.verdict] at quiet
  rw [finalState]
  generalize (place.text content).run document = result at ends quiet ⊢
  cases ends with
  | refused other => rfl
  | nothing empty => rfl
  | unindented ran => exact (indentFresh_prints 0).remembers.of_error ran
  | @reached middle result full ran written =>
    have same := serialization_of_ok (indentFresh_prints 0).keepsStanding ran
    rw [← (indentFresh_prints 0).remembers.of_ok ran]
    cases result with
    | error error final => exact textInside_failed written
    | ok value final =>
      obtain failed | empty | plain := quiet
      · exact (failed rfl).elim
      · rw [full] at empty
        cases empty
      · rw [← same] at plain
        exact textInside_plain plain written

theorem raw_remembers {tag : Tag} (inside : place.parent = some tag)
    (isRaw : tag.isRaw document.serialization) (full : content.isEmpty = false)
    (ran : (place.text content).run document = .ok () final) :
    ¬ endTagOpening tag <:+: document.rawSuffix ++ Text.lowercase content ∧
      final.rawSuffix = Text.lastBytes (Text.byteLength (endTagOpening tag) - 1)
        (document.rawSuffix ++ Text.lowercase content) := by
  have ends := place.text_ends content document
  rw [ran] at ends
  cases ends with
  | nothing empty =>
    rw [full] at empty
    cases empty
  | @reached middle result _ indented written =>
    have same := serialization_of_ok (indentFresh_prints 0).keepsStanding indented
    rw [inside] at written
    rw [← (indentFresh_prints 0).remembers.of_ok indented]
    exact textInside_raw (by rwa [same]) written

end Place

namespace StartTag

theorem finish_remembers {start : StartTag} {ending : Ending}
    (unclosed : ending = .giveUp ∨ start.tag.definition.isVoid = true) :
    (finalState (ending.finish start) document).rawSuffix = document.rawSuffix := by
  rcases unclosed with rfl | isVoid
  · rfl
  · have closed : Keeps Document.rawSuffix start.close := by
      rw [close, if_pos isVoid]
      exact .bind .get fun _ => .bind (Prints.any _).remembers fun _ =>
        .bind (.modify fun _ => rfl) fun _ => (endLine_prints _).remembers
    have refused (content : String) : Keeps Document.rawSuffix (start.text content) := by
      intro document
      rw [text, if_pos isVoid]
      rfl
    cases ending with
    | close => exact closed document
    | text content => exact refused content document
    | textOption content =>
      cases content with
      | some content => exact refused content document
      | none => exact closed document
    | giveUp => rfl

theorem text_eq {start : StartTag} (solid : start.tag.definition.isVoid = false)
    (takes : start.model.allowsText = true) (content : String) :
    start.text content = (do
      bracket
      textInside (some start.tag) content
      endElement start.tag) := by
  rw [text, solid, takes]
  rfl

private theorem text_forgets (start : StartTag) (content : String) :
    Forgets (start.text content) := by
  obtain ⟨cause, -, refused⟩ | written := start.text_cases content
  · intro document value final ran
    rw [refused] at ran
    cases ran
  · rw [written]
    exact .last fun _ => .last fun _ => endElement_forgets start.tag

theorem finish_forgets {start : StartTag} {ending : Ending} (kept : ending ≠ .giveUp)
    (solid : start.tag.definition.isVoid = false) : Forgets (ending.finish start) := by
  have closed : Forgets start.close := by
    rw [close, if_neg (ne_true_of_eq_false solid)]
    exact .last fun _ => endElement_forgets start.tag
  cases ending with
  | close => exact closed
  | text content => exact start.text_forgets content
  | textOption content =>
    cases content with
    | some content => exact start.text_forgets content
    | none => exact closed
  | giveUp => exact (kept rfl).elim

/-- Text that could not be written whole is remembered only if it was raw, and accepted. -/
private theorem text_mayForget {start : StartTag} {content : String} {error : Error}
    (failed : (start.text content).run document = .error error final)
    (rejected : start.tag.isRaw document.serialization → error.isRejection) :
    final.rawSuffix = document.rawSuffix ∨ final.rawSuffix = [] := by
  obtain ⟨cause, -, refused⟩ | written := start.text_cases content
  · rw [refused] at failed
    cases failed
    exact .inl rfl
  · have ends := ends_between bracket (textInside (some start.tag) content)
      (endElement start.tag) document
    rw [← written, failed] at ends
    cases ends with
    | before ran => exact .inl (bracket_remembers.of_error ran)
    | inside begun ran =>
      rw [← bracket_remembers.of_ok begun]
      exact .inl (textInside_failed ran)
    | @rest middle last result begun written ran =>
      have same := serialization_of_ok bracket_keeps begun
      cases isRaw : start.tag.isRaw document.serialization with
      | true => exact ((endElement_throws start.tag ran).not_rejection (rejected isRaw)).elim
      | false =>
        rw [← same] at isRaw
        have later := endElement_mayForget start.tag last
        rw [finalState, ran, textInside_plain (by rintro _ ⟨⟩; exact isRaw) written,
          bracket_remembers.of_ok begun] at later
        exact later

theorem finish_mayForget {start : StartTag} {ending : Ending} {error : Error}
    (failed : (ending.finish start).run document = .error error final)
    (rejected : ∀ content, ending.text? = some content →
      start.tag.isRaw document.serialization → error.isRejection) :
    final.rawSuffix = document.rawSuffix ∨ final.rawSuffix = [] := by
  have closed (failed : start.close.run document = .error error final) :
      final.rawSuffix = document.rawSuffix ∨ final.rawSuffix = [] := by
    have mayForget : MayForget start.close := by
      rw [close]
      split
      · exact .of_keeps <| .bind .get fun _ => .bind (Prints.any _).remembers fun _ =>
          .bind (.modify fun _ => rfl) fun _ => (endLine_prints _).remembers
      · exact .bind (.of_keeps bracket_remembers) fun _ => endElement_mayForget start.tag
    have kept := mayForget document
    rwa [finalState, failed] at kept
  cases ending with
  | close => exact closed failed
  | text content => exact text_mayForget failed (rejected content rfl)
  | textOption content =>
    cases content with
    | some content => exact text_mayForget failed (rejected content rfl)
    | none => exact closed failed
  | giveUp => cases failed

end StartTag

theorem Made.run?_eq_some {made : Made} {content : String} :
    made.run? = some content ↔ made.call = .write (.text content) ∧ made.heard = .ok () ∧
      content.isEmpty = false ∧ made.caller.raw?.isSome := by
  rw [run?]
  split
  case h_1 other called heard =>
    rw [called, heard, Option.ite_none_right_eq_some, Bool.and_eq_true, Bool.not_eq_true']
    constructor
    · rintro ⟨⟨full, raw⟩, same⟩
      cases same
      exact ⟨rfl, rfl, full, raw⟩
    · rintro ⟨same, -, full, raw⟩
      cases same
      exact ⟨⟨full, raw⟩, rfl⟩
  case h_2 other =>
    refine iff_of_false nofun ?_
    rintro ⟨called, heard, -⟩
    exact other content called heard

namespace Caller
variable {caller next : Caller} {call : Call} {heard : Except Error Unit}

theorem forgets_of_settles (settles : Made.Settles ⟨caller, call, heard⟩)
    (takes : caller.Takes call heard next) : next.document.rawSuffix = [] := by
  obtain ⟨rfl, rfl⟩ | ⟨calls, element, body, outer, front, live⟩ |
    ⟨⟨ending, element, start, outer, rfl, kept, front, solid⟩, rfl⟩ := settles
  · cases takes with
    | @opened element start outer body document front ran => exact start.openBody_forgets ran
  · have closed : ∀ document, (finalState body.close document).rawSuffix = [] :=
      Body.close_clears live
    dsimp only at front calls
    rcases calls with rfl | rfl | rfl
    · cases takes with
      | endBody held =>
        cases front.symm.trans held
        exact closed _
    · cases takes with
      | dropBody held =>
        cases front.symm.trans held
        exact closed _
      | dropTop held | giveUp held => cases front.symm.trans held
    · cases takes with
      | abandon held =>
        cases front.symm.trans held
        exact Body.abandon_clears live _
  · dsimp only at front
    generalize answer : (.ok () : Except Error Unit) = heard at takes
    cases takes with
    | finish held =>
      cases front.symm.trans held
      exact StartTag.finish_forgets kept solid (run_of_ok answer)

theorem raw?_eq_some {tag : Tag} : caller.raw? = some tag ↔ ∃ place, caller.place? = some place ∧
    place.parent = some tag ∧ tag.isRaw caller.document.serialization := by
  rw [raw?, Option.filter_eq_some_iff, Option.bind_eq_some_iff]
  constructor
  · rintro ⟨⟨place, here, inside⟩, isRaw⟩
    exact ⟨place, here, inside, isRaw⟩
  · rintro ⟨place, here, inside, isRaw⟩
    exact ⟨⟨place, here, inside⟩, isRaw⟩

/-- Only what is called on a body, and the finish of an element, changes what is remembered. -/
theorem remembers_of_quiet (unread : Made.run? ⟨caller, call, heard⟩ = none)
    (outside : ¬ Made.Enters ⟨caller, call, heard⟩) (inside : ¬ Made.Leaves ⟨caller, call, heard⟩)
    (unfinished : ¬ Made.Finishes ⟨caller, call, heard⟩) (takes : caller.Takes call heard next) :
    next.document.rawSuffix = caller.document.rawSuffix := by
  cases takes with
  | @write place call here single =>
    cases call with
    | text content =>
      refine Place.text_remembers ?_
      by_cases written : (place.text content).verdict caller.document = .ok ()
      · cases full : content.isEmpty with
        | true => exact .inr (.inl rfl)
        | false =>
          refine .inr (.inr fun tag within => eq_false_of_ne_true fun isRaw => ?_)
          have raw : caller.raw?.isSome :=
            Option.isSome_of_eq_some (raw?_eq_some.mpr ⟨place, here, within, isRaw⟩)
          rw [Made.run?_eq_some.mpr ⟨rfl, written, full, raw⟩] at unread
          cases unread
      · exact .inl written
    | comment content => exact comment_remembers content _
    | node tree => cases single
    | _ => exact (WriteCall.perform_prints rfl place).remembers _
  | adjust here change | detach here | replaceSink here sink | top here | dropTop front
  | giveUp front => rfl
  | @started place tag start document here ran => exact (place.element_remembers tag).of_ok ran
  | @refused place tag error document here ran => exact (place.element_remembers tag).of_error ran
  | @added element start after outer requested document front ran =>
    exact (start.add_remembers requested).of_ok ran
  | @rejected element start outer requested error document front ran =>
    exact (start.add_remembers requested).of_error ran
  | @finish element start outer front ending =>
    refine StartTag.finish_remembers ?_
    by_cases givenUp : ending = .giveUp
    · exact .inl givenUp
    · refine .inr (eq_true_of_ne_false fun solid => unfinished ?_)
      exact ⟨ending, element, start, outer, rfl, givenUp, front, solid⟩
  | opened front ran => exact (outside ⟨rfl, rfl⟩).elim
  | unopened front ran => exact StartTag.openBody_failed ran
  | @endBody element body outer front =>
    have ended : body.isEnded = true := eq_true_of_ne_false fun live =>
      inside ⟨.inl rfl, element, body, outer, front, live⟩
    rw [becomes, Body.close_same ended]
  | @dropBody element body outer front =>
    have ended : body.isEnded = true := eq_true_of_ne_false fun live =>
      inside ⟨.inr (.inl rfl), element, body, outer, front, live⟩
    rw [becomes, Body.close_same ended]
  | @abandon element body outer front =>
    have ended : body.isEnded = true := eq_true_of_ne_false fun live =>
      inside ⟨.inr (.inr rfl), element, body, outer, front, live⟩
    rw [becomes, Body.abandon_ended ended]

theorem remembers_run {content : String} (read : Made.run? ⟨caller, call, heard⟩ = some content)
    (takes : caller.Takes call heard next) : ∃ tag, caller.raw? = some tag ∧
      ¬ endTagOpening tag <:+: caller.document.rawSuffix ++ Text.lowercase content ∧
      next.document.rawSuffix = Text.lastBytes (Text.byteLength (endTagOpening tag) - 1)
        (caller.document.rawSuffix ++ Text.lowercase content) := by
  obtain ⟨rfl, rfl, full, raw⟩ := Made.run?_eq_some.mp read
  obtain ⟨tag, raw⟩ := Option.isSome_iff_exists.mp raw
  obtain ⟨place, here, inside, isRaw⟩ := raw?_eq_some.mp raw
  generalize answer : (.ok () : Except Error Unit) = heard at takes
  cases takes with
  | write there single =>
    cases here.symm.trans there
    exact ⟨tag, raw, Place.raw_remembers inside isRaw full (run_of_ok answer)⟩

theorem remembers_or_forgets (whole : ¬ Made.Begins ⟨caller, call, heard⟩)
    (takes : caller.Takes call heard next) :
    next.document.rawSuffix = caller.document.rawSuffix ∨ next.document.rawSuffix = [] := by
  by_cases settles : Made.Settles ⟨caller, call, heard⟩
  · exact .inr (forgets_of_settles settles takes)
  · by_cases finishes : Made.Finishes ⟨caller, call, heard⟩
    · have failed : heard ≠ .ok () := fun succeeds => settles (.inr (.inr ⟨finishes, succeeds⟩))
      obtain ⟨ending, element, start, outer, rfl, -, front, -⟩ := finishes
      generalize answer : heard = verdict at takes
      cases takes with
      | finish held =>
        cases front.symm.trans held
        cases heard with
        | ok value => exact (failed rfl).elim
        | error error =>
          refine StartTag.finish_mayForget (run_of_error answer) fun content text isRaw => ?_
          refine eq_true_of_ne_false fun accepts => whole (.inr ?_)
          exact ⟨ending, content, element, start, outer, error, rfl, text, front, isRaw, rfl, accepts⟩
    · cases read : Made.run? ⟨caller, call, heard⟩ with
      | some content => exact (whole (.inl (by rw [read]; rfl))).elim
      | none =>
        have outside : ¬ Made.Enters ⟨caller, call, heard⟩ := fun enters => settles (.inl enters)
        have inside : ¬ Made.Leaves ⟨caller, call, heard⟩ := fun leaves =>
          settles (.inr (.inl leaves))
        exact .inl (remembers_of_quiet read outside inside finishes takes)

theorem run_of_follow {program : Program} {history : List Made} {final : Caller}
    (followed : caller.follow program = some (history, final)) :
    caller.run (history.map Made.call) = some (history.map Made.heard, final) := by
  induction program generalizing caller history with
  | done =>
    cases followed
    rfl
  | make call rest ih =>
    obtain ⟨heard, next, later, stepped, continued, rfl⟩ := follow_make followed
    rw [List.map_cons, List.map_cons, run, stepped]
    simp only [ih heard continued, Option.map_some]
  | ask question rest ih =>
    obtain ⟨place, -, continued⟩ := follow_ask followed
    exact ih _ continued

/-- Where all raw text that was begun belongs to elements that are past, nothing is remembered. -/
theorem forgets_of_settled {program : Program} {history : List Made} {final : Caller}
    (followed : caller.follow program = some (history, final)) (settled : Settled history)
    (begun : caller.document.rawSuffix = [] ∨ ∃ past ∈ history, past.Settles) :
    final.document.rawSuffix = [] := by
  induction program generalizing caller history with
  | done =>
    cases followed
    exact begun.resolve_right (by simp)
  | make call rest ih =>
    obtain ⟨heard, next, later, stepped, continued, rfl⟩ := follow_make followed
    have takes := takes_of_step stepped
    -- Either nothing is remembered any more, or a call that is still to come will settle it.
    refine ih heard continued settled.2 ?_
    by_cases settles : Made.Settles ⟨caller, call, heard⟩
    · exact .inl (forgets_of_settles settles takes)
    · by_cases begins : Made.Begins ⟨caller, call, heard⟩
      · exact .inr (settled.1 begins)
      · obtain none | ⟨past, member, there⟩ := begun
        · refine .inl ((remembers_or_forgets begins takes).elim (fun same => ?_) id)
          rw [same, none]
        · obtain rfl | member := List.mem_cons.mp member
          · exact (settles there).elim
          · exact .inr ⟨past, member, there⟩
  | ask question rest ih =>
    obtain ⟨place, -, continued⟩ := follow_ask followed
    exact ih _ continued settled begun

end Caller
end HtmlWriter
