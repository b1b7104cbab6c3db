import HtmlWriter.Proofs.Prefixes
import HtmlWriter.Proofs.Record

/-! Two ways to finish an element with text: the text alone, and a body with the text in it. The
first writes the text straight between the tags; the second enters the body and leaves it again.
Both judge the text alike, and where formatting puts nothing around it, nothing tells them apart. -/

namespace HtmlWriter
open Writing

def StartTag.textBody (start : StartTag) (content : String) : Writing Unit :=
  start.writeBody (ε := Error) fun inside => inside.text content

namespace StartTag

def textVerdict (start : StartTag) (serialization : Serialization) (content : String) :
    Except Error Unit := do
  refuse start.tag.definition.isVoid (.voidElement start.tag)
  refuse (!start.model.allowsText) (.illegalNesting (some start.tag) .text)
  Path.checkRaw serialization [start.tag] "" content

def textMarkup (start : StartTag) (document : Document) (content : String) : String :=
  (Token.text (some start.tag) content).markup document.encoder document.serialization

end StartTag

namespace Document
variable (document : Document) (tag : Tag)

def bodied : Document := (document.wrote (document.format.bodyGap tag).text).entered tag

def surroundings : Surroundings := ⟨document.format.toFormatSettings, document.exclusions.length⟩

end Document

section
variable {document : Document} (unlimited : document.Unlimited) (forgot : document.rawSuffix = [])
include unlimited forgot

theorem textInside_judged (tag : Tag) (content : String) :
    Agrees (Path.checkRaw document.serialization [tag] "" content)
      (fun _ final => ∃ suffix, final = { document.wrote
        ((Token.text (some tag) content).markup document.encoder document.serialization) with
          rawSuffix := suffix })
      ((textInside (some tag) content).run document) := by
  have suffix : document.rawSuffix = Path.suffix document.serialization [tag] "" := by
    rw [forgot, Path.suffix_empty]
  exact (textInside_agrees unlimited suffix (Path.checkRaw_empty _ _) content).mono
    fun _ final same => ⟨_, same⟩

theorem StartTag.text_judged (start : StartTag) (content : String) :
    Agrees (start.textVerdict document.serialization content)
      (fun _ final => final =
        ((document.finishedTag ">").wrote (start.textMarkup document content)).endedTag start.tag)
      ((start.text content).run document) := by
  unfold textVerdict text
  dsimp only
  refine .refused fun solid => .refused fun allowed => ?_
  have marked : (document.finishedTag ">").Unlimited := (unlimited.wrote _).of_sink rfl
  rw [run_bind_ok (run_bracket unlimited)]
  refine (textInside_judged marked forgot start.tag content).bind_ok fun _ final holds => ?_
  obtain ⟨suffix, rfl⟩ := holds
  have written : ({ (document.finishedTag ">").wrote (start.textMarkup document content) with
      rawSuffix := suffix } : Document).Unlimited := (marked.wrote _).of_sink rfl
  exact ⟨(), _, run_endElement written rfl start.tag, rfl⟩

end

/-- What a body adds to a text that it holds. An empty text is not even indented for. -/
def Document.indented (inside : Document) (content markup : String) : String :=
  if content.isEmpty then "" else inside.format.indentGap.text ++ markup

theorem Place.text_judged {document : Document} (unlimited : document.Unlimited)
    (idle : document.unfinished = none) (forgot : document.rawSuffix = []) (tag : Tag)
    (model : ContentModel) (content : String) :
    Agrees (do
        refuse (!model.allowsText) (.illegalNesting (some tag) .text)
        Path.checkRaw document.serialization [tag] "" content)
      (fun _ final => ∃ suffix, final = { document.wrote (document.indented content
        ((Token.text (some tag) content).markup document.encoder document.serialization)) with
          rawSuffix := suffix })
      (((⟨some tag, model⟩ : Place).text content).run document) := by
  rw [run_text unlimited idle, Document.indented]
  cases model.allowsText with
  | false => rfl
  | true =>
    cases empty : content.isEmpty with
    | true =>
      rw [String.isEmpty_iff] at empty
      rw [empty]
      exact ⟨Path.checkRaw_empty _ _, document.rawSuffix, by rw [if_pos rfl, document.wrote_empty]⟩
    | false =>
      rw [if_neg Bool.false_ne_true, ← document.wrote_wrote]
      exact textInside_judged (unlimited.wrote _) forgot tag content

theorem StartTag.textBody_judged {document : Document} (unlimited : document.Unlimited)
    (start : StartTag) (content : String) :
    Agrees (start.textVerdict document.serialization content)
      (fun _ final =>
        let marked := document.finishedTag ">"
        let inside := marked.bodied start.tag
        final = (inside.wrote (inside.indented content (start.textMarkup document content))).closed
          start.tag (marked.wrote (marked.format.bodyGap start.tag).text).surroundings)
      ((start.textBody content).run document) := by
  have marked : (document.finishedTag ">").Unlimited := (unlimited.wrote _).of_sink rfl
  change Agrees _ _ ((start.openBody >>= fun body =>
    (tryCatch (body.place.text content) fun failure => do
      body.abandon
      throw failure : Writing Unit) >>= fun _ => body.close).run document)
  rw [openBody_eq, textVerdict]
  cases isVoid : start.tag.definition.isVoid with
  | true => rfl
  | false =>
    rw [if_neg Bool.false_ne_true, bind_assoc, run_bind_ok (run_bracket unlimited), bind_assoc,
      run_bind_ok (run_beginBody marked rfl start.tag), bind_assoc, run_bind_ok (run_enter _ _),
      pure_bind]
    have inside : ((document.finishedTag ">").bodied start.tag).Unlimited :=
      (marked.wrote _).of_sink rfl
    refine ((Place.text_judged inside rfl rfl start.tag start.model content).tryCatch
      fun error middle => ⟨_, rfl⟩).bind_ok fun _ final holds => ?_
    obtain ⟨suffix, rfl⟩ := holds
    have written : ({ ((document.finishedTag ">").bodied start.tag).wrote
        (((document.finishedTag ">").bodied start.tag).indented content
          (start.textMarkup document content)) with rawSuffix := suffix } : Document).Unlimited :=
      (inside.wrote _).of_sink rfl
    exact ⟨(), _, Body.run_close written rfl rfl, rfl⟩

private theorem StartTag.textMarkup_empty {document : Document}
    (empties : document.encoder.text document.serialization "" = "") (start : StartTag) :
    start.textMarkup document "" = "" := by
  refine (markup_text_of_raw? document.encoder document.serialization [start.tag] "").trans ?_
  split
  · rfl
  · exact empties

/-- What is entered and left again around a text is as it was before, but for the text, unless the
end tag is put on a line of its own. -/
private theorem Document.closed_entered (document : Document) (tag : Tag) (written : String)
    (joined : (document.format.after written).closeGap tag = .empty) :
    ((document.entered tag).wrote written).closed tag document.surroundings =
      (document.wrote written).endedTag tag := by
  have format (settings : FormatSettings) :
      ((document.format.set settings).after written).set document.format.toFormatSettings =
        document.format.after written := by
    rw [← Format.set_after]
    change (document.format.after written).set document.format.toFormatSettings = _
    rw [← Format.toFormatSettings_after document.format written]
    rfl
  have exclusions : (tag.ownExclusions ++ document.exclusions).drop
      ((tag.ownExclusions ++ document.exclusions).length - document.exclusions.length) =
      document.exclusions := by simp
  have left : ((document.entered tag).wrote written).left document.surroundings =
      { document.wrote written with rawSuffix := [] } := by
    change ({ document.wrote written with
      format := ((document.format.set _).after written).set document.format.toFormatSettings
      exclusions := (tag.ownExclusions ++ document.exclusions).drop
        ((tag.ownExclusions ++ document.exclusions).length - document.exclusions.length)
      rawSuffix := [] } : Document) = _
    rw [format, exclusions]
    rfl
  rw [Document.closed, left]
  dsimp only
  rw [Document.format_wrote, joined, Gap.text_empty, String.empty_append]
  rfl

/-- Nothing is put around a text alone: formatting is off, or the element's layout is verbatim, or
both tags and the text are in one line. -/
def StartTag.KeepsText (start : StartTag) (document : Document) (content : String) : Prop :=
  document.format.autoNewline = false ∨ start.tag.definition.layout = .verbatim ∨
    (start.tag.definition.layout = .inline ∧
      (start.textMarkup document content).toList.getLast? ≠ some '\n')

namespace StartTag.KeepsText
variable {start : StartTag} {document : Document} {content : String}
  (keeps : start.KeepsText document content)
include keeps

private theorem bodyGap_empty :
    (document.finishedTag ">").format.bodyGap start.tag = .empty := by
  obtain plain | verbatim | ⟨inline, -⟩ := keeps
  · exact (Format.bodyGap_fits _ _).plain plain
  · simp [Format.bodyGap, verbatim]
  · simp [Format.bodyGap, inline]

private theorem closeGap_empty : ((document.finishedTag ">").format.after
    (start.textMarkup document content)).closeGap start.tag = .empty := by
  obtain plain | verbatim | ⟨inline, ends⟩ := keeps
  · refine (Format.closeGap_fits _ _).plain ?_
    rw [Format.toFormatSettings_after]
    exact plain
  · simp [Format.closeGap, verbatim]
  · have inLine : ((document.finishedTag ">").format.after
        (start.textMarkup document content)).atNewline = false := by
      unfold Format.after
      cases last : (start.textMarkup document content).toList.getLast? with
      | none => rfl
      | some char =>
        rw [last] at ends
        exact beq_false_of_ne fun newline => ends (newline ▸ rfl)
    simp [Format.closeGap, inline, Format.indentGap, inLine, Gap.empty]

private theorem bodied_eq : (document.finishedTag ">").bodied start.tag =
    (document.finishedTag ">").entered start.tag := by
  rw [Document.bodied, keeps.bodyGap_empty, Gap.text_empty, Document.wrote_empty]

private theorem closed_eq (empties : document.encoder.text document.serialization "" = "") :
    let marked := document.finishedTag ">"
    let inside := marked.bodied start.tag
    (inside.wrote (inside.indented content (start.textMarkup document content))).closed start.tag
        (marked.wrote (marked.format.bodyGap start.tag).text).surroundings =
      (marked.wrote (start.textMarkup document content)).endedTag start.tag := by
  dsimp only
  -- The bracket has just been written, so the text does not start a line.
  have unindented : ((document.finishedTag ">").entered start.tag).format.indentGap = .empty := by
    have inLine : ((document.finishedTag ">").entered start.tag).format.atNewline = false := rfl
    simp [Format.indentGap, inLine, Gap.empty]
  have indented : ((document.finishedTag ">").entered start.tag).indented content
      (start.textMarkup document content) = start.textMarkup document content := by
    rw [Document.indented, unindented, Gap.text_empty, String.empty_append]
    split
    case isTrue empty =>
      rw [String.isEmpty_iff] at empty
      rw [empty, textMarkup_empty empties]
    case isFalse => rfl
  rw [keeps.bodied_eq, indented, keeps.bodyGap_empty, Gap.text_empty, Document.wrote_empty]
  exact Document.closed_entered _ _ _ keeps.closeGap_empty

end StartTag.KeepsText

/-- Nothing is wrong with the sink for this to be written: it is there, and it has the room. -/
def Writing.Spared (action : Writing Unit) (document : Document) : Prop :=
  ∀ error, action.verdict document = .error error → ¬error.OfSink

private theorem Agrees.verdict_eq {verdict : Except Error Unit} {good : Unit → Document → Prop}
    {action : Writing Unit} {document : Document}
    (agrees : Agrees verdict good (action.run document)) : action.verdict document = verdict := by
  rw [Writing.verdict]
  generalize action.run document = result at agrees
  cases result with
  | ok value final => exact agrees.1.symm
  | error error final => exact Eq.symm agrees

private theorem Agrees.finalState_good {verdict : Except Error Unit} {good : Unit → Document → Prop}
    {action : Writing Unit} {document : Document}
    (agrees : Agrees verdict good (action.run document)) (passed : verdict = .ok ()) :
    good () (finalState action document) := by
  rw [finalState]
  generalize action.run document = result at agrees
  cases result with
  | ok value final => exact agrees.2
  | error error final =>
    rw [passed] at agrees
    cases agrees

def Document.widened (document : Document) : Document := { document with sink := some {} }

theorem Document.widened_unlimited (document : Document) : document.widened.Unlimited :=
  ⟨{}, rfl, .default⟩

section
variable {document : Document} {origin : Sink} (present : document.sink = some origin)
include present

theorem Document.widened_twins : Twins origin {} document document.widened := by
  refine ⟨[], .zero origin, ?_, by rw [Sink.filled_nil]; rfl⟩
  rw [Sink.filled_nil, ← present]
  rfl

/-- Where the sink is not to blame for anything, it might as well take everything. -/
private theorem Streams.spared_widened {action : Writing Unit} (streams : Streams action)
    (spared : action.Spared document) :
    action.verdict document = action.verdict document.widened ∧
      Document.Twins origin {} (finalState action document)
        (finalState action document.widened) := by
  have along := streams.alongside Sink.Unlimited.default.accepts
    (Document.widened_twins present)
  obtain alike | ⟨⟨fault, fails⟩, -⟩ := along.split
  · exact alike
  · exact (spared _ fails (.failed fault)).elim

/-- A sink that accepts every write is to blame no more than one that takes everything. -/
theorem Streams.spared_of_accepts {action : Writing Unit} (streams : Streams action)
    (accepts : origin.Accepts) (spared : action.Spared document.widened) :
    action.Spared document := by
  have along := streams.alongside Sink.Unlimited.default.accepts
    (Document.widened_twins present)
  obtain ⟨same, -⟩ | ⟨-, taken, more, -, -, spent, -⟩ := along.split
  · intro error failed
    exact spared error (same.symm.trans failed)
  · exact ((accepts.filled taken).not_spent spent).elim

end

/-- What was written to a sink of one's own is known from what was written to another. -/
theorem Document.Twins.unique {origin : Sink} {first second wide : Document}
    (one : Twins origin {} first wide) (other : Twins origin {} second wide) : first = second := by
  obtain ⟨taken, -, rfl, present⟩ := one
  obtain ⟨again, -, rfl, same⟩ := other
  rw [present, Option.some.injEq] at same
  have taken_eq := congrArg Sink.contents same
  rw [Sink.contents_filled, Sink.contents_filled] at taken_eq
  rw [List.append_cancel_left taken_eq]

namespace StartTag
variable {document : Document} {start : StartTag} {content : String}

theorem textBody_streams (start : StartTag) (content : String) :
    Streams (start.textBody content) :=
  start.writeBody_streams fun inside => inside.text_streams content

private theorem textBody_detached (gone : document.sink = none) :
    (start.textBody content).verdict document =
      .error (if start.tag.definition.isVoid then .voidElement start.tag else .sinkDetached) := by
  have unopened : start.openBody.run document = .error
      (if start.tag.definition.isVoid then .voidElement start.tag else .sinkDetached)
      document := by
    rw [openBody_eq]
    cases start.tag.definition.isVoid with
    | true => rfl
    | false =>
      rw [if_neg Bool.false_ne_true, Action.run_bind, bracket, Action.run_bind,
        run_write_detached gone]
      rfl
  change verdict (start.openBody >>= fun body => _) document = _
  rw [verdict, Action.run_bind, unopened]

private theorem textVerdict_rejects {serialization : Serialization} {error : Error}
    (failed : start.textVerdict serialization content = .error error) : ¬error.OfSink := by
  have refused {condition : Bool} {cause : Error} (rejects : ¬cause.OfSink)
      {later : Except Error Unit} (rest : later = .error error → ¬error.OfSink)
      (failed : (do refuse condition cause; later) = .error error) : ¬error.OfSink := by
    cases condition with
    | true =>
      cases failed
      exact rejects
    | false => exact rest failed
  refine refused ?_ (refused ?_ fun raw => ?_) failed
  · rintro ⟨⟩
  · rintro ⟨⟩
  · rw [Path.checkRaw] at raw
    split at raw
    · cases condition : Text.occursIn _ _ <;> rw [condition] at raw <;> cases raw
      rintro ⟨⟩
    · cases raw

/-- Where every write is accepted, both ways to finish an element are judged by the text. -/
theorem spared_of_accepts {origin : Sink} (present : document.sink = some origin)
    (accepts : origin.Accepts) (forgot : document.rawSuffix = []) (start : StartTag)
    (content : String) :
    (start.text content).Spared document ∧ (start.textBody content).Spared document := by
  have judged := text_judged document.widened_unlimited forgot start content
  have judgedBody := textBody_judged document.widened_unlimited start content
  constructor
  · refine (start.text_streams content).spared_of_accepts present accepts fun error failed => ?_
    exact textVerdict_rejects (judged.verdict_eq.symm.trans failed)
  · refine (start.textBody_streams content).spared_of_accepts present accepts
      fun error failed => ?_
    exact textVerdict_rejects (judgedBody.verdict_eq.symm.trans failed)

end StartTag

end HtmlWriter
