import HtmlWriter.Proofs.Compact
import HtmlWriter.Proofs.Newlines
import HtmlWriter.Proofs.RawRuns

/-! Raw text in parts. Where a text is split before it is written to the body of a script or a
style sheet does not matter: a part is rejected exactly if it completes an end tag, which may have
begun in any of the parts before, and the parts that are accepted are written as they are. -/

namespace HtmlWriter
open Script Writing
variable {document : Document} {tag : Tag} {before content : String}

/-- A document in the body of a raw element, where nothing is formatted. The texts before are in
it, and a sink takes all that is written. -/
structure Document.Collects (document : Document) (tag : Tag) (before : String) : Prop where
  idle : document.unfinished = none
  accepts : ∃ sink, document.sink = some sink ∧ sink.Accepts
  raw : tag.isRaw document.serialization = true
  plain : document.format.autoNewline = false
  remembers : document.Remembers tag before

namespace Document.Collects

/-- Nothing is indented where newlines are not automatic. -/
theorem run_indentFresh (collects : document.Collects tag before) :
    (indentFresh 0).run document = .ok () document := by
  rw [indentFresh, run_refuseInTag_bind collects.idle]
  have unwanted : document.format.wantsIndent = false := by simp [Format.wantsIndent, collects.plain]
  change (if document.format.wantsIndent && document.format.atNewline then _ else _ :
    Writing Unit).run document = _
  simp only [unwanted, Bool.false_and, Bool.false_eq_true, if_false]
  rfl

theorem run_text (collects : document.Collects tag before) {place : Place}
    (inside : place.parent = some tag) (takes : place.model.allowsText = true)
    (nonempty : content.isEmpty = false) :
    (place.text content).run document = (rawText tag content).run document := by
  have raw : (tag.definition.rawText && document.serialization == .sgml) = true := collects.raw
  rw [Place.text, run_refuseInTag_bind collects.idle]
  simp only [takes, nonempty, inside, Bool.not_true, Bool.not_false, Bool.false_eq_true, if_true,
    if_false]
  rw [run_bind_ok collects.run_indentFresh]
  change (if (tag.definition.rawText && document.serialization == .sgml) then rawText tag content
    else encodedText content : Writing Unit).run document = _
  rw [if_pos raw]

theorem rejects (collects : document.Collects tag before) {place : Place}
    (inside : place.parent = some tag) (takes : place.model.allowsText = true)
    (found : endTagOpening tag <:+: Text.lowercase (before ++ content)) :
    (place.text content).run document = .error (.invalidRawText tag) document := by
  have nonempty : content.isEmpty = false := by
    rw [Bool.eq_false_iff]
    intro empty
    rw [String.isEmpty_iff.mp empty, String.append_empty] at found
    exact collects.remembers.absent found
  rw [collects.run_text inside takes nonempty]
  have occurs := (collects.remembers.found_iff content).mpr found
  rw [← Text.occursIn_iff_infix] at occurs
  change (if Text.occursIn _ _ then throw (.invalidRawText tag) >>= fun _ => _ else _ :
    Writing Unit).run document = _
  rw [if_pos occurs]
  rfl

theorem accepted (collects : document.Collects tag before) {place : Place}
    (inside : place.parent = some tag) (takes : place.model.allowsText = true)
    (absent : ¬ endTagOpening tag <:+: Text.lowercase (before ++ content)) :
    ∃ final, (place.text content).run document = .ok () final ∧
      final.Collects tag (before ++ content) ∧ final.bytes = document.bytes ++ utf8 content := by
  obtain ⟨sink, present, accepts⟩ := collects.accepts
  cases empty : content.isEmpty with
  | true =>
    obtain rfl := String.isEmpty_iff.mp empty
    refine ⟨document, ?_, ?_, (List.append_nil _).symm⟩
    · rw [Place.text, run_refuseInTag_bind collects.idle]
      simp only [takes]
      rfl
    · rwa [String.append_empty]
  | false =>
    rw [collects.run_text inside takes empty]
    have missing := absent
    rw [← collects.remembers.found_iff, ← Text.occursIn_iff_infix] at missing
    let final : Document := { document with
      sink := some (sink.filled (utf8 content))
      format := document.format.after content
      rawSuffix := Text.lastBytes (Text.byteLength (endTagOpening tag) - 1)
        (document.rawSuffix ++ Text.lowercase content) }
    have written : (rawText tag content).run document = .ok () final := by
      change (if Text.occursIn _ _ then throw (.invalidRawText tag) >>= fun _ => _ else _ :
        Writing Unit).run document = _
      rw [if_neg missing]
      rw [Action.run_bind, run_write_of_sink present, accepts.writeAll_eq]
      rfl
    refine ⟨final, written, ?_, ?_⟩
    · refine ⟨collects.idle, ⟨_, rfl, accepts.filled _⟩, collects.raw, ?_, ?_⟩
      · change (document.format.after content).autoNewline = false
        rw [Format.toFormatSettings_after]
        exact collects.plain
      · apply collects.remembers.append _ rfl
        rwa [collects.remembers.found_iff]
    · simp [Document.bytes, Document.contents, present, final]

/-- A body of a script or a style sheet has nothing in it at first, and is not formatted. -/
theorem opened {start : StartTag} {body : Body} {final : Document}
    (isRaw : start.tag.isRaw document.serialization)
    (ran : start.openBody.run document = .ok body final) {sink : Sink}
    (present : final.sink = some sink) (accepts : sink.Accepts) :
    final.Collects start.tag "" := by
  have verbatim : start.tag.definition.layout = .verbatim := by
    rcases Tag.script_or_style isRaw with same | same
    all_goals rw [same]; rfl
  have forgets : final.rawSuffix = [] := start.openBody_forgets ran
  have standing := (start.openBody_ok ran).2
  rw [StartTag.openBody_eq] at ran
  split at ran
  · cases ran
  · rw [bracket, bind_assoc, Action.run_bind] at ran
    cases written : (write ">").run document with
    | error error middle =>
      rw [written] at ran
      cases ran
    | ok value middle =>
      -- No line is begun in a verbatim body, so the body is entered right after the bracket.
      have nothing : beginBody start.tag = pure () := by
        rw [beginBody, verbatim]
        rfl
      rw [written, nothing] at ran
      cases ran
      have kept : middle.serialization = document.serialization :=
        congrArg (fun stands => stands.serialization) ((Prints.any ">").keepsStanding.of_ok written)
      refine ⟨rfl, ⟨sink, present, accepts⟩, ?_, ?_, .nothing forgets start.tag⟩
      · rw [← kept] at isRaw
        exact isRaw
      · change (middle.format.toFormatSettings.within start.tag.definition.layout).autoNewline = false
        rw [verbatim]
        rfl

end Document.Collects

namespace Caller
variable {caller ready opened : Caller} {texts : List String}

def textCalls (texts : List String) : List Call := texts.map fun text => .write (.text text)

private theorem place?_body (caller : Caller) (document : Document) (element : Nat) (body : Body)
    (outer : List Handle) (added : List Piece) :
    (caller.becomes document (.body element body :: outer) added).place? = some body.place := rfl

section
variable {place : Place} (here : caller.place? = some place) (inside : place.parent = some tag)
  (takes : place.model.allowsText = true) (collects : caller.document.Collects tag before)
include here inside takes collects

private theorem step_rejects (found : endTagOpening tag <:+: Text.lowercase (before ++ content)) :
    ∃ next, caller.step (.write (.text content)) = some (.error (.invalidRawText tag), next) ∧
      next.place? = some place ∧ next.document = caller.document := by
  have ran := collects.rejects inside takes found
  have stepped := step_of_takes (.write here rfl : caller.Takes (.write (.text content)) _ _)
  rw [WriteCall.perform, verdict, finalState, ran] at stepped
  exact ⟨_, stepped, here, rfl⟩

private theorem step_accepts
    (absent : ¬ endTagOpening tag <:+: Text.lowercase (before ++ content)) :
    ∃ next, caller.step (.write (.text content)) = some (.ok (), next) ∧
      next.place? = some place ∧ next.document.Collects tag (before ++ content) ∧
      next.document.bytes = caller.document.bytes ++ utf8 content := by
  obtain ⟨final, ran, later, bytes⟩ := collects.accepted inside takes absent
  have stepped := step_of_takes (.write here rfl : caller.Takes (.write (.text content)) _ _)
  rw [WriteCall.perform, verdict, finalState, ran] at stepped
  exact ⟨_, stepped, here, later, bytes⟩

end

private theorem run_texts {place : Place} (here : caller.place? = some place)
    (inside : place.parent = some tag) (takes : place.model.allowsText = true)
    (collects : caller.document.Collects tag before) (texts : List String) :
    ∃ answers full, caller.run (textCalls texts) = some (answers, full) ∧
      full.place? = some place ∧
      ((∀ heard ∈ answers, heard = .ok ()) ↔
        ¬ endTagOpening tag <:+: Text.lowercase (before ++ String.join texts)) ∧
      ((∀ heard ∈ answers, heard = .ok ()) →
        full.document.Collects tag (before ++ String.join texts) ∧
          full.document.bytes = caller.document.bytes ++ utf8 (String.join texts)) := by
  induction texts generalizing caller before with
  | nil =>
    refine ⟨[], caller, rfl, here, ?_, fun _ => ?_⟩
    · simpa using collects.remembers.absent
    · simpa using collects
  | cons text rest ih =>
    rw [String.join_cons, ← String.append_assoc]
    by_cases found : endTagOpening tag <:+: Text.lowercase (before ++ text)
    · obtain ⟨next, stepped, there, same⟩ := step_rejects here inside takes collects found
      obtain ⟨answers, full, ran, place, -, -⟩ := ih there (same ▸ collects)
      refine ⟨_, full, run_of_step stepped ran, place, iff_of_false ?_ ?_, ?_⟩
      · intro all
        cases all _ (.head _)
      · intro absent
        apply absent
        rw [lowercase_append]
        exact found.trans (List.prefix_append _ _).isInfix
      · intro all
        cases all _ (.head _)
    · obtain ⟨next, stepped, there, later, bytes⟩ := step_accepts here inside takes collects found
      obtain ⟨answers, full, ran, place, judged, taken⟩ := ih there later
      refine ⟨_, full, run_of_step stepped ran, place, ?_, ?_⟩
      · rw [← judged]
        simp
      · intro all
        obtain ⟨last, held⟩ := taken fun heard member => all heard (.tail _ member)
        refine ⟨last, ?_⟩
        rw [held, bytes, utf8_append, List.append_assoc]

/-- In the body of a script or a style sheet it makes no difference where a text is split, as long
as the sink takes what is written. The parts are accepted exactly if they do not bring an end tag
in together, and then the body holds them as they are; and the next part is rejected exactly if it
brings one in together with all of them. -/
theorem split_text_is_judged_whole {sink : Sink} {parameters : Parameters} {encoder : Encoder}
    {calls : List Call} {answers : List (Except Error Unit)} {element : Nat} {start : StartTag}
    {outer : List Handle} {working : Sink}
    (ran : (Caller.start sink parameters encoder).run calls = some (answers, ready))
    (front : ready.handles = .tag element start :: outer)
    (sgml : parameters.serialization = .sgml) (raw : start.tag = .script ∨ start.tag = .style)
    (entered : ready.step .openBody = some (.ok (), opened))
    (present : opened.document.sink = some working) (accepts : working.Accepts)
    (texts : List String) :
    ∃ heards full, opened.run (textCalls texts) = some (heards, full) ∧
      ((∀ heard ∈ heards, heard = .ok ()) ↔
        ¬ endTagOpening start.tag <:+: Text.lowercase (String.join texts)) ∧
      ((∀ heard ∈ heards, heard = .ok ()) →
        full.document.bytes = opened.document.bytes ++ utf8 (String.join texts) ∧
        ∀ text, ∃ heard next, full.step (.write (.text text)) = some (heard, next) ∧
          (heard = .error (.invalidRawText start.tag) ↔
            endTagOpening start.tag <:+: Text.lowercase (String.join texts ++ text)) ∧
          (heard = .ok () ↔
            ¬ endTagOpening start.tag <:+: Text.lowercase (String.join texts ++ text))) := by
  have follows := follows_of_run ran
  have same : ready.document.serialization = parameters.serialization :=
    congrArg Rules.serialization follows.rules
  have isRaw : start.tag.isRaw ready.document.serialization := by
    rw [same, Tag.isRaw_iff]
    exact ⟨sgml, raw⟩
  have resolves : start.tag.Resolves start.model := resolves_of_run ran (by rw [front]; exact .head _)
  have takes := (Tag.takesText isRaw resolves).2
  have entering := takes_of_step entered
  cases entering with
  | @opened number other around body document held opening =>
    cases front.symm.trans held
    have collects := Document.Collects.opened isRaw opening present accepts
    obtain ⟨-, begun, -, -, entered⟩ := start.openBody_ok opening
    have inside : body.place = ⟨some start.tag, start.model⟩ := by rw [entered]
    have parent : body.place.parent = some start.tag := by rw [inside]
    have takes : body.place.model.allowsText = true := by rwa [inside]
    obtain ⟨heards, full, filled, there, judged, taken⟩ :=
      run_texts (ready.place?_body document element body outer _) parent takes collects texts
    rw [String.empty_append] at judged taken
    refine ⟨heards, full, filled, judged, fun all => ?_⟩
    obtain ⟨last, bytes⟩ := taken all
    refine ⟨bytes, fun text => ?_⟩
    by_cases found : endTagOpening start.tag <:+: Text.lowercase (String.join texts ++ text)
    · obtain ⟨next, stepped, -, -⟩ := step_rejects there parent takes last found
      exact ⟨_, next, stepped, iff_of_true rfl found, iff_of_false nofun (not_not_intro found)⟩
    · obtain ⟨next, stepped, -, -, -⟩ := step_accepts there parent takes last found
      exact ⟨_, next, stepped, iff_of_false nofun found, iff_of_true rfl found⟩

/-- An end tag of a style sheet in three parts. The first two are taken, and the last is rejected,
since the end tag is complete with it. -/
theorem parted_style_end_is_rejected : ∃ answers ready opened heards full heard next,
    (start {} {} .markup).run [.start .style] = some (answers, ready) ∧
      ready.step .openBody = some (.ok (), opened) ∧
      opened.run (textCalls ["a<", "/St"]) = some (heards, full) ∧
      (∀ heard ∈ heards, heard = .ok ()) ∧
      full.document.bytes = opened.document.bytes ++ utf8 "a</St" ∧
      full.step (.write (.text "yle")) = some (heard, next) ∧
      heard = .error (.invalidRawText .style) := by
  have seen : ((start {} {} .markup).run [.start .style]).bind (fun begun =>
      (begun.2.step .openBody).map fun entered => (begun.2.handles.map Handle.held, entered.1,
        entered.2.document.sink.map fun sink => (sink.room, sink.chunk))) =
      some ([some .style], .ok (), some (none, none)) := rfl
  obtain ⟨⟨answers, ready⟩, ran, seen⟩ := Option.bind_eq_some_iff.mp seen
  obtain ⟨⟨entering, opened⟩, entered, same⟩ := Option.map_eq_some_iff.mp seen
  simp only [Prod.mk.injEq] at same
  obtain ⟨tags, rfl, takes⟩ := same
  obtain ⟨element, start, front, style⟩ := Handle.of_held tags
  obtain ⟨working, present, takes⟩ := Option.map_eq_some_iff.mp takes
  obtain ⟨room, chunk⟩ := Prod.mk.inj takes
  have accepts : working.Accepts := ⟨room, by rw [chunk]; exact Option.some_ne_none 0 ∘ Eq.symm⟩
  have absent : ¬ endTagOpening .style <:+: Text.lowercase (String.join ["a<", "/St"]) :=
    fun found => absurd found.length_le (by decide)
  have found : endTagOpening .style <:+: Text.lowercase (String.join ["a<", "/St"] ++ "yle") :=
    ⟨['a'], [], rfl⟩
  obtain ⟨heards, full, filled, judged, later⟩ := split_text_is_judged_whole ran front rfl
    (.inr style) entered present accepts ["a<", "/St"]
  rw [style] at judged later
  obtain ⟨bytes, next⟩ := later (judged.mpr absent)
  obtain ⟨heard, last, stepped, rejected, -⟩ := next "yle"
  exact ⟨answers, ready, opened, heards, full, heard, last, ran, entered, filled,
    judged.mpr absent, bytes, stepped, rejected.mpr found⟩

end Caller
end HtmlWriter
