import HtmlWriter.Proofs.Remembering

/-! Raw text, element by element. What is remembered when a text is judged is the end of the texts
in the body of its own element, unless an element with content was written inside of that body, or
raw text is left over from an element that could not be ended. So a text is rejected exactly if it
brings an end tag in together with the texts before it. -/

namespace HtmlWriter
open Script Writing
variable {document final : Document} {tag : Tag} {texts content : String}

theorem Tag.takesText {serialization : Serialization} (isRaw : tag.isRaw serialization)
    {model : ContentModel} (resolves : tag.Resolves model) :
    tag.definition.isVoid = false ∧ model.allowsText = true := by
  obtain ⟨around, rfl⟩ := resolves
  have solid := (allows_of_isRaw isRaw tag).1
  rw [ContentModel.inside, solid, if_neg Bool.false_ne_true]
  rcases script_or_style isRaw with rfl | rfl
  · exact ⟨rfl, by decide⟩
  · exact ⟨rfl, by decide⟩

/-- What is remembered is the end of these texts, and they do not bring an end tag in. -/
structure Document.Remembers (document : Document) (tag : Tag) (texts : String) : Prop where
  suffix : document.rawSuffix =
    Text.lastBytes (Text.byteLength (endTagOpening tag) - 1) (Text.lowercase texts)
  absent : ¬ endTagOpening tag <:+: Text.lowercase texts

namespace Document.Remembers

theorem nothing (empty : document.rawSuffix = []) (tag : Tag) : document.Remembers tag "" where
  suffix := by
    rw [empty]
    exact (Text.lastBytes_nil _).symm
  absent found := List.cons_ne_nil _ _ (List.infix_nil.mp found)

theorem of_same (remembers : document.Remembers tag texts)
    (same : final.rawSuffix = document.rawSuffix) : final.Remembers tag texts :=
  ⟨same.trans remembers.suffix, remembers.absent⟩

theorem found_iff (remembers : document.Remembers tag texts) (content : String) :
    endTagOpening tag <:+: document.rawSuffix ++ Text.lowercase content ↔
      endTagOpening tag <:+: Text.lowercase (texts ++ content) := by
  have absent : Text.occursIn (endTagOpening tag) (Text.lowercase texts) = false := by
    rw [Bool.eq_false_iff, ne_eq, Text.occursIn_iff_infix]
    exact remembers.absent
  rw [remembers.suffix, lowercase_append, ← Text.occursIn_iff_infix, ← Text.occursIn_iff_infix,
    Text.occursIn_lastBytes_append absent]

theorem append (remembers : document.Remembers tag texts)
    (absent : ¬ endTagOpening tag <:+: document.rawSuffix ++ Text.lowercase content)
    (suffix : final.rawSuffix = Text.lastBytes (Text.byteLength (endTagOpening tag) - 1)
      (document.rawSuffix ++ Text.lowercase content)) :
    final.Remembers tag (texts ++ content) where
  suffix := by
    rw [suffix, remembers.suffix, Text.lastBytes_lastBytes_append, lowercase_append]
  absent := by rwa [← remembers.found_iff]

private theorem rejected_iff (remembers : document.Remembers tag texts)
    (isRaw : tag.isRaw document.serialization) {before rest : Writing Unit}
    (suffix : Keeps Document.rawSuffix before) (kept : Keeps Document.standing before)
    (accepts : Throws Error.Accepts before) (continues : Throws Error.Accepts rest)
    (content : String) :
    (do before; textInside (some tag) content; rest : Writing Unit).verdict document =
        .error (.invalidRawText tag) ↔
      (∃ middle, before.run document = .ok () middle) ∧
        endTagOpening tag <:+: Text.lowercase (texts ++ content) := by
  have accepted {error : Error} (accepts : error.Accepts) :
      ¬ (Except.error error : Except Error Unit) = .error (.invalidRawText tag) := by
    rintro ⟨⟩
    cases accepts
  have reached {middle : Document} (begun : before.run document = .ok () middle) :
      middle.Remembers tag texts ∧ tag.isRaw middle.serialization :=
    ⟨remembers.of_same (suffix.of_ok begun), by rwa [serialization_of_ok kept begun]⟩
  have ends := ends_between before (textInside (some tag) content) rest document
  rw [verdict]
  generalize (do before; textInside (some tag) content; rest : Writing Unit).run document = result
    at ends ⊢
  cases ends with
  | before ran =>
    refine iff_of_false (accepted (accepts ran)) ?_
    rintro ⟨⟨middle, begun⟩, -⟩
    rw [ran] at begun
    cases begun
  | @inside error middle final begun ran =>
    obtain ⟨still, raw⟩ := reached begun
    rw [← still.found_iff content]
    obtain ⟨other, found, -, ends⟩ | ⟨plain, -⟩ := textInside_ends (some tag) content middle
    · cases found
      rw [ran] at ends
      cases ends with
      | rejected found => exact iff_of_true rfl ⟨⟨middle, begun⟩, found⟩
      | failed absent ran =>
        exact iff_of_false (accepted (write_throws content ran).accepts) fun both => absent both.2
    · rw [plain tag rfl] at raw
      cases raw
  | @rest middle last result begun written ran =>
    obtain ⟨still, raw⟩ := reached begun
    rw [← still.found_iff content]
    refine iff_of_false (fun rejected => ?_) fun both => (textInside_raw raw written).1 both.2
    cases result with
    | ok value final => cases rejected
    | error error final => exact accepted (continues ran) rejected

end Document.Remembers

/-- Text on the body of a raw element is rejected where its line can be indented. -/
theorem Place.rejects_iff {place : Place} (inside : place.parent = some tag)
    (takes : place.model.allowsText = true) (isRaw : tag.isRaw document.serialization)
    (remembers : document.Remembers tag texts) (content : String) :
    (place.text content).verdict document = .error (.invalidRawText tag) ↔
      (∃ middle, (indentFresh 0).run document = .ok () middle) ∧
        endTagOpening tag <:+: Text.lowercase (texts ++ content) := by
  cases waiting : document.unfinished with
  | some pending =>
    have told : (place.text content).verdict document = .error (.tagInProgress pending .text) := by
      rw [Writing.verdict, Place.text, Action.run_bind, run_refuseInTag_waiting waiting]
    rw [told]
    refine iff_of_false (fun same => by cases same) ?_
    rintro ⟨⟨middle, ran⟩, -⟩
    rw [indentFresh, Action.run_bind, run_refuseInTag_waiting waiting] at ran
    cases ran
  | none =>
    have reads : (place.text content).verdict document =
        (if content.isEmpty then pure () else (do
          indentFresh 0
          textInside (some tag) content
          pure ()) : Writing Unit).verdict document := by
      rw [Writing.verdict, Writing.verdict, Place.text, run_refuseInTag_bind waiting, takes, inside]
      cases content.isEmpty <;> simp
    rw [reads]
    cases empty : content.isEmpty with
    | true =>
      rw [String.isEmpty_iff] at empty
      rw [if_pos rfl, empty, String.append_empty]
      exact iff_of_false (fun same => by cases same) fun both => remembers.absent both.2
    | false =>
      rw [if_neg Bool.false_ne_true]
      exact remembers.rejected_iff isRaw (indentFresh_prints 0).remembers
        (indentFresh_prints 0).keepsStanding (indentFresh_prints 0).throws (.pure ()) content

theorem StartTag.rejects_iff {start : StartTag} (resolves : start.tag.Resolves start.model)
    (isRaw : start.tag.isRaw document.serialization)
    (remembers : document.Remembers start.tag texts) {ending : Ending}
    (text : ending.text? = some content) :
    (ending.finish start).verdict document = .error (.invalidRawText start.tag) ↔
      (∃ middle, bracket.run document = .ok () middle) ∧
        endTagOpening start.tag <:+: Text.lowercase (texts ++ content) := by
  obtain ⟨solid, takes⟩ := Tag.takesText isRaw resolves
  have finishes : ending.finish start = start.text content := by
    cases ending with
    | text other =>
      cases text
      rfl
    | textOption other =>
      cases text
      rfl
    | close | giveUp => cases text
  rw [finishes, start.text_eq solid takes]
  exact remembers.rejected_iff isRaw bracket_remembers bracket_keeps bracket_throws
    (endElement_throws start.tag) content

def Handle.held : Handle → Option Tag
  | .tag _ start => some start.tag
  | .top | .body .. => none

theorem Handle.of_held {handles : List Handle} (held : handles.map Handle.held = [some tag]) :
    ∃ element start, handles = [.tag element start] ∧ start.tag = tag := by
  obtain ⟨handle, outer, rfl, same, none⟩ := List.map_eq_cons_iff.mp held
  obtain rfl := List.map_eq_nil_iff.mp none
  cases handle with
  | tag element start => exact ⟨element, start, rfl, Option.some.inj same⟩
  | top | body element body => cases same

namespace Made

/-- The call neither enters nor leaves a body, nor finishes an element that has an end tag, and
writes raw text only with this in hand. -/
structure KeepsTo (handles : List Handle) (made : Made) : Prop where
  outside : ¬ made.Enters
  inside : ¬ made.Leaves
  unfinished : ¬ made.Finishes
  own : made.run?.isSome → made.caller.handles = handles

end Made

namespace Caller
variable {caller ready opened full next : Caller} {call : Call} {heard : Except Error Unit}
  {handles outer : List Handle} {element : Nat}

theorem resolves_of_run {sink : Sink} {parameters : Parameters} {encoder : Encoder}
    {calls : List Call} {answers : List (Except Error Unit)}
    (ran : (start sink parameters encoder).run calls = some (answers, caller)) {start : StartTag}
    (held : .tag element start ∈ caller.handles) : start.tag.Resolves start.model := by
  refine run_keeps (fun caller => ∀ element start, .tag element start ∈ caller.handles →
    start.tag.Resolves start.model) (fun _ => True) (fun _ => True) ?_ ran (fun _ _ => trivial)
    (fun _ _ => trivial) nofun element start held
  intro caller next call heard resolves _ _ takes
  have further {handle : Handle} {outer : List Handle} (front : caller.handles = handle :: outer)
      (element : Nat) (start : StartTag) (member : .tag element start ∈ outer) :
      start.tag.Resolves start.model :=
    resolves element start (front ▸ .tail _ member)
  cases takes with
  | write here | adjust here | detach here | replaceSink here | refused here => exact resolves
  | top here =>
    intro element start member
    exact resolves element start (by simpa [becomes] using member)
  | @started place tag start document here ran =>
    intro element other member
    rcases List.mem_cons.mp member with same | member
    · cases same
      have yields : Yields (fun start : StartTag => start.tag.Resolves start.model)
          (place.element tag) := by
        rw [Place.element_eq]
        exact .bind fun _ => .bind fun _ => .bind fun _ => .bind fun _ => .bind fun _ =>
          .pure ⟨place.model, rfl⟩
      exact yields ran
    · exact resolves element other member
  | @added element start after outer requested document front ran =>
    intro number other member
    rcases List.mem_cons.mp member with same | member
    · cases same
      obtain ⟨tag, model⟩ := start.add_same requested ran
      rw [tag, model]
      exact resolves element start (front ▸ .head _)
    · exact further front number other member
  | opened front ran | endBody front =>
    intro number other member
    exact further front number other (by simpa [becomes] using member)
  | rejected front | finish front | unopened front | dropBody front | dropTop front
  | giveUp front | abandon front => exact further front

/-- What is remembered in a body is the end of the texts in it, as long as no element with an end
tag is written inside of it. -/
theorem remembers_of_follow {base : Rules} {body : Body}
    (within : handles = .body element body :: outer) (inside : body.place.parent = some tag)
    {program : Program} {history : List Made}
    (followed : caller.follow program = some (history, full))
    (kept : ∀ made ∈ history, made.KeepsTo handles) (follows : Follows base caller)
    (remembers : caller.document.Remembers tag texts) :
    full.document.Remembers tag (texts ++ String.join (history.filterMap Made.run?)) ∧
      Follows base full := by
  induction program generalizing caller history texts with
  | done =>
    cases followed
    rw [List.filterMap_nil, String.join_nil, String.append_empty]
    exact ⟨remembers, follows⟩
  | make call rest ih =>
    obtain ⟨heard, next, later, stepped, continued, rfl⟩ := follow_make followed
    have takes := takes_of_step stepped
    have keeps := kept _ (.head _)
    have after : ∀ made ∈ later, made.KeepsTo handles := fun made member => kept made (.tail _ member)
    have still := follows_of_takes follows takes
    -- Raw text is only written with this body in hand, so it joins the texts in it.
    cases read : Made.run? ⟨caller, call, heard⟩ with
    | none =>
      rw [List.filterMap_cons, read]
      have same := remembers_of_quiet read keeps.outside keeps.inside keeps.unfinished takes
      exact ih heard continued after still (remembers.of_same same)
    | some content =>
      obtain ⟨other, raw, absent, suffix⟩ := remembers_run read takes
      obtain ⟨place, here, parent, -⟩ := raw?_eq_some.mp raw
      have own : caller.handles = handles := keeps.own (by rw [read]; rfl)
      rw [place?, own, within] at here
      cases here
      cases inside.symm.trans parent
      rw [List.filterMap_cons, read]
      dsimp only
      rw [String.join_cons, ← String.append_assoc]
      exact ih heard continued after still (remembers.append absent suffix)
  | ask question rest ih =>
    obtain ⟨place, -, continued⟩ := follow_ask followed
    exact ih _ continued kept follows remembers

/-- Whatever happened before, a text that a script or a style sheet is finished with is rejected
exactly if it brings an end tag in by itself, unless raw text was begun before that belongs to no
element that is past. And a text in its body is rejected exactly if it brings one in together with
the texts in this body, unless other elements with end tags were written inside of it. Only a sink
that fails before can keep a text from being judged. -/
theorem raw_text_is_judged_by_element {sink : Sink} {parameters : Parameters} {encoder : Encoder}
    {program : Program} {past : List Made} {start : StartTag}
    (followed : (Caller.start sink parameters encoder).follow program = some (past, ready))
    (front : ready.handles = .tag element start :: outer)
    (isRaw : start.tag.isRaw parameters.serialization) :
    (Settled past → ∀ ending content heard next, ending.text? = some content →
      ready.step (.finish ending) = some (heard, next) →
      (heard = .error (.invalidRawText start.tag) ↔
        (∃ middle, bracket.run ready.document = .ok () middle) ∧
          endTagOpening start.tag <:+: Text.lowercase content)) ∧
    ∀ opened inner history full, ready.step .openBody = some (.ok (), opened) →
      opened.follow inner = some (history, full) → full.handles = opened.handles →
      (∀ made ∈ history, made.KeepsTo opened.handles) →
      ∀ content heard next, full.step (.write (.text content)) = some (heard, next) →
        (heard = .error (.invalidRawText start.tag) ↔
          (∃ middle, (indentFresh 0).run full.document = .ok () middle) ∧
            endTagOpening start.tag <:+:
              Text.lowercase (String.join (history.filterMap Made.run?) ++ content)) := by
  have ran := run_of_follow followed
  have follows := follows_of_run ran
  have held : .tag element start ∈ ready.handles := by simp [front]
  have resolves : start.tag.Resolves start.model := resolves_of_run ran held
  have same {caller : Caller} (follows : Follows
      (Document.start sink parameters encoder).rules caller) :
      caller.document.serialization = parameters.serialization :=
    congrArg Rules.serialization follows.rules
  constructor
  · intro settled ending content heard next text stepped
    have takes := takes_of_step stepped
    have empty := forgets_of_settled followed settled (.inl rfl)
    have judged :=
      StartTag.rejects_iff resolves (by rwa [same follows]) (.nothing empty start.tag) text
    rw [String.empty_append] at judged
    cases takes with
    | finish held =>
      cases front.symm.trans held
      exact judged
  · intro opened inner history full entered filled back kept content heard next stepped
    have entering := takes_of_step entered
    have inside := follows_of_takes follows entering
    cases entering with
    | @opened number other around body document held opening =>
      cases front.symm.trans held
      obtain ⟨-, begun, -, -, rfl⟩ := start.openBody_ok opening
      have empty : document.rawSuffix = [] := start.openBody_forgets opening
      obtain ⟨remembers, still⟩ :=
        remembers_of_follow rfl rfl filled kept inside (.nothing empty start.tag)
      rw [String.empty_append] at remembers
      have takes := takes_of_step stepped
      generalize called : Call.write (.text content) = call at takes
      cases takes with
      | write here single =>
        cases called
        rw [place?, back] at here
        cases here
        have raw : start.tag.isRaw full.document.serialization := by rwa [same still]
        exact Place.rejects_iff rfl (Tag.takesText raw resolves).2 raw remembers content
      | _ => cases called

private theorem settled_of_last {before after : List Made} {last : Made} (settles : last.Settles)
    (quiet : ∀ made ∈ last :: after, ¬ made.Begins) : Settled (before ++ last :: after) := by
  have silent {history : List Made} (quiet : ∀ made ∈ history, ¬ made.Begins) :
      Settled history := by
    induction history with
    | nil => trivial
    | cons made rest ih =>
      exact ⟨fun begins => (quiet made (.head _) begins).elim,
        ih fun made member => quiet made (.tail _ member)⟩
  induction before with
  | nil => exact silent quiet
  | cons made rest ih => exact ⟨fun _ => ⟨last, by simp, settles⟩, ih⟩

/-- A script whose end tag the sink has no room for, and a paragraph and the next script in another
sink. -/
def afterFailure : Program :=
  .make (.start .script) fun _ => .make (.finish (.text "x</")) fun _ =>
    .make (.replaceSink {}) fun _ => .make (.start .p) fun _ => .make (.finish .close) fun _ =>
      .make (.start .script) fun _ => .done

/-- The paragraph has settled what the first script left over, so the second script may be finished
with the name of the tag. In its body the name in two halves completes an end tag. -/
theorem scripts_are_judged_apart : ∃ past ready answer after opened history full heard next,
    (start { room := some 11 } {} .markup).follow afterFailure = some (past, ready) ∧
      past.map Made.heard = [.ok (), .error (.sink .full), .ok (), .ok (), .ok (), .ok ()] ∧
      ready.step (.finish (.text "script>")) = some (answer, after) ∧
      answer ≠ .error (.invalidRawText .script) ∧
      ready.step .openBody = some (.ok (), opened) ∧
      opened.follow (.make (.write (.text "</scr")) fun _ => .done) = some (history, full) ∧
      full.step (.write (.text "IPT")) = some (heard, next) ∧
      heard = .error (.invalidRawText .script) := by
  have seen : ((start { room := some 11 } {} .markup).follow afterFailure).bind (fun failed =>
      (failed.2.step (.finish (.text "script>"))).bind fun finished =>
        (failed.2.step .openBody).bind fun entered =>
          (entered.2.follow (.make (.write (.text "</scr")) fun _ => .done)).bind fun filled =>
            (filled.2.step (.write (.text "IPT"))).map fun _ =>
              (failed.1.map fun made => (made.heard, made.call, made.caller.handles.map Handle.held),
                failed.2.handles.map Handle.held, entered.1, filled.1.filterMap Made.run?,
                (indentFresh 0).verdict filled.2.document)) =
      some ([(.ok (), .start .script, []),
        (.error (.sink .full), .finish (.text "x</"), [some .script]),
        (.ok (), .replaceSink {}, []), (.ok (), .start .p, []),
        (.ok (), .finish .close, [some .p]), (.ok (), .start .script, [])],
        [some .script], .ok (), ["</scr"], .ok ()) := rfl
  obtain ⟨⟨past, ready⟩, followed, seen⟩ := Option.bind_eq_some_iff.mp seen
  obtain ⟨⟨answer, after⟩, finished, seen⟩ := Option.bind_eq_some_iff.mp seen
  obtain ⟨⟨entering, opened⟩, entered, seen⟩ := Option.bind_eq_some_iff.mp seen
  obtain ⟨⟨history, full⟩, filled, seen⟩ := Option.bind_eq_some_iff.mp seen
  obtain ⟨⟨heard, next⟩, stepped, same⟩ := Option.map_eq_some_iff.mp seen
  simp only [Prod.mk.injEq] at same
  obtain ⟨calls, tags, rfl, runs, indents⟩ := same
  obtain ⟨element, start, front, of⟩ := Handle.of_held tags
  have settled : Settled past := by
    obtain ⟨before, rest, rfl, -, last⟩ := List.map_eq_append_iff.mp
      (calls.trans (List.take_append_drop 4 _).symm)
    obtain ⟨paragraph, rest, rfl, written, last⟩ := List.map_eq_cons_iff.mp last
    obtain ⟨script, rest, rfl, started, none⟩ := List.map_eq_cons_iff.mp last
    obtain rfl := List.map_eq_nil_iff.mp none
    simp only [Prod.mk.injEq] at written started
    obtain ⟨succeeds, called, held⟩ := written
    obtain ⟨number, tag, front, is⟩ := Handle.of_held held
    refine settled_of_last (.inr (.inr ⟨⟨.close, number, tag, [], called, nofun, front, ?_⟩,
      succeeds⟩)) ?_
    · rw [is]
      rfl
    · intro made member begins
      simp only [List.mem_cons, List.not_mem_nil, or_false] at member
      obtain run | ⟨_, _, _, _, _, _, finishes, -, -, -, failed, -⟩ := begins
      · obtain ⟨content, run⟩ := Option.isSome_iff_exists.mp run
        have writes := (Made.run?_eq_some.mp run).1
        rcases member with rfl | rfl
        · cases called.symm.trans writes
        · cases started.2.1.symm.trans writes
      · rcases member with rfl | rfl
        · cases succeeds.symm.trans failed
        · cases started.2.1.symm.trans finishes
  have isRaw : start.tag.isRaw ({} : Parameters).serialization := by
    rw [of]
    rfl
  obtain ⟨alone, together⟩ := raw_text_is_judged_by_element followed front isRaw
  rw [of] at alone together
  refine ⟨past, ready, answer, after, opened, history, full, heard, next, followed, ?_, finished,
    fun rejected => ?_, entered, filled, stepped, ?_⟩
  · have heards := congrArg (List.map Prod.fst) calls
    rwa [List.map_map] at heards
  · have found := ((alone settled _ _ _ _ rfl finished).mp rejected).2
    exact absurd found.length_le (by decide)
  · obtain ⟨value, middle, indented⟩ := ok_of_verdict indents
    obtain ⟨told, other, later, wrote, continued, rfl⟩ := follow_make filled
    cases continued
    have back : full.handles = opened.handles := by
      cases takes_of_step wrote with
      | write here single => rfl
    refine (together opened _ _ full entered filled back ?_ _ _ _ stepped).mpr ⟨⟨middle, indented⟩, ?_⟩
    · intro made member
      obtain rfl := List.mem_singleton.mp member
      refine ⟨fun enters => ?_, fun leaves => ?_, fun finishes => ?_, fun _ => rfl⟩
      · cases enters.1
      · obtain ⟨ends | drops | abandons, -⟩ := leaves
        · cases ends
        · cases drops
        · cases abandons
      · obtain ⟨ending, _, _, _, finishes, -⟩ := finishes
        cases finishes
    · rw [runs]
      exact ⟨[], [], rfl⟩

/-- What a script left over that could not be ended rejects the text of another script. And what
a script remembers is forgotten when a paragraph is written inside of it. -/
theorem leftover_text_is_judged :
    (∃ caller, (start { room := some 11 } {} .markup).run [.start .script, .finish (.text "x</"),
        .replaceSink {}, .start .script, .finish (.text "script")] =
          some ([.ok (), .error (.sink .full), .ok (), .ok (), .error (.invalidRawText .script)],
            caller)) ∧
    ¬ endTagOpening .script <:+: Text.lowercase "script" ∧
    ∃ caller, (start {} {} .markup).run [.start .script, .openBody, .write (.text "</scr"), .top,
        .start .p, .finish .close, .drop, .write (.text "ipt")] =
          some (List.replicate 8 (.ok ()), caller) ∧
      endTagOpening .script <:+: Text.lowercase ("</scr" ++ "ipt") := by
  have left : ((start { room := some 11 } {} .markup).run [.start .script, .finish (.text "x</"),
      .replaceSink {}, .start .script, .finish (.text "script")]).map Prod.fst =
        some [.ok (), .error (.sink .full), .ok (), .ok (), .error (.invalidRawText .script)] := rfl
  have lost : ((start {} {} .markup).run [.start .script, .openBody, .write (.text "</scr"), .top,
      .start .p, .finish .close, .drop, .write (.text "ipt")]).map Prod.fst =
        some (List.replicate 8 (.ok ())) := rfl
  obtain ⟨⟨answers, first⟩, ranFirst, rfl⟩ := Option.map_eq_some_iff.mp left
  obtain ⟨⟨_, second⟩, ranSecond, rfl⟩ := Option.map_eq_some_iff.mp lost
  refine ⟨⟨first, ranFirst⟩, fun found => absurd found.length_le (by decide), second, ranSecond, ?_⟩
  exact ⟨[], [], rfl⟩

end Caller
end HtmlWriter
