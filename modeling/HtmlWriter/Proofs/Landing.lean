import HtmlWriter.Proofs.Outlines

/-! Where content is written. A place inside of an element is in hand from the end of its start
tag on, so what is written there comes after that. It also comes before the end tag, unless the
place is used after its body was ended: nothing keeps a caller from that, and the content is
then checked, and written, as if it were inside. -/

namespace HtmlWriter
open Script Writing

/-- The start tag of an element is not finished yet. -/
def Begun (element : Nat) (tag : Tag) (pieces : List Piece) : Prop :=
  ∃ before attributes, pieces = before ++ .opening element tag :: attributes ∧ Quiet attributes

/-- The start tag of an element is whole. -/
def Entered (element : Nat) (tag : Tag) (pieces : List Piece) : Prop :=
  ∃ before attributes inside, Quiet attributes ∧ pieces =
    before ++ .opening element tag :: attributes ++ .bracket element tag :: inside

/-- The end tag of an element was written. -/
def EndedIn (element : Nat) (pieces : List Piece) : Prop := ∃ tag, .endTag element tag ∈ pieces

section
variable {element : Nat} {tag : Tag} {pieces added : List Piece}

private theorem endedIn_append : EndedIn element (pieces ++ added) ↔
    EndedIn element pieces ∨ EndedIn element added := by
  simp only [EndedIn, List.mem_append, exists_or]

private theorem Quiet.not_endedIn (quiet : Quiet added) : ¬ EndedIn element added := by
  rintro ⟨tag, member⟩
  obtain ⟨bytes, same⟩ := quiet _ member
  cases same

theorem Begun.append (begun : Begun element tag pieces) (quiet : Quiet added) :
    Begun element tag (pieces ++ added) := by
  obtain ⟨before, attributes, rfl, others⟩ := begun
  exact ⟨before, attributes ++ added, by rw [List.append_assoc, List.cons_append],
    others.append quiet⟩

theorem Begun.entered (begun : Begun element tag pieces) :
    Entered element tag (pieces ++ [.bracket element tag]) := by
  obtain ⟨before, attributes, rfl, others⟩ := begun
  exact ⟨before, attributes, [], others, rfl⟩

theorem Entered.append (entered : Entered element tag pieces) (added : List Piece) :
    Entered element tag (pieces ++ added) := by
  obtain ⟨before, attributes, inside, others, rfl⟩ := entered
  exact ⟨before, attributes, inside ++ added, others, by rw [List.append_assoc, List.cons_append]⟩

end

/-- Where the element of a handle is in what was written. A body that has ended has its end
tag, unless there could be none any more. -/
def Handle.Located (lost : Prop) (pieces : List Piece) : Handle → Prop
  | .top => True
  | .tag element start =>
      Begun element start.tag pieces ∧ start.tag.Resolves start.model ∧ ¬ EndedIn element pieces
  | .body element opened => Entered element opened.tag pieces ∧
      (opened.place.parent = some opened.tag ∧ opened.tag.Resolves opened.place.model) ∧
      (EndedIn element pieces → opened.isEnded = true) ∧
      (opened.isEnded = true → EndedIn element pieces ∨ lost)

/-- Handles are about different elements, each of which is where its handle says. -/
inductive Traced (lost : Prop) (pieces : List Piece) : List Handle → Prop
  | nil : Traced lost pieces []
  | cons {handle : Handle} {outer : List Handle} (located : handle.Located lost pieces)
      (own : ∀ element, handle.element? = some element →
        element < pieces.length ∧ ∀ other ∈ outer, other.element? ≠ some element)
      (beneath : Traced lost pieces outer) : Traced lost pieces (handle :: outer)

namespace Traced
variable {lost later : Prop} {pieces added : List Piece} {handles : List Handle}

private theorem lt_length (traced : Traced lost pieces handles) {handle : Handle}
    (member : handle ∈ handles) {element : Nat} (of : handle.element? = some element) :
    element < pieces.length := by
  induction traced with
  | nil => cases member
  | cons located own beneath ih =>
    cases member with
    | head => exact (own element of).1
    | tail _ member => exact ih member

theorem mono (traced : Traced lost pieces handles) (implies : lost → later) :
    Traced later pieces handles := by
  induction traced with
  | nil => exact .nil
  | @cons handle outer located own beneath ih =>
    refine .cons ?_ own ih
    cases handle with
    | top => exact located
    | tag element start => exact located
    | body element opened =>
      obtain ⟨entered, parent, ended, past⟩ := located
      exact ⟨entered, parent, ended, fun isEnded => (past isEnded).imp_right implies⟩

theorem append (traced : Traced lost pieces handles) (none : NoTags handles)
    (others : ∀ element, EndedIn element added →
      ∀ handle ∈ handles, handle.element? ≠ some element) :
    Traced lost (pieces ++ added) handles := by
  induction traced with
  | nil => exact .nil
  | @cons handle outer located own beneath ih =>
    refine .cons ?_ (fun element of => ?_) (ih none.tail fun element ended handle member =>
      others element ended handle (.tail _ member))
    · cases handle with
      | top => trivial
      | tag element start => exact none.not_front.elim
      | body element opened =>
        obtain ⟨entered, parent, ended, past⟩ := located
        refine ⟨entered.append added, parent, fun found => ?_, fun isEnded => ?_⟩
        · refine ended ((endedIn_append.mp found).resolve_right fun added => ?_)
          exact others element added _ (.head _) rfl
        · exact (past isEnded).imp_left fun found => endedIn_append.mpr (.inl found)
    · obtain ⟨bound, apart⟩ := own element of
      exact ⟨by rw [List.length_append]; omega, apart⟩

variable {handle other : Handle} {outer : List Handle}

theorem front (traced : Traced lost pieces (handle :: outer)) : handle.Located lost pieces := by
  cases traced with
  | cons located own beneath => exact located

theorem behind (traced : Traced lost pieces (handle :: outer)) (none : NoTags outer)
    (ends : ∀ element, EndedIn element added → handle.element? = some element) :
    Traced lost (pieces ++ added) outer := by
  cases traced with
  | cons located own beneath =>
    exact beneath.append none fun element ended => (own element (ends element ended)).2

private theorem replace (traced : Traced lost pieces (handle :: outer)) (none : NoTags outer)
    (ends : ∀ element, EndedIn element added → handle.element? = some element)
    (same : other.element? = handle.element?) (located : other.Located lost (pieces ++ added)) :
    Traced lost (pieces ++ added) (other :: outer) := by
  have behind := traced.behind none ends
  cases traced with
  | cons _ own beneath =>
    refine .cons located (fun element of => ?_) behind
    obtain ⟨bound, apart⟩ := own element (same ▸ of)
    exact ⟨by rw [List.length_append]; omega, apart⟩

end Traced

/-- The elements of all handles are known, and no other has the number of the next. -/
structure Outline.Settled (outline : Outline) : Prop where
  upright : outline.Upright
  known : ∀ element, EndedIn element outline.pieces → element < outline.pieces.length
  traced : Traced outline.Lost outline.pieces outline.handles

theorem Outline.Moves.ends {outline next : Outline} {call : Call} {heard : Except Error Unit}
    (moves : outline.Moves call heard next) :
    ∃ added, next.pieces = outline.pieces ++ added ∧ ∀ element, EndedIn element added →
      ∃ handle outer, outline.handles = handle :: outer ∧ handle.element? = some element := by
  cases moves with
  | stays quiet | letGo _ quiet | attributed _ _ quiet =>
    exact ⟨_, rfl, fun _ found => (quiet.not_endedIn found).elim⟩
  | top free | endedInVain front past =>
    exact ⟨[], (List.append_nil _).symm, fun _ found => (Quiet.nil.not_endedIn found).elim⟩
  | started idle model | finishedVoid front isVoid | halted front
  | opened front solid of inside live =>
    exact ⟨_, rfl, fun _ found => by simp [EndedIn] at found⟩
  | @finished element start outer ending content front solid quiet =>
    refine ⟨_, rfl, fun other found => ⟨_, _, front, ?_⟩⟩
    obtain ⟨tag, member⟩ := found
    simp only [List.mem_append, List.mem_cons, List.mem_nil_iff, or_false, reduceCtorEq, false_or,
      Piece.endTag.injEq] at member
    rcases member with inside | ⟨rfl, -⟩
    · exact (quiet.not_endedIn ⟨tag, inside⟩).elim
    · rfl
  | @ended _ element body outer rest front live idle kept =>
    refine ⟨_, rfl, fun other found => ⟨_, _, front, ?_⟩⟩
    simp only [EndedIn, List.mem_singleton, Piece.endTag.injEq] at found
    obtain ⟨tag, rfl, -⟩ := found
    rfl

theorem Outline.Moves.known {outline next : Outline} {call : Call} {heard : Except Error Unit}
    (settled : outline.Settled) (moves : outline.Moves call heard next) :
    ∀ element, EndedIn element next.pieces → element < next.pieces.length := by
  intro element found
  obtain ⟨added, pieces, own⟩ := moves.ends
  rw [pieces, endedIn_append] at found
  have bound : element < outline.pieces.length := by
    rcases found with found | found
    · exact settled.known element found
    · obtain ⟨handle, outer, front, of⟩ := own element found
      exact settled.traced.lt_length (front ▸ .head _) of
  rw [pieces, List.length_append]
  omega

/-- Each call leaves all handles to elements that are where the handles say. -/
theorem Outline.Moves.settled {outline next : Outline} {call : Call} {heard : Except Error Unit}
    (settled : outline.Settled) (moves : outline.Moves call heard next) : next.Settled := by
  refine ⟨moves.upright settled.upright, moves.known settled, ?_⟩
  obtain ⟨upright, known, traced⟩ := settled
  have later := traced.mono fun lost => moves.lost lost
  have own {added : List Piece} {handle : Handle} {outer : List Handle}
      (front : outline.handles = handle :: outer) (pieces : next.pieces = outline.pieces ++ added) :
      ∀ element, EndedIn element added → handle.element? = some element := by
    intro element found
    obtain ⟨others, same, ends⟩ := moves.ends
    obtain rfl : others = added := List.append_cancel_left (same.symm.trans pieces)
    obtain ⟨first, rest, held, of⟩ := ends element found
    obtain ⟨rfl, -⟩ := List.cons.inj (held.symm.trans front)
    exact of
  cases upright with
  | @between unfinished handles pieces none =>
    cases moves with
    | stays quiet =>
      exact later.append none fun element found => (quiet.not_endedIn found).elim
    | top free => exact .cons trivial nofun later
    | @started start idle model =>
      have unended (element : Nat) : ¬ EndedIn element [.opening pieces.length start.tag] := by
        simp [EndedIn]
      have begun := later.append none fun element found => (unended element found).elim
      refine .cons ⟨⟨pieces, [], rfl, .nil⟩, model, fun found => ?_⟩ (fun element of => ?_) begun
      · exact Nat.lt_irrefl _ (known _ ((endedIn_append.mp found).resolve_right (unended _)))
      · cases of
        refine ⟨by rw [List.length_append]; exact Nat.lt_succ_self _, fun other member same => ?_⟩
        exact Nat.lt_irrefl _ (later.lt_length member same)
    | attributed front same quiet | finishedVoid front isVoid | finished front solid quiet
    | halted front | opened front solid of inside live =>
      cases front
      exact none.not_front.elim
    | letGo front quiet past =>
      cases front
      exact later.behind none.tail (own rfl rfl)
    | @ended _ element body outer rest front live idle kept =>
      cases front
      cases kept with
      | inl kept =>
        cases kept
        obtain ⟨entered, parent, -, -⟩ := later.front
        exact later.replace none.tail (own rfl rfl) rfl ⟨entered.append _, parent, fun _ => rfl,
          fun _ => .inl (endedIn_append.mpr (.inr ⟨body.tag, .head _⟩))⟩
      | inr gone =>
        cases gone
        exact later.behind none.tail (own rfl rfl)
    | @endedInVain _ element body outer front past =>
      cases front
      cases later with
      | cons located ownNumber beneath =>
        obtain ⟨entered, parent, ended, isOver⟩ := located
        refine .cons ⟨entered, parent, fun _ => rfl, fun _ => ?_⟩ ownNumber beneath
        exact past.elim isOver fun waits => .inr ⟨waits, none.tail.body _ _⟩
  | inTag none =>
    cases moves with
    | stays quiet =>
      obtain ⟨begun, model, unended⟩ := later.front
      exact later.replace none (own rfl rfl) rfl ⟨begun.append quiet, model, fun found =>
        (endedIn_append.mp found).elim unended quiet.not_endedIn⟩
    | top free => exact (free _ _ _ rfl).elim
    | started idle model => cases idle
    | attributed front same quiet =>
      cases front
      obtain ⟨begun, model, unended⟩ := later.front
      rw [← same.1] at begun
      rw [← same.1, ← same.2] at model
      exact later.replace none (own rfl rfl) rfl ⟨begun.append quiet, model, fun found =>
        (endedIn_append.mp found).elim unended quiet.not_endedIn⟩
    | letGo front quiet past =>
      cases front
      exact later.behind none (own rfl rfl)
    | finishedVoid front isVoid | finished front solid quiet | halted front =>
      cases front
      exact later.behind none (own rfl rfl)
    | @opened element start outer body front solid of inside live =>
      cases front
      obtain ⟨begun, model, unended⟩ := later.front
      rw [← of] at begun model
      refine later.replace none (own rfl rfl) rfl ⟨begun.entered,
        by rw [inside]; exact ⟨rfl, model⟩, fun found => ?_, fun isEnded => ?_⟩
      · refine ((endedIn_append.mp found).elim unended fun added => ?_).elim
        simp [EndedIn] at added
      · rw [live] at isEnded
        cases isEnded
    | ended front live idle kept => cases front
    | endedInVain front past => cases front

theorem text_ok {document final : Document} (unlimited : document.Unlimited) {place : Place}
    {content : String} (some : content ≠ "")
    (ran : (place.text content).run document = .ok () final) :
    document.unfinished = none ∧ ∃ suffix, final = { document.wrote
      (document.format.indentGap.text ++
        (Token.text place.parent content).markup document.encoder document.serialization) with
          rawSuffix := suffix } := by
  cases waiting : document.unfinished with
  | some pending =>
    rw [Place.text, Action.run_bind, run_refuseInTag_waiting waiting] at ran
    cases ran
  | none =>
    refine ⟨rfl, ?_⟩
    rw [run_text unlimited waiting] at ran
    split at ran
    · cases ran
    · rw [if_neg (by simpa using some)] at ran
      have indented := unlimited.wrote document.format.indentGap.text
      obtain ⟨suffix, written⟩ | ⟨tag, refused⟩ := run_textInside indented place.parent content
      · rw [written, Document.wrote_wrote] at ran
        cases ran
        exact ⟨suffix, rfl⟩
      · rw [refused] at ran
        cases ran

/-- Only in scripts and style sheets is text written as it is. -/
theorem markup_text (encoder : Encoder) (serialization : Serialization) (tag : Tag)
    (content : String) :
    (Token.text (some tag) content).markup encoder serialization =
        encoder.text serialization content ∨
      (Token.text (some tag) content).markup encoder serialization = content ∧
        (tag = .script ∨ tag = .style) := by
  cases isRaw : tag.isRaw serialization with
  | true => exact .inr ⟨by simp [Token.markup, isRaw], Tag.script_or_style isRaw⟩
  | false => exact .inl (by simp [Token.markup, isRaw])

/-- Calls that write content which its place is asked about. -/
def Call.IsContent : Call → Prop
  | .start _ => True
  | .write (.text content) => content ≠ ""
  | _ => False

namespace Caller
variable {sink : Sink} {parameters : Parameters} {encoder : Encoder} {calls : List Call}
  {answers : List (Except Error Unit)} {caller : Caller}

theorem settled_of_run (takes : sink.Unlimited) (steady : ∀ call ∈ calls, call.KeepsSink)
    (ran : (start sink parameters encoder).run calls = some (answers, caller)) :
    Recorded parameters.serialization caller ∧ caller.outline.Settled := by
  have settled : (start sink parameters encoder).outline.Settled :=
    ⟨.between .nil, fun _ found => ((Quiet.other _).not_endedIn found).elim, .nil⟩
  exact run_moves Outline.Settled (fun _ => True) (fun _ => True)
    (fun settled _ _ moves => moves.settled settled) takes ran
    (fun call member => ⟨steady call member, trivial⟩) (fun _ _ => trivial) settled

/-- Content that is accepted at the place of a body lands behind the whole start tag of the
body's element. It lands before the end tag exactly if the body has not ended: a body that has
ended goes on taking content, which is checked by the model of its element and, in scripts and
style sheets, written as it is. -/
theorem content_lands (takes : sink.Unlimited) (steady : ∀ call ∈ calls, call.KeepsSink)
    (ran : (start sink parameters encoder).run calls = some (answers, caller))
    {element : Nat} {body : Body} {outer : List Handle}
    (front : caller.handles = .body element body :: outer) {call : Call}
    (content : call.IsContent) {next : Caller}
    (accepted : caller.step call = some (.ok (), next)) :
    (body.place.parent = some body.tag ∧ body.tag.Resolves body.place.model) ∧
      Entered element body.tag caller.pieces ∧
      (EndedIn element caller.pieces ↔ body.isEnded = true) ∧
      (∃ added, next.pieces = caller.pieces ++ [added]) ∧
      ∀ text, call = .write (.text text) → ∃ (gap : Gap) (written : String),
        next.output = caller.output ++ utf8 (gap.text ++ written) ∧
          (written = encoder.text parameters.serialization text ∨
            written = text ∧ (body.tag = .script ∨ body.tag = .style)) := by
  obtain ⟨recorded, settled⟩ := settled_of_run takes steady ran
  have traced := settled.traced
  have held : caller.outline.handles = .body element body :: outer := front
  rw [held] at traced
  obtain ⟨entered, parent, ended, past⟩ := traced.front
  have at_body {place : Place} (here : caller.place? = some place) : place = body.place := by
    rw [place?, front] at here
    exact (Option.some.inj here).symm
  have endedIn (idle : caller.document.unfinished = none) :
      EndedIn element caller.pieces ↔ body.isEnded = true :=
    ⟨ended, fun isEnded => (past isEnded).resolve_right fun lost => lost.1 idle⟩
  have taken := takes_of_step accepted
  generalize good : (Except.ok () : Except Error Unit) = heard at taken
  cases taken with
  | @started place tag start document here begun =>
    have idle := (started_moves recorded.unlimited begun).2.2.1
    exact ⟨parent, entered, endedIn idle, ⟨_, rfl⟩, fun _ other => by cases other⟩
  | @write place call here single =>
    cases call with
    | text text =>
      cases at_body here
      have succeeds : (body.place.text text).verdict caller.document = .ok () := good.symm
      obtain ⟨⟨⟩, final, written⟩ := Writing.ok_of_verdict succeeds
      obtain ⟨idle, suffix, same⟩ := text_ok recorded.unlimited content written
      refine ⟨parent, entered, endedIn idle, ⟨_, rfl⟩, ?_⟩
      rintro text ⟨⟩
      have encodes : caller.document.encoder = encoder :=
        congrArg Rules.encoder (follows_of_run ran).rules
      rw [parent.1, encodes, recorded.same] at same
      refine ⟨caller.document.format.indentGap, _, ?_,
        markup_text encoder parameters.serialization body.tag text⟩
      have gains : (finalState (body.place.text text) caller.document).bytes =
          caller.document.bytes ++ utf8 (caller.document.format.indentGap.text ++
            (Token.text (some body.tag) text).markup encoder parameters.serialization) := by
        rw [finalState, written, ← recorded.unlimited.bytes_wrote, same]
        rfl
      rw [output, output, List.append_assoc, ← gains]
      rfl
    | _ => exact content.elim
  | refused here begun => cases good
  | _ => exact content.elim

/-- Text is taken by a script whose body was entered, behind the start tag. -/
theorem text_lands_in_script : ∃ answers caller next element body outer,
    (start {} {} .markup).run [.start .script, .openBody] = some (answers, caller) ∧
      caller.handles = .body element body :: outer ∧ body.isEnded = false ∧
      caller.step (.write (.text "a<b")) = some (.ok (), next) ∧
      Entered element body.tag caller.pieces ∧ ¬ EndedIn element caller.pieces := by
  have seen : ((start {} {} .markup).run [.start .script, .openBody]).map (fun result =>
      (result.2.handles.map fun
          | .body _ body => some body.isEnded
          | _ => none,
        (result.2.step (.write (.text "a<b"))).map Prod.fst)) =
      some ([some false], some (.ok ())) := rfl
  obtain ⟨⟨answers, caller⟩, ran, same⟩ := Option.map_eq_some_iff.mp seen
  obtain ⟨handles, stepped⟩ := Prod.mk.inj same
  obtain ⟨⟨heard, next⟩, accepted, rfl⟩ := Option.map_eq_some_iff.mp stepped
  obtain ⟨handle, outer, front, handle_live, -⟩ := List.map_eq_cons_iff.mp handles
  cases handle with
  | top | tag element start => cases handle_live
  | body element body =>
    have live : body.isEnded = false := Option.some.inj handle_live
    have content : Call.IsContent (.write (.text "a<b")) := by simp [Call.IsContent]
    obtain ⟨-, entered, ends, -⟩ :=
      content_lands .default (by simp [Call.KeepsSink]) ran front content accepted
    refine ⟨answers, caller, next, element, body, outer, ran, front, live, accepted, entered, ?_⟩
    rw [ends, live]
    exact Bool.false_ne_true

/-- A script that has ended still takes text, and as if it had not ended. -/
theorem ended_script_takes_text : ∃ answers caller,
    (start {} {} .markup).run [.start .script, .openBody, .endBody, .write (.text "<b>")] =
        some (answers, caller) ∧
      answers = [.ok (), .ok (), .ok (), .ok ()] ∧
      caller.place?.bind Place.parent = some .script ∧
      caller.pieces = [.other [], .opening 1 .script, .bracket 1 .script, .endTag 1 .script,
        .other (utf8 "<b>")] ∧
      caller.output = utf8 "<script></script><b>" := by
  have seen : ((start {} {} .markup).run
      [.start .script, .openBody, .endBody, .write (.text "<b>")]).map (fun result =>
        (result.1, result.2.place?.bind Place.parent, result.2.pieces, result.2.output)) =
      some ([.ok (), .ok (), .ok (), .ok ()], some .script, [.other [], .opening 1 .script,
        .bracket 1 .script, .endTag 1 .script, .other (utf8 "<b>")],
        utf8 "<script></script><b>") := rfl
  obtain ⟨⟨answers, caller⟩, ran, same⟩ := Option.map_eq_some_iff.mp seen
  simp only [Prod.mk.injEq] at same
  exact ⟨answers, caller, ran, same.1, same.2.1, same.2.2.1, same.2.2.2⟩

end Caller
end HtmlWriter
