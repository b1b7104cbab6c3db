import HtmlWriter.Proofs.Record

/-! What a caller holds and has written, without the bytes. Over sinks that take everything
only a few things can happen to that, whichever call is made, and the record tells all that the
sinks have taken. -/

namespace HtmlWriter
open Script Writing

/-- What the order of tags depends on. -/
structure Outline where
  /-- The element whose start tag still takes attributes, if any. -/
  unfinished : Option Tag
  handles : List Handle
  pieces : List Piece

/-- Pieces that are no part of a tag. -/
def Quiet (added : List Piece) : Prop := ∀ piece ∈ added, ∃ bytes, piece = .other bytes

theorem Quiet.nil : Quiet [] := nofun

theorem Quiet.other (bytes : List UInt8) : Quiet [.other bytes] :=
  fun _ member => ⟨bytes, List.mem_singleton.mp member⟩

theorem Quiet.append {first second : List Piece} (before : Quiet first) (after : Quiet second) :
    Quiet (first ++ second) := by
  intro piece member
  exact (List.mem_append.mp member).elim (before piece) (after piece)

/-- The model of an element, whatever the model of the place it is in. -/
def Tag.Resolves (tag : Tag) (model : ContentModel) : Prop :=
  ∃ around, model = tag.definition.content.inside around

/-- What can become of an outline when a call is made that ends as told. -/
inductive Outline.Moves (outline : Outline) : Call → Except Error Unit → Outline → Prop
  | stays {call : Call} {heard : Except Error Unit} {added : List Piece} (quiet : Quiet added) :
      Moves outline call heard ⟨outline.unfinished, outline.handles, outline.pieces ++ added⟩
  | top (free : ∀ element start outer, outline.handles ≠ .tag element start :: outer) :
      Moves outline .top (.ok ()) ⟨outline.unfinished, .top :: outline.handles, outline.pieces⟩
  | started {start : StartTag} (idle : outline.unfinished = none)
      (model : start.tag.Resolves start.model) :
      Moves outline (.start start.tag) (.ok ()) ⟨some start.tag,
        .tag outline.pieces.length start :: outline.handles,
        outline.pieces ++ [.opening outline.pieces.length start.tag]⟩
  | attributed {element : Nat} {start next : StartTag} {outer : List Handle}
      {requested : Attribute} {added : List Piece}
      (front : outline.handles = .tag element start :: outer)
      (same : next.tag = start.tag ∧ next.model = start.model) (quiet : Quiet added) :
      Moves outline (.add requested) (.ok ())
        ⟨outline.unfinished, .tag element next :: outer, outline.pieces ++ added⟩
  /-- A body is let go without an end tag only if it has one, or cannot get one, or is
  abandoned. -/
  | letGo {call : Call} {heard : Except Error Unit} {handle : Handle} {outer : List Handle}
      {added : List Piece} (front : outline.handles = handle :: outer) (quiet : Quiet added)
      (past : ∀ element body, handle = .body element body →
        body.isEnded = true ∨ outline.unfinished ≠ none ∨ call = .abandon) :
      Moves outline call heard ⟨outline.unfinished, outer, outline.pieces ++ added⟩
  | finishedVoid {element : Nat} {start : StartTag} {outer : List Handle} {ending : Ending}
      (front : outline.handles = .tag element start :: outer)
      (isVoid : start.tag.definition.isVoid = true) :
      Moves outline (.finish ending) (.ok ())
        ⟨none, outer, outline.pieces ++ [.bracket element start.tag]⟩
  | finished {element : Nat} {start : StartTag} {outer : List Handle} {ending : Ending}
      {content : List Piece} (front : outline.handles = .tag element start :: outer)
      (solid : start.tag.definition.isVoid = false) (quiet : Quiet content) :
      Moves outline (.finish ending) (.ok ()) ⟨none, outer, outline.pieces ++
        (.bracket element start.tag :: content ++ [.endTag element start.tag])⟩
  /-- Raw text is rejected after the bracket. -/
  | halted {element : Nat} {start : StartTag} {outer : List Handle} {ending : Ending}
      {error : Error} (front : outline.handles = .tag element start :: outer) :
      Moves outline (.finish ending) (.error error)
        ⟨none, outer, outline.pieces ++ [.bracket element start.tag]⟩
  | opened {element : Nat} {start : StartTag} {outer : List Handle} {body : Body}
      (front : outline.handles = .tag element start :: outer)
      (solid : start.tag.definition.isVoid = false) (of : body.tag = start.tag)
      (inside : body.place = ⟨some body.tag, start.model⟩) (live : body.isEnded = false) :
      Moves outline .openBody (.ok ()) ⟨none, .body element body :: outer,
        outline.pieces ++ [.bracket element body.tag]⟩
  | ended {call : Call} {element : Nat} {body : Body} {outer rest : List Handle}
      (front : outline.handles = .body element body :: outer) (live : body.isEnded = false)
      (idle : outline.unfinished = none)
      (kept : rest = .body element body.ended :: outer ∨ rest = outer) :
      Moves outline call (.ok ())
        ⟨none, rest, outline.pieces ++ [.endTag element body.tag]⟩
  | endedInVain {heard : Except Error Unit} {element : Nat} {body : Body} {outer : List Handle}
      (front : outline.handles = .body element body :: outer)
      (past : body.isEnded = true ∨ outline.unfinished ≠ none) :
      Moves outline .endBody heard
        ⟨outline.unfinished, .body element body.ended :: outer, outline.pieces⟩

def NoTags (handles : List Handle) : Prop :=
  ∀ element start, Handle.tag element start ∉ handles

namespace NoTags
variable {handle : Handle} {handles : List Handle}

theorem nil : NoTags [] := nofun

theorem top (none : NoTags handles) : NoTags (.top :: handles) := by
  simpa [NoTags] using none

theorem body (none : NoTags handles) (element : Nat) (body : Body) :
    NoTags (.body element body :: handles) := by
  simpa [NoTags] using none

theorem tail (none : NoTags (handle :: handles)) : NoTags handles :=
  fun element start member => none element start (.tail _ member)

theorem not_front {element : Nat} {start : StartTag}
    (none : NoTags (.tag element start :: handles)) : False :=
  none element start (.head _)

end NoTags

/-- At most the last that was got is a start tag, and then it is the unfinished one. -/
inductive Outline.Upright : Outline → Prop
  | between {unfinished : Option Tag} {handles : List Handle} {pieces : List Piece}
      (none : NoTags handles) : Upright ⟨unfinished, handles, pieces⟩
  | inTag {element : Nat} {start : StartTag} {outer : List Handle} {pieces : List Piece}
      (none : NoTags outer) : Upright ⟨some start.tag, .tag element start :: outer, pieces⟩

/-- A start tag was given up, so the document can no longer be finished. -/
def Outline.Lost (outline : Outline) : Prop := outline.unfinished ≠ none ∧ NoTags outline.handles

theorem Outline.Moves.upright {outline next : Outline} {call : Call} {heard : Except Error Unit}
    (upright : outline.Upright) (moves : outline.Moves call heard next) : next.Upright := by
  cases upright with
  | between none =>
    cases moves with
    | stays quiet => exact .between none
    | top free => exact .between none.top
    | started idle model => exact .inTag none
    | attributed front same quiet =>
      cases front
      exact none.not_front.elim
    | letGo front quiet past =>
      cases front
      exact .between none.tail
    | finishedVoid front isVoid | finished front solid quiet | halted front =>
      cases front
      exact none.not_front.elim
    | opened front solid of inside live =>
      cases front
      exact none.not_front.elim
    | ended front live idle kept =>
      cases front
      cases kept with
      | inl kept =>
        cases kept
        exact .between (none.tail.body _ _)
      | inr gone =>
        cases gone
        exact .between none.tail
    | endedInVain front past =>
      cases front
      exact .between (none.tail.body _ _)
  | inTag none =>
    cases moves with
    | stays quiet => exact .inTag none
    | top free => exact (free _ _ _ rfl).elim
    | started idle model => cases idle
    | attributed front same quiet =>
      cases front
      rw [← same.1]
      exact .inTag none
    | letGo front quiet past =>
      cases front
      exact .between none
    | finishedVoid front isVoid | finished front solid quiet | halted front =>
      cases front
      exact .between none
    | opened front solid of inside live =>
      cases front
      exact .between (none.body _ _)
    | ended front live idle kept => cases front
    | endedInVain front past => cases front

theorem Outline.Moves.lost {outline next : Outline} {call : Call} {heard : Except Error Unit}
    (lost : outline.Lost) (moves : outline.Moves call heard next) : next.Lost := by
  obtain ⟨waits, none⟩ := lost
  cases moves with
  | stays quiet => exact ⟨waits, none⟩
  | top free => exact ⟨waits, none.top⟩
  | started idle model => exact (waits idle).elim
  | attributed front same quiet | finishedVoid front isVoid | finished front solid quiet
  | halted front | opened front solid of inside live =>
    rw [front] at none
    exact none.not_front.elim
  | letGo front quiet past =>
    rw [front] at none
    exact ⟨waits, none.tail⟩
  | ended front live idle kept => exact (waits idle).elim
  | endedInVain front past =>
    rw [front] at none
    exact ⟨waits, none.tail.body _ _⟩

private theorem StartTag.claimName_same {start claimed : StartTag} {name : String}
    (took : start.claimName name = .ok claimed) :
    claimed.tag = start.tag ∧ claimed.model = start.model := by
  unfold claimName at took
  dsimp only at took
  split at took <;> cases took
  exact ⟨rfl, rfl⟩

theorem StartTag.add_same (start : StartTag) (requested : Attribute) :
    Yields (fun next : StartTag => next.tag = start.tag ∧ next.model = start.model)
      (start.add requested) := by
  have claims (name : String) :
      Yields (fun claimed : StartTag => claimed.tag = start.tag ∧ claimed.model = start.model)
        (MonadExcept.ofExcept (start.claimName name) : Writing StartTag) := by
    intro document claimed final ran
    cases took : start.claimName name with
    | ok value =>
      rw [took] at ran
      cases ran
      exact claimName_same took
    | error error =>
      rw [took] at ran
      cases ran
  refine .bind fun document => .bind fun emission => ?_
  unfold emit
  cases emission with
  | nothing => exact .pure ⟨rfl, rfl⟩
  | valued name value =>
    exact (claims name).bind_of_yields fun claimed same => .bind fun _ => .bind fun _ =>
      .bind fun _ => .bind fun _ => .bind fun _ => .bind fun _ => .pure same
  | flag name =>
    refine (claims name).bind_of_yields fun claimed same => .bind fun _ => .bind fun _ =>
      .bind fun _ => ?_
    split
    · exact .bind fun _ => .bind fun _ => .bind fun _ => .pure same
    · exact .pure same

/-- Calls after which there still is a sink that takes everything. -/
def Call.KeepsSink : Call → Prop
  | .detach => False
  | .replaceSink sink => sink.Unlimited
  | _ => True

namespace Caller

def outline (caller : Caller) : Outline :=
  ⟨caller.document.unfinished, caller.handles, caller.pieces⟩

private theorem outline_becomes (caller : Caller) (document : Document) (handles : List Handle)
    (added : List Piece) : (caller.becomes document handles added).outline =
      ⟨document.unfinished, handles, caller.pieces ++ added⟩ := rfl

/-- The record tells all that the sinks have taken. -/
structure Recorded (serialization : Serialization) (caller : Caller) : Prop where
  unlimited : caller.document.Unlimited
  same : caller.document.serialization = serialization
  spelled : Spelled serialization caller.pieces caller.output

variable {serialization : Serialization} {caller next : Caller} {call : Call}
  {heard : Except Error Unit}

theorem Recorded.becomes (recorded : Recorded serialization caller) {document : Document}
    {added : List Piece} (adds : Adds caller.document added document) (handles : List Handle) :
    Recorded serialization (caller.becomes document handles added) where
  unlimited := adds.unlimited
  same := adds.serialization.trans recorded.same
  spelled := by
    have spelled := recorded.spelled
    rw [← recorded.same] at spelled ⊢
    exact adds.spelled spelled

theorem Recorded.replaceSink (recorded : Recorded serialization caller) {sink : Sink}
    (takes : sink.Unlimited) :
    Recorded serialization { caller.becomes
        (finalState (Writing.replaceSink sink) caller.document) caller.handles
        [.other sink.contents] with collected := caller.output } where
  unlimited := ⟨sink, rfl, takes⟩
  same := recorded.same
  spelled := .piece (.other sink.contents) recorded.spelled

private theorem recorded_start {sink : Sink} (takes : sink.Unlimited) (parameters : Parameters)
    (encoder : Encoder) :
    Recorded parameters.serialization (start sink parameters encoder) where
  unlimited := ⟨sink, rfl, takes⟩
  same := rfl
  spelled := .piece (.other sink.contents) .nil

/-- An element that could be started begins with its name, and nothing waited before it. -/
theorem started_moves (unlimited : caller.document.Unlimited) {place : Place} {tag : Tag}
    {start : StartTag} {document : Document}
    (ran : (place.element tag).run caller.document = .ok start document) :
    start.tag = tag ∧ start.model = tag.definition.content.inside place.model ∧
      caller.document.unfinished = none ∧ document.unfinished = some tag ∧
      Adds caller.document [.opening caller.pieces.length tag] document := by
  cases waiting : caller.document.unfinished with
  | some pending =>
    rw [Place.element_eq, Action.run_bind, run_refuseInTag_waiting waiting] at ran
    cases ran
  | none =>
    rw [run_element unlimited waiting] at ran
    split at ran
    · cases ran
      refine ⟨rfl, rfl, rfl, rfl, ?_⟩
      have led := Adds.gap unlimited (caller.document.format.leadGap tag)
      have begun := led.trans (.piece led.unlimited (.opening caller.pieces.length tag) _ rfl)
      rw [Document.wrote_wrote] at begun
      exact begun.of_sink rfl rfl
    · cases ran

theorem refused_same (unlimited : caller.document.Unlimited) {place : Place} {tag : Tag}
    {error : Error} {document : Document}
    (ran : (place.element tag).run caller.document = .error error document) :
    document = caller.document := by
  cases waiting : caller.document.unfinished with
  | some pending =>
    rw [Place.element_eq, Action.run_bind, run_refuseInTag_waiting waiting] at ran
    cases ran
    rfl
  | none =>
    rw [run_element unlimited waiting] at ran
    split at ran
    · cases ran
    · cases ran
      rfl

private theorem finish_moves (recorded : Recorded serialization caller) {element : Nat}
    {start : StartTag} {outer : List Handle}
    (front : caller.handles = .tag element start :: outer) (ending : Ending) :
    caller.outline.Moves (.finish ending) ((ending.finish start).verdict caller.document)
      ⟨(finalState (ending.finish start) caller.document).unfinished, outer,
        caller.pieces ++ start.pieces element caller.document
          ((ending.finish start).verdict caller.document) ending⟩ := by
  have givenUp (ending : Ending) (heard : Except Error Unit) : caller.outline.Moves
      (.finish ending) heard ⟨caller.document.unfinished, outer, caller.pieces ++ []⟩ :=
    .letGo front .nil fun _ _ other => by cases other
  have closes (ending : Ending) : caller.outline.Moves (.finish ending)
      (start.close.verdict caller.document)
      ⟨(finalState start.close caller.document).unfinished, outer, caller.pieces ++
        start.closePieces element (start.close.verdict caller.document)⟩ := by
    obtain ⟨final, ran, idle, -⟩ := start.close_adds recorded.unlimited element
    rw [verdict, finalState, ran]
    dsimp only
    rw [idle, StartTag.closePieces]
    cases isVoid : start.tag.definition.isVoid with
    | true => exact .finishedVoid front isVoid
    | false => exact .finished front isVoid .nil
  have writes (ending : Ending) (content : String) : caller.outline.Moves (.finish ending)
      ((start.text content).verdict caller.document)
      ⟨(finalState (start.text content) caller.document).unfinished, outer, caller.pieces ++
        start.textPieces element caller.document content
          ((start.text content).verdict caller.document)⟩ := by
    obtain ⟨solid, final, ran, idle, -⟩ | ⟨error, ran, nothing⟩ | ⟨-, tag, ran, -⟩ :=
      start.text_adds recorded.unlimited element content
    · rw [verdict, finalState, ran]
      dsimp only
      rw [idle]
      exact .finished front solid (.other _)
    · rw [verdict, finalState, ran]
      dsimp only
      rw [nothing]
      exact givenUp ending (.error error)
    · rw [verdict, finalState, ran]
      exact .halted front
  cases ending with
  | close => exact closes .close
  | text content => exact writes (.text content) content
  | textOption content =>
    cases content with
    | none => exact closes (.textOption none)
    | some content => exact writes (.textOption (some content)) content
  | giveUp => exact givenUp .giveUp (.ok ())

private theorem close_moves (recorded : Recorded serialization caller) (element : Nat)
    (body : Body) :
    (body.isEnded = false ∧ caller.document.unfinished = none ∧
      body.close.verdict caller.document = .ok () ∧
      body.pieces element caller.document = [.endTag element body.tag]) ∨
    ((body.isEnded = true ∨ caller.document.unfinished ≠ none) ∧
      body.pieces element caller.document = []) := by
  cases held : body.around with
  | none =>
    refine .inr ⟨.inl (by rw [Body.isEnded, held]; rfl), ?_⟩
    rw [Body.pieces, Body.isEnded, held, Body.close_ended held]
    rfl
  | some around =>
    cases waiting : caller.document.unfinished with
    | none =>
      have ran := Body.run_close recorded.unlimited waiting held
      refine .inl ⟨by rw [Body.isEnded, held]; rfl, rfl, by rw [verdict, ran], ?_⟩
      rw [Body.pieces, ran, Body.isEnded, held]
      rfl
    | some pending =>
      refine .inr ⟨.inr (Option.some_ne_none _), ?_⟩
      rw [Body.pieces, Body.run_close_waiting waiting held]

theorem moves_of_takes (recorded : Recorded serialization caller) (keeps : call.KeepsSink)
    (takes : caller.Takes call heard next) :
    Recorded serialization next ∧ caller.outline.Moves call heard next.outline := by
  have unlimited := recorded.unlimited
  have unchanged : Adds caller.document [] caller.document := .refl unlimited
  have stays {call : Call} {heard : Except Error Unit} {document : Document} {added : List Piece}
      (same : document.unfinished = caller.document.unfinished) (quiet : Quiet added) :
      caller.outline.Moves call heard
        ⟨document.unfinished, caller.handles, caller.pieces ++ added⟩ := by
    rw [same]
    exact .stays quiet
  cases takes with
  | @write place call here single =>
    obtain ⟨same, adds⟩ := call.onePiece single place unlimited
    exact ⟨recorded.becomes adds _, stays same (.other _)⟩
  | adjust here change =>
    have changed : Adds caller.document []
        (finalState change.perform caller.document) :=
      unchanged.of_sink rfl rfl
    exact ⟨recorded.becomes changed _, stays rfl .nil⟩
  | detach here => exact keeps.elim
  | replaceSink here sink => exact ⟨recorded.replaceSink keeps, stays rfl (.other _)⟩
  | top here =>
    refine ⟨recorded.becomes unchanged _, ?_⟩
    rw [outline_becomes, List.append_nil]
    refine .top fun element start outer front => ?_
    have held : caller.handles = .tag element start :: outer := front
    rw [place?, held] at here
    cases here
  | @started place tag start document here ran =>
    obtain ⟨rfl, model, idle, waits, adds⟩ := started_moves unlimited ran
    refine ⟨recorded.becomes adds _, ?_⟩
    rw [outline_becomes, waits]
    exact .started idle ⟨_, model⟩
  | refused here ran =>
    cases refused_same unlimited ran
    exact ⟨recorded.becomes unchanged _, stays rfl .nil⟩
  | @added element start next outer requested document front ran =>
    obtain ⟨same, adds⟩ := StartTag.add_onePiece unlimited (by rw [finalState, ran])
    refine ⟨recorded.becomes adds _, ?_⟩
    rw [outline_becomes, same]
    exact .attributed front (start.add_same requested ran) (.other _)
  | @rejected element start outer requested error document front ran =>
    obtain ⟨same, adds⟩ := StartTag.add_onePiece unlimited (by rw [finalState, ran])
    refine ⟨recorded.becomes adds _, ?_⟩
    rw [outline_becomes, same]
    exact .letGo front (.other _) fun _ _ other => by cases other
  | @finish element start outer front ending =>
    exact ⟨recorded.becomes (ending.finish_adds unlimited start element) _,
      finish_moves recorded front ending⟩
  | @opened element start outer body document front ran =>
    have opens := start.openBody_adds unlimited element
    rw [ran] at opens
    obtain ⟨of, idle, adds⟩ := opens
    obtain ⟨solid, begun, -, -, entered⟩ := start.openBody_ok ran
    refine ⟨recorded.becomes adds _, ?_⟩
    rw [outline_becomes, idle]
    exact .opened front solid of (by rw [entered]) (by rw [entered]; rfl)
  | @unopened element start outer error document front ran =>
    have same := start.openBody_adds unlimited element
    rw [ran] at same
    cases same
    exact ⟨recorded.becomes unchanged _, .letGo front .nil fun _ _ other => by cases other⟩
  | @endBody element body outer front =>
    obtain ⟨same, adds⟩ := body.close_adds unlimited element
    refine ⟨recorded.becomes adds _, ?_⟩
    rw [outline_becomes, same]
    obtain ⟨live, idle, ends, pieces⟩ | ⟨past, pieces⟩ := close_moves recorded element body
    · rw [pieces, ends, idle]
      exact .ended front live idle (.inl rfl)
    · rw [pieces, List.append_nil]
      exact .endedInVain front past
  | @dropBody element body outer front =>
    obtain ⟨same, adds⟩ := body.close_adds unlimited element
    refine ⟨recorded.becomes adds _, ?_⟩
    rw [outline_becomes, same]
    obtain ⟨live, idle, -, pieces⟩ | ⟨past, pieces⟩ := close_moves recorded element body
    · rw [pieces, idle]
      exact .ended front live idle (.inr rfl)
    · rw [pieces]
      refine .letGo front .nil ?_
      rintro element body ⟨⟩
      exact past.imp_right .inl
  | dropTop front | giveUp front =>
    exact ⟨recorded.becomes unchanged _, .letGo front .nil fun _ _ other => by cases other⟩
  | @abandon element body outer front =>
    obtain ⟨same, adds⟩ := body.abandon_adds unlimited
    refine ⟨recorded.becomes adds _, ?_⟩
    rw [outline_becomes, same]
    exact .letGo front .nil fun _ _ _ => .inr (.inr rfl)

/-- What the changes of outlines keep, a run over sinks that take everything keeps, and its
record is true. -/
theorem run_moves (invariant : Outline → Prop) (allowed : Call → Prop)
    (expected : Except Error Unit → Prop)
    (kept : ∀ {outline next call heard}, invariant outline → allowed call → expected heard →
      outline.Moves call heard next → invariant next)
    {sink : Sink} (takes : sink.Unlimited) {parameters : Parameters} {encoder : Encoder}
    {calls : List Call} {answers : List (Except Error Unit)}
    (ran : (start sink parameters encoder).run calls = some (answers, caller))
    (steady : ∀ call ∈ calls, call.KeepsSink ∧ allowed call)
    (answered : ∀ heard ∈ answers, expected heard)
    (holds : invariant (start sink parameters encoder).outline) :
    Recorded parameters.serialization caller ∧ invariant caller.outline :=
  run_keeps (fun caller => Recorded parameters.serialization caller ∧ invariant caller.outline)
    _ expected (fun holds allowed expected taken =>
      have next := moves_of_takes holds.1 allowed.1 taken
      ⟨next.1, kept holds.2 allowed.2 expected next.2⟩)
    ran steady answered ⟨recorded_start takes parameters encoder, holds⟩

end Caller
end HtmlWriter
