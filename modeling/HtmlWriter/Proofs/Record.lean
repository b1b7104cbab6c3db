import HtmlWriter.Proofs.Additions
import HtmlWriter.Proofs.OpenElements
import HtmlWriter.Proofs.Rendering

/-! What callers write is the pieces in their record. Where sinks take everything and none is
taken away, what the sinks have taken is these pieces one after the other, with gaps that
formatting put between them. -/

namespace HtmlWriter
open Script Writing
variable {α β : Type}

def Piece.bytes (serialization : Serialization) : Piece → List UInt8
  | opening _ tag => utf8 (tag.opening serialization)
  | bracket _ tag => utf8 (if tag.definition.isVoid then serialization.selfClose else ">")
  | endTag _ tag => utf8 tag.closing
  | other bytes => bytes

/-- Bytes that are pieces of markup in this order, and gaps anywhere between them. -/
inductive Spelled (serialization : Serialization) : List Piece → List UInt8 → Prop
  | nil : Spelled serialization [] []
  | piece {pieces : List Piece} {bytes : List UInt8} (piece : Piece)
      (before : Spelled serialization pieces bytes) :
      Spelled serialization (pieces ++ [piece]) (bytes ++ piece.bytes serialization)
  | gap {pieces : List Piece} {bytes : List UInt8} (gap : Gap)
      (before : Spelled serialization pieces bytes) :
      Spelled serialization pieces (bytes ++ utf8 gap.text)

theorem Document.Unlimited.bytes_wrote {document : Document} (unlimited : document.Unlimited)
    (text : String) : (document.wrote text).bytes = document.bytes ++ utf8 text := by
  obtain ⟨sink, present, -⟩ := unlimited
  have held : document.contents = some sink.contents := by rw [contents, present]; rfl
  rw [bytes, bytes, contents_wrote held, held]
  rfl

/-- From a document to a later one these pieces were added, and gaps. -/
structure Adds (before : Document) (added : List Piece) (after : Document) : Prop where
  unlimited : after.Unlimited
  serialization : after.serialization = before.serialization
  spelled : ∀ {pieces bytes}, Spelled before.serialization pieces (bytes ++ before.bytes) →
    Spelled before.serialization (pieces ++ added) (bytes ++ after.bytes)

namespace Adds
variable {before middle after : Document} {first second : List Piece}

theorem refl (unlimited : before.Unlimited) : Adds before [] before :=
  ⟨unlimited, rfl, fun spelled => by rwa [List.append_nil]⟩

theorem trans (started : Adds before first middle) (rest : Adds middle second after) :
    Adds before (first ++ second) after where
  unlimited := rest.unlimited
  serialization := rest.serialization.trans started.serialization
  spelled spelled := by
    have next := started.spelled spelled
    rw [← started.serialization] at next
    rw [← List.append_assoc, ← started.serialization]
    exact rest.spelled next

theorem gap (unlimited : before.Unlimited) (gap : Gap) :
    Adds before [] (before.wrote gap.text) where
  unlimited := unlimited.wrote _
  serialization := rfl
  spelled spelled := by
    rw [List.append_nil, unlimited.bytes_wrote, ← List.append_assoc]
    exact .gap gap spelled

theorem piece (unlimited : before.Unlimited) (piece : Piece) (text : String)
    (same : piece.bytes before.serialization = utf8 text) :
    Adds before [piece] (before.wrote text) where
  unlimited := unlimited.wrote _
  serialization := rfl
  spelled spelled := by
    rw [unlimited.bytes_wrote, ← List.append_assoc, ← same]
    exact .piece piece spelled

theorem other (unlimited : before.Unlimited) (text : String) :
    Adds before [.other (utf8 text)] (before.wrote text) :=
  .piece unlimited _ text rfl

/-- The sink and the syntax are all that a record is about. -/
theorem of_sink (adds : Adds before first middle) (sink : after.sink = middle.sink)
    (serialization : after.serialization = middle.serialization) : Adds before first after where
  unlimited := adds.unlimited.of_sink sink
  serialization := serialization.trans adds.serialization
  spelled spelled := by
    rw [Document.bytes, Document.contents, sink]
    exact adds.spelled spelled

end Adds

/-- What a single call at a place writes, which is one piece of its own. -/
def OnePiece (before after : Document) : Prop :=
  after.unfinished = before.unfinished ∧ Adds before [.other (before.gained after)] after

private theorem OnePiece.of_wrote {before after : Document} (unlimited : before.Unlimited)
    (suffix : List Char) {text : String}
    (wrote : after = { before.wrote text with rawSuffix := suffix }) :
    OnePiece before after := by
  have gained : before.gained after = utf8 text := by
    rw [Document.gained, wrote]
    change ((before.wrote text).bytes).drop _ = _
    rw [unlimited.bytes_wrote, List.drop_left]
  rw [OnePiece, gained, wrote]
  exact ⟨rfl, (Adds.other unlimited text).of_sink rfl rfl⟩

theorem Appends.onePiece {kind : Char → Prop} {action : Writing α} (appends : Appends kind action)
    {document : Document} (unlimited : document.Unlimited) :
    OnePiece document (finalState action document) := by
  obtain ⟨text, -, final⟩ := appends unlimited
  exact .of_wrote unlimited document.rawSuffix final

theorem run_textInside {document : Document} (unlimited : document.Unlimited)
    (parent : Option Tag) (content : String) :
    (∃ suffix, (textInside parent content).run document = .ok () { document.wrote
        ((Token.text parent content).markup document.encoder document.serialization) with
          rawSuffix := suffix }) ∨
      ∃ tag, (textInside parent content).run document = .error (.invalidRawText tag) document := by
  obtain ⟨path, rfl⟩ : ∃ path : Path, path.head? = parent :=
    ⟨parent.toList, by cases parent <;> rfl⟩
  rw [textInside_of_raw? content rfl, markup_text_of_raw?]
  cases path.raw? document.serialization with
  | some tag =>
    simp only [run_rawText unlimited]
    split
    · exact .inr ⟨tag, rfl⟩
    · exact .inl ⟨_, rfl⟩
  | none =>
    have written : (encodedText content).run document =
        .ok () (document.wrote (document.encoder.text document.serialization content)) :=
      run_write unlimited _
    exact .inl ⟨document.rawSuffix, written⟩

theorem run_text {document : Document} (unlimited : document.Unlimited)
    (idle : document.unfinished = none) (place : Place) (content : String) :
    (place.text content).run document =
      if !place.model.allowsText then .error (.illegalNesting place.parent .text) document
      else if content.isEmpty then .ok () document
      else (textInside place.parent content).run
        (document.wrote document.format.indentGap.text) := by
  rw [Place.text, run_refuseInTag_bind idle]
  cases place.model.allowsText with
  | false => rfl
  | true =>
    cases content.isEmpty with
    | true => rfl
    | false => exact run_bind_ok (run_indentFresh unlimited idle) _

theorem finalState_text {document : Document} (unlimited : document.Unlimited) (place : Place)
    (content : String) :
    finalState (place.text content) document = document ∨
      finalState (place.text content) document = finalState (textInside place.parent content)
        (document.wrote document.format.indentGap.text) := by
  cases waiting : document.unfinished with
  | some pending =>
    rw [finalState, Place.text, Action.run_bind, run_refuseInTag_waiting waiting]
    exact .inl rfl
  | none =>
    have ran := run_text unlimited waiting place content
    rw [finalState, ran, finalState]
    cases place.model.allowsText with
    | false => exact .inl rfl
    | true =>
      cases content.isEmpty with
      | true => exact .inl rfl
      | false => exact .inr rfl

private theorem Place.text_onePiece {document : Document} (unlimited : document.Unlimited)
    (place : Place)
    (content : String) : OnePiece document (finalState (place.text content) document) := by
  rcases finalState_text unlimited place content with same | written
  · rw [same]
    exact .of_wrote unlimited document.rawSuffix document.wrote_empty.symm
  · rw [written, finalState]
    have indented := unlimited.wrote document.format.indentGap.text
    obtain ⟨suffix, written⟩ | ⟨tag, refused⟩ := run_textInside indented place.parent content
    · rw [written, Document.wrote_wrote]
      exact .of_wrote unlimited suffix rfl
    · rw [refused]
      exact .of_wrote unlimited document.rawSuffix rfl

theorem Script.WriteCall.onePiece {call : WriteCall} (single : call.isSingle) (place : Place)
    {document : Document} (unlimited : document.Unlimited) :
    OnePiece document (finalState (call.perform place) document) := by
  cases call with
  | text content => exact place.text_onePiece unlimited content
  | comment content => exact (comment_appends content).onePiece unlimited
  | node tree => cases single
  | _ => exact (perform_prints rfl place).appends.onePiece unlimited

theorem StartTag.add_onePiece {document final : Document} (unlimited : document.Unlimited)
    {start : StartTag} {requested : Attribute}
    (ended : finalState (start.add requested) document = final) : OnePiece document final :=
  ended ▸ (start.add_appends requested).onePiece unlimited

/-- The document after a start tag was finished by a mark. -/
def Document.finishedTag (document : Document) (mark : String) : Document :=
  { document.wrote mark with unfinished := none }

/-- The document after an end tag and what follows it. -/
def Document.endedTag (document : Document) (tag : Tag) : Document :=
  let ended : Document := { document.wrote tag.closing with rawSuffix := [] }
  ended.wrote (ended.format.endGap tag).text

section
variable {document : Document}

theorem run_bracket (unlimited : document.Unlimited) :
    bracket.run document = .ok () (document.finishedTag ">") :=
  run_write_bind unlimited _ _

theorem run_endElement (unlimited : document.Unlimited) (idle : document.unfinished = none)
    (tag : Tag) : (endElement tag).run document = .ok () (document.endedTag tag) := by
  rw [endElement, run_bind_ok (run_endTag unlimited idle tag)]
  have ended : ({ document.wrote tag.closing with rawSuffix := [] } : Document).Unlimited :=
    (unlimited.wrote _).of_sink rfl
  exact run_endLine ended idle tag

private theorem finishedTag_adds (unlimited : document.Unlimited) (element : Nat) (tag : Tag)
    (mark : String)
    (fits : mark = if tag.definition.isVoid then document.serialization.selfClose else ">") :
    Adds document [.bracket element tag] (document.finishedTag mark) := by
  have same : (Piece.bracket element tag).bytes document.serialization = utf8 mark := by
    rw [fits]
    rfl
  exact (Adds.piece unlimited _ mark same).of_sink rfl rfl

private theorem bracket_adds (unlimited : document.Unlimited) (element : Nat) {tag : Tag}
    (solid : tag.definition.isVoid = false) :
    Adds document [.bracket element tag] (document.finishedTag ">") :=
  finishedTag_adds unlimited element tag ">" (by rw [solid]; rfl)

private theorem endedTag_adds (unlimited : document.Unlimited) (element : Nat) (tag : Tag) :
    Adds document [.endTag element tag] (document.endedTag tag) := by
  have ended : Adds document [.endTag element tag]
      { document.wrote tag.closing with rawSuffix := [] } :=
    (Adds.piece unlimited _ tag.closing rfl).of_sink rfl rfl
  exact ended.trans (.gap ended.unlimited _)

end

namespace StartTag
variable {document : Document}

theorem close_adds (unlimited : document.Unlimited) (start : StartTag) (element : Nat) :
    ∃ final, start.close.run document = .ok () final ∧ final.unfinished = none ∧
      Adds document (start.closePieces element (.ok ())) final := by
  unfold close closePieces
  cases isVoid : start.tag.definition.isVoid with
  | true =>
    have marked := finishedTag_adds unlimited element start.tag
      document.serialization.selfClose (by rw [isVoid]; rfl)
    have ended := marked.trans (.gap marked.unlimited
      ((document.finishedTag document.serialization.selfClose).format.endGap start.tag))
    refine ⟨_, ?_, rfl, ended⟩
    exact (run_write_bind unlimited _ _).trans (run_endLine marked.unlimited rfl start.tag)
  | false =>
    have marked := bracket_adds unlimited element isVoid
    refine ⟨_, ?_, rfl, marked.trans (endedTag_adds marked.unlimited element start.tag)⟩
    exact (run_bind_ok (run_bracket unlimited) _).trans
      (run_endElement marked.unlimited rfl start.tag)

theorem text_adds (unlimited : document.Unlimited) (start : StartTag) (element : Nat)
    (content : String) :
    (start.tag.definition.isVoid = false ∧
      ∃ final, (start.text content).run document = .ok () final ∧ final.unfinished = none ∧
        Adds document (start.textPieces element document content (.ok ())) final) ∨
    (∃ error, (start.text content).run document = .error error document ∧
      start.textPieces element document content (.error error) = []) ∨
    (start.tag.definition.isVoid = false ∧
      ∃ tag, (start.text content).run document =
          .error (.invalidRawText tag) (document.finishedTag ">") ∧
        Adds document [.bracket element start.tag] (document.finishedTag ">")) := by
  cases isVoid : start.tag.definition.isVoid with
  | true => exact .inr (.inl ⟨_, by rw [text, isVoid]; rfl, rfl⟩)
  | false =>
    cases allowed : start.model.allowsText with
    | false => exact .inr (.inl ⟨_, by rw [text, isVoid, allowed]; rfl, rfl⟩)
    | true =>
      have marked := bracket_adds unlimited element isVoid
      have ran : (start.text content).run document =
          (do textInside (some start.tag) content; endElement start.tag : Writing Unit).run
            (document.finishedTag ">") := by
        rw [text, isVoid, allowed]
        exact run_bind_ok (run_bracket unlimited) _
      obtain ⟨suffix, written⟩ | ⟨tag, refused⟩ :=
        run_textInside marked.unlimited (some start.tag) content
      · let markup := (Token.text (some start.tag) content).markup document.encoder
          document.serialization
        have inside : Adds (document.finishedTag ">") [.other (utf8 markup)]
            { (document.finishedTag ">").wrote markup with rawSuffix := suffix } :=
          (Adds.other marked.unlimited markup).of_sink rfl rfl
        refine .inl ⟨rfl, _, ran.trans ((run_bind_ok written _).trans
          (run_endElement inside.unlimited rfl start.tag)), rfl, ?_⟩
        exact marked.trans (inside.trans (endedTag_adds inside.unlimited element start.tag))
      · refine .inr (.inr ⟨rfl, tag, ?_, marked⟩)
        rw [ran, Action.run_bind, refused]

theorem openBody_adds (unlimited : document.Unlimited) (start : StartTag) (element : Nat) :
    match start.openBody.run document with
    | .ok body final => body.tag = start.tag ∧ final.unfinished = none ∧
        Adds document [.bracket element body.tag] final
    | .error _ final => final = document := by
  rw [openBody_eq]
  cases isVoid : start.tag.definition.isVoid with
  | true => rfl
  | false =>
    have marked := bracket_adds unlimited element isVoid
    rw [if_neg Bool.false_ne_true, run_bind_ok (run_bracket unlimited),
      run_bind_ok (run_beginBody marked.unlimited rfl start.tag), run_bind_ok (run_enter _ _)]
    refine ⟨rfl, rfl, ?_⟩
    have begun := marked.trans (.gap marked.unlimited
      ((document.finishedTag ">").format.bodyGap start.tag))
    exact begun.of_sink rfl rfl

end StartTag

theorem Script.Ending.finish_adds {document : Document} (unlimited : document.Unlimited)
    (start : StartTag) (element : Nat) (ending : Ending) :
    Adds document (start.pieces element document ((ending.finish start).verdict document) ending)
      (finalState (ending.finish start) document) := by
  have closes : Adds document (start.closePieces element (start.close.verdict document))
      (finalState start.close document) := by
    obtain ⟨final, ran, -, adds⟩ := start.close_adds unlimited element
    rw [finalState, verdict, ran]
    exact adds
  have writes (content : String) : Adds document
      (start.textPieces element document content ((start.text content).verdict document))
      (finalState (start.text content) document) := by
    obtain ⟨-, final, ran, -, adds⟩ | ⟨error, ran, nothing⟩ | ⟨-, tag, ran, adds⟩ :=
      start.text_adds unlimited element content
    · rw [finalState, verdict, ran]
      exact adds
    · rw [finalState, verdict, ran]
      dsimp only
      rw [nothing]
      exact .refl unlimited
    · rw [finalState, verdict, ran]
      exact adds
  cases ending with
  | close => exact closes
  | text content => exact writes content
  | textOption content =>
    cases content with
    | none => exact closes
    | some content => exact writes content
  | giveUp => exact .refl unlimited

/-- The document after a body was left and its end tag written. -/
def Document.closed (document : Document) (tag : Tag) (around : Surroundings) : Document :=
  let left := document.left around
  let ended : Document :=
    { left.wrote ((left.format.closeGap tag).text ++ tag.closing) with rawSuffix := [] }
  ended.wrote (ended.format.endGap tag).text

namespace Body
variable {document : Document} {body : Body}

theorem run_close (unlimited : document.Unlimited) (idle : document.unfinished = none)
    {around : Surroundings} (held : body.around = some around) :
    body.close.run document = .ok () (document.closed body.tag around) := by
  have checked : (tryCatch (refuseInTag .endTag) fun error => do
      leave around
      throw error : Writing Unit).run document = .ok () document := by
    rw [Action.run_tryCatch, run_refuseInTag_idle idle]
  have ended : (document.left around).Unlimited := unlimited.of_sink rfl
  rw [close_eq held, run_bind_ok checked, run_bind_ok (run_endBody unlimited idle body.tag around)]
  exact run_endLine ((ended.wrote _).of_sink rfl) idle body.tag

private theorem closed_adds (unlimited : document.Unlimited) (element : Nat) (tag : Tag)
    (around : Surroundings) : Adds document [.endTag element tag] (document.closed tag around) := by
  have left : Adds document [] (document.left around) := (Adds.refl unlimited).of_sink rfl rfl
  have spaced := left.trans (.gap left.unlimited ((document.left around).format.closeGap tag))
  have ended := spaced.trans (.piece spaced.unlimited (.endTag element tag) tag.closing rfl)
  rw [Document.wrote_wrote] at ended
  have cleared : Adds document [.endTag element tag] { (document.left around).wrote
      (((document.left around).format.closeGap tag).text ++ tag.closing) with rawSuffix := [] } :=
    ended.of_sink rfl rfl
  exact cleared.trans (.gap cleared.unlimited _)

theorem run_close_waiting {pending : Tag} (waiting : document.unfinished = some pending)
    {around : Surroundings} (held : body.around = some around) :
    body.close.run document = .error (.tagInProgress pending .endTag) (document.left around) := by
  rw [close_eq held, Action.run_bind, Action.run_tryCatch, run_refuseInTag_waiting waiting]
  rfl

theorem close_adds (unlimited : document.Unlimited) (body : Body) (element : Nat) :
    (finalState body.close document).unfinished = document.unfinished ∧
      Adds document (body.pieces element document) (finalState body.close document) := by
  cases held : body.around with
  | none =>
    rw [pieces, isEnded, held, close_ended held]
    exact ⟨rfl, .refl unlimited⟩
  | some around =>
    cases waiting : document.unfinished with
    | none =>
      rw [pieces, finalState, run_close unlimited waiting held, isEnded, held]
      exact ⟨waiting, closed_adds unlimited element body.tag around⟩
    | some pending =>
      have ran := run_close_waiting waiting held
      rw [pieces, finalState, ran]
      exact ⟨waiting, (Adds.refl unlimited).of_sink rfl rfl⟩

theorem abandon_adds (unlimited : document.Unlimited) (body : Body) :
    (finalState body.abandon document).unfinished = document.unfinished ∧
      Adds document [] (finalState body.abandon document) := by
  unfold abandon
  split
  · exact ⟨rfl, .refl unlimited⟩
  · exact ⟨rfl, (Adds.refl unlimited).of_sink rfl rfl⟩

end Body
end HtmlWriter
