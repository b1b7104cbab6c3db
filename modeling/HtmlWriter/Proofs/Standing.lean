import HtmlWriter.Proofs.Printing

/-! What stands while content is written: syntax, document type, encoder, formatting
settings and the exclusions of open elements. Writing never changes any of it, at whatever
byte the sink fails; entering a body does, and leaving the body puts it back. -/

namespace HtmlWriter
variable {α : Type}

/-- What content is checked against and encoded by. -/
structure Rules where
  serialization : Serialization
  doctype : Doctype
  encoder : Encoder
  exclusions : List (Tag × Exclusion)

/-- What decides how content is written, apart from what was written before. -/
structure Standing extends Rules where
  settings : FormatSettings

def Document.rules (document : Document) : Rules where
  serialization := document.serialization
  doctype := document.doctype
  encoder := document.encoder
  exclusions := document.exclusions

def Document.standing (document : Document) : Standing where
  toRules := document.rules
  settings := document.format.toFormatSettings

@[simp] theorem Format.toFormatSettings_after (format : Format) (written : String) :
    (format.after written).toFormatSettings = format.toFormatSettings := by
  unfold Format.after
  split <;> rfl

theorem FormatSettings.toNat_depth_deeper (settings : FormatSettings) :
    settings.deeper.depth.toNat = min (settings.depth.toNat + 1) largestDepth.toNat := by
  have bound : settings.depth.toNat < UInt64.size := settings.depth.toNat_lt
  have most : largestDepth.toNat = UInt64.size - 1 := rfl
  cases can : settings.canDeepen with
  | true =>
    have smaller : settings.depth.toNat ≠ largestDepth.toNat := by
      rwa [canDeepen, bne_iff_ne, ne_eq, ← UInt64.toNat_inj] at can
    have next : (settings.depth + 1).toNat = (settings.depth.toNat + 1) % UInt64.size :=
      UInt64.toNat_add _ _
    rw [deeper, can, if_pos rfl, next, Nat.mod_eq_of_lt (by omega)]
    omega
  | false =>
    have largest : settings.depth = largestDepth := by
      rwa [canDeepen, bne_eq_false_iff_eq] at can
    rw [deeper, can, if_neg Bool.false_ne_true, largest]
    rfl

/-- A check that fails ends the run; whether what follows it keeps a view does not depend
on the check. -/
theorem Keeps.guarded {ε σ ν : Type} {view : σ → ν} {condition : Prop} [Decidable condition]
    {error : ε} {rest : Action ε σ α} (kept : Keeps view rest) :
    Keeps view (if condition then (MonadExcept.throw error : Action ε σ Unit) >>= fun _ => rest
      else rest) :=
  .ite (.bind (.throw error) fun _ => kept) kept

theorem serialization_of_ok {ε : Type} {action : Action ε Document α}
    {document final : Document} {value : α} (kept : Keeps Document.standing action)
    (ran : action.run document = .ok value final) :
    final.serialization = document.serialization := by
  have same := kept.of_ok ran
  exact congrArg (·.serialization) same

theorem Prints.keepsStanding {kind : Char → Prop} {offset? : Option Int64}
    {action : Writing α} (prints : Prints kind offset? action) : Keeps Document.standing action :=
  prints.keeps fun _ _ _ => rfl

namespace Writing
open Document

theorem comment_keeps (text : String) : Keeps standing (comment text) :=
  .bind (refuseInTag_prints _).keepsStanding fun _ =>
    .guarded (.bind (indentFresh_prints 0).keepsStanding fun _ => (Prints.any _).keepsStanding)

theorem replaceSink_keeps (sink : Sink) : Keeps standing (replaceSink sink) :=
  .modifyGet fun _ => rfl

theorem detach_keeps : Keeps standing detach := .modifyGet fun _ => rfl

theorem rawText_keeps (tag : Tag) (text : String) : Keeps standing (rawText tag text) := by
  unfold rawText
  refine .bind .get fun document => ?_
  exact .guarded (.bind (Prints.any text).keepsStanding fun _ => .modify fun _ => rfl)

theorem textInside_keeps (parent : Option Tag) (text : String) :
    Keeps standing (textInside parent text) := by
  refine .bind .get fun document => ?_
  cases parent with
  | none => exact (encodedText_prints text).keepsStanding
  | some tag => exact .ite (rawText_keeps tag text) (encodedText_prints text).keepsStanding

theorem bracket_keeps : Keeps standing bracket :=
  .bind (Prints.any ">").keepsStanding fun _ => .modify fun _ => rfl

theorem endTag_keeps (tag : Tag) : Keeps standing (endTag tag) :=
  .bind (refuseInTag_prints _).keepsStanding fun _ => .bind (Prints.any _).keepsStanding fun _ =>
    .bind (Prints.any _).keepsStanding fun _ => .bind (Prints.any _).keepsStanding fun _ =>
      .modify fun _ => rfl

theorem endElement_keeps (tag : Tag) : Keeps standing (endElement tag) :=
  .bind (endTag_keeps tag) fun _ => (endLine_prints tag).keepsStanding

theorem beginTag_keeps (tag : Tag) (namespaced : Bool) :
    Keeps standing (beginTag tag namespaced) := by
  have waits : Keeps standing (modify fun document : Document =>
      { document with unfinished := some tag } : Writing Unit) := .modify fun _ => rfl
  unfold beginTag
  refine .bind (Prints.any _).keepsStanding fun _ => .bind (Prints.any _).keepsStanding fun _ =>
    .ite ?_ waits
  exact .bind (Prints.any _).keepsStanding fun _ => .bind (Prints.any _).keepsStanding fun _ =>
    .bind (Prints.any _).keepsStanding fun _ => waits

end Writing

open Document Writing

theorem Script.Adjustment.perform_keeps (change : Script.Adjustment) :
    Keeps rules change.perform :=
  .bind .get fun _ => .bind (.demand _) fun _ => .modify fun _ => rfl

theorem Place.text_keeps (place : Place) (content : String) :
    Keeps standing (place.text content) :=
  .bind (refuseInTag_prints _).keepsStanding fun _ => .guarded <|
    .ite (.bind (indentFresh_prints 0).keepsStanding fun _ => textInside_keeps _ _) (.pure _)

theorem Place.element_keeps (place : Place) (tag : Tag) : Keeps standing (place.element tag) := by
  rw [Place.element_eq]
  exact .bind (refuseInTag_prints _).keepsStanding fun _ => .bind .get fun _ =>
    .bind (.ofExcept _) fun _ => .bind (lead_prints tag).keepsStanding fun _ =>
      .bind (beginTag_keeps tag _) fun _ => .pure _

namespace StartTag

theorem emit_keeps (start : StartTag) (emission : Emission) :
    Keeps standing (start.emit emission) := by
  obtain ⟨claimed, next, -, same, prints⟩ := start.emit_eq emission
  rw [same]
  exact .bind (.ofExcept _) fun start => (prints start).keepsStanding

theorem add_keeps (start : StartTag) (requested : Attribute) :
    Keeps standing (start.add requested) :=
  .bind .get fun _ => .bind (.ofExcept _) fun _ => emit_keeps _ _

theorem addAll_keeps (start : StartTag) (requested : List Attribute) :
    Keeps standing (start.addAll requested) :=
  .foldlM add_keeps requested start

theorem close_keeps (start : StartTag) : Keeps standing start.close := by
  unfold close
  refine .ite ?_ (.bind bracket_keeps fun _ => endElement_keeps _)
  exact .bind .get fun _ => .bind (Prints.any _).keepsStanding fun _ =>
    .bind (.modify fun _ => rfl) fun _ => (endLine_prints _).keepsStanding

theorem text_keeps (start : StartTag) (content : String) : Keeps standing (start.text content) := by
  have written : Keeps standing (do
      bracket
      textInside (some start.tag) content
      endElement start.tag) :=
    .bind bracket_keeps fun _ => .bind (textInside_keeps _ _) fun _ => endElement_keeps _
  exact .guarded (.guarded written)

theorem textOption_keeps (start : StartTag) (content : Option String) :
    Keeps standing (start.textOption content) := by
  cases content with
  | some content => exact text_keeps start content
  | none => exact close_keeps start

end StartTag
end HtmlWriter
