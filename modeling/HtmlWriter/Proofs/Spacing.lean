import HtmlWriter.Proofs.Newlines

/-! What is written automatically. It is what would not be written with automatic newlines off, so
every action is compared with the same action in a document where they are off. What the first
writes is what the second writes, with gaps anywhere in between; and a gap breaks a line only where
one has not just started. -/

namespace HtmlWriter
open Writing
variable {α β γ δ : Type}

/-- The settings with automatic newlines off. Nothing is indented automatically then either. -/
def FormatSettings.plain (settings : FormatSettings) : FormatSettings :=
  { settings with autoNewline := false }

def Document.plain (document : Document) : Document :=
  { document with format := document.format.set document.format.toFormatSettings.plain }

def Surroundings.plain (around : Surroundings) : Surroundings :=
  { around with settings := around.settings.plain }

def Body.plain (body : Body) : Body := { body with around := body.around.map Surroundings.plain }

/-- What is written after these bytes is what would be written plainly, with gaps, none of which
breaks a line that has just started. -/
inductive Gapped (before : List UInt8) : List UInt8 → List UInt8 → Prop
  | nil : Gapped before [] []
  | text {plain written : List UInt8} (gapped : Gapped before plain written) (bytes : List UInt8) :
      Gapped before (plain ++ bytes) (written ++ bytes)
  | gap {plain written : List UInt8} (gapped : Gapped before plain written) (gap : Gap)
      (fits : gap.newline → ¬AtLineStart (before ++ written)) :
      Gapped before plain (written ++ utf8 gap.text)

/-- Documents at the same point of what is written, where the second writes plainly. -/
structure Beside (origin : Sink) (before : List UInt8) (document plain : Document) : Prop where
  rest : plain = { document with sink := plain.sink, format := plain.format }
  settings : plain.format.toFormatSettings = document.format.toFormatSettings.plain
  gapped : ∃ bytes written, Gapped before bytes written ∧
    document.sink = some (origin.filled written) ∧ plain.sink = some (origin.filled bytes) ∧
    (document.format.atNewline = true ↔ AtLineStart (before ++ written))

/-- Runs that end alike at the same point of what is written. -/
inductive EndsBeside (origin : Sink) (before : List UInt8) (related : α → β → Prop) :
    EStateM.Result Error Document α → EStateM.Result Error Document β → Prop
  | ok {value : α} {other : β} {document plain : Document} (holds : related value other)
      (beside : Beside origin before document plain) :
      EndsBeside origin before related (.ok value document) (.ok other plain)
  | error {error : Error} {document plain : Document}
      (beside : Beside origin before document plain) :
      EndsBeside origin before related (.error error document) (.error error plain)

/-- Actions that write the same, the first with gaps in it. -/
def RunsBeside (related : α → β → Prop) (action : Writing α) (plainly : Writing β) : Prop :=
  ∀ ⦃origin : Sink⦄ ⦃before document plain⦄, origin.Accepts → Beside origin before document plain →
    EndsBeside origin before related (action.run document) (plainly.run plain)

namespace Beside
variable {origin : Sink} {before : List UInt8} {document plain : Document}

theorem exclusions (beside : Beside origin before document plain) :
    plain.exclusions = document.exclusions := by
  rw [beside.rest]

theorem start (present : document.sink = some origin)
    (line : document.format.atNewline = true ↔ AtLineStart before) :
    Beside origin before document document.plain where
  rest := rfl
  settings := rfl
  gapped := by
    refine ⟨[], [], .nil, ?_, ?_, by rwa [List.append_nil]⟩
    all_goals rw [Sink.filled_nil]; exact present

theorem set (beside : Beside origin before document plain) (settings : FormatSettings)
    {exclusions others : List (Tag × Exclusion)} (same : others = exclusions) :
    Beside origin before
      { document with format := document.format.set settings, exclusions, rawSuffix := [] }
      { plain with
        format := plain.format.set settings.plain, exclusions := others, rawSuffix := [] } := by
  obtain ⟨rest, -, gapped⟩ := beside
  exact ⟨by rw [rest, same], rfl, gapped⟩

end Beside

theorem EndsBeside.final {origin : Sink} {before : List UInt8} {related : α → β → Prop}
    {action : Writing α} {plainly : Writing β} {document plain : Document}
    (ends : EndsBeside origin before related (action.run document) (plainly.run plain)) :
    Beside origin before (finalState action document) (finalState plainly plain) := by
  rw [finalState, finalState]
  generalize action.run document = result at ends
  generalize plainly.run plain = outcome at ends
  cases ends with
  | ok holds beside => exact beside
  | error beside => exact beside

namespace RunsBeside

theorem pure {related : α → β → Prop} {value : α} {other : β} (holds : related value other) :
    RunsBeside related (pure value : Writing α) (pure other) :=
  fun _ _ _ _ _ beside => .ok holds beside

theorem throw {related : α → β → Prop} (error : Error) :
    RunsBeside related (throw error : Writing α) (throw error) :=
  fun _ _ _ _ _ beside => .error beside

theorem demand (fits other : Bool) :
    RunsBeside Eq (Action.demand fits : Writing Unit) (Action.demand other) :=
  fun _ _ _ _ _ beside => .ok rfl beside

theorem bind {related : α → β → Prop} {later : γ → δ → Prop} {first : Writing α}
    {other : Writing β} {next : α → Writing γ} {after : β → Writing δ}
    (started : RunsBeside related first other)
    (rest : ∀ value result, related value result → RunsBeside later (next value) (after result)) :
    RunsBeside later (first >>= next) (other >>= after) := by
  intro origin before document plain accepts beside
  have ends := started accepts beside
  rw [Action.run_bind, Action.run_bind]
  generalize first.run document = result at ends
  generalize other.run plain = plainly at ends
  cases ends with
  | ok holds beside => exact rest _ _ holds accepts beside
  | error beside => exact .error beside

theorem andThen {later : γ → δ → Prop} {first : Writing α} {next : α → Writing γ}
    {after : α → Writing δ} (started : RunsBeside Eq first first)
    (rest : ∀ value, RunsBeside later (next value) (after value)) :
    RunsBeside later (first >>= next) (first >>= after) :=
  started.bind fun value _ same => same ▸ rest value

theorem ite {related : α → β → Prop} {condition : Prop} [Decidable condition]
    {yes no : Writing α} {other none : Writing β} (first : RunsBeside related yes other)
    (second : RunsBeside related no none) :
    RunsBeside related (if condition then yes else no) (if condition then other else none) := by
  split
  · exact first
  · exact second

theorem ofExcept (verdict : Except Error α) :
    RunsBeside Eq (MonadExcept.ofExcept verdict : Writing α) (MonadExcept.ofExcept verdict) := by
  cases verdict with
  | ok value => exact .pure rfl
  | error error => exact .throw error

theorem guarded {condition : Prop} [Decidable condition] {error : Error} {rest : Writing α}
    (continues : RunsBeside Eq rest rest) :
    RunsBeside Eq (if condition then (MonadExcept.throw error : Writing Unit) >>= fun _ => rest
      else rest) (if condition then (MonadExcept.throw error : Writing Unit) >>= fun _ => rest
      else rest) :=
  .ite (.andThen (.throw error) fun _ => continues) continues

/-- What is read of a document may be anything but the sink, automatic newlines, and where the line
starts. -/
theorem read {related : α → α → Prop} {next : Document → Writing α}
    (blind : ∀ document sink autoNewline atNewline, next { document with
      sink, format := { document.format with autoNewline, atNewline } } = next document)
    (rest : ∀ document, RunsBeside related (next document) (next document)) :
    RunsBeside related ((get : Writing Document) >>= next) ((get : Writing Document) >>= next) := by
  intro origin before document plain accepts beside
  have same : next plain = next document := by
    have other : plain.format = { document.format with
        autoNewline := false, atNewline := plain.format.atNewline } :=
      congrArg (fun settings => { plain.format with toFormatSettings := settings }) beside.settings
    rw [beside.rest, other]
    exact blind document _ _ _
  change EndsBeside origin before related ((next document).run document) ((next plain).run plain)
  rw [same]
  exact rest document accepts beside

theorem modify {change : Document → Document}
    (blind : ∀ document sink format, change { document with sink, format } =
      { change document with sink, format }) :
    RunsBeside Eq (modify change : Writing Unit) (modify change) := by
  intro origin before document plain accepts beside
  obtain ⟨rest, settings, gapped⟩ := beside
  have same : change document =
      { change document with sink := document.sink, format := document.format } :=
    blind document document.sink document.format
  have other : change plain = { change document with sink := plain.sink, format := plain.format } := by
    rw [rest]
    exact blind document _ _
  change EndsBeside origin before Eq (.ok () (change document)) (.ok () (change plain))
  refine .ok rfl ⟨?_, ?_, ?_⟩
  · rw [other]
  · rw [other, same]
    exact settings
  · rw [other, same]
    exact gapped

theorem write (text : String) : RunsBeside Eq (write text) (write text) := by
  intro origin before document plain accepts beside
  obtain ⟨rest, settings, bytes, written, gapped, present, plainly, line⟩ := beside
  rw [run_write_of_sink present, run_write_of_sink plainly, (accepts.filled _).writeAll_eq,
    (accepts.filled _).writeAll_eq, Sink.filled_filled, Sink.filled_filled]
  refine .ok rfl ⟨by rw [rest], ?_, _, _, gapped.text (utf8 text), rfl, rfl, ?_⟩
  · rw [Format.toFormatSettings_after, Format.toFormatSettings_after, settings]
  · rw [← List.append_assoc]
    exact Format.atNewline_after line text

theorem tryCatch {related : α → β → Prop} {action : Writing α} {plainly : Writing β}
    {tidy other : Writing Unit} (tried : RunsBeside related action plainly)
    (tidied : RunsBeside Eq tidy other) :
    RunsBeside related (tryCatch action fun error => do tidy; MonadExcept.throw error)
      (tryCatch plainly fun error => do other; MonadExcept.throw error) := by
  intro origin before document plain accepts beside
  have ends := tried accepts beside
  rw [Action.run_tryCatch, Action.run_tryCatch]
  generalize action.run document = result at ends
  generalize plainly.run plain = outcome at ends
  cases ends with
  | ok holds beside => exact .ok holds beside
  | @error error _ _ beside =>
    have passed : RunsBeside related (do tidy; MonadExcept.throw error)
        (do other; MonadExcept.throw error) := tidied.bind fun _ _ _ => .throw error
    exact passed accepts beside

end RunsBeside

theorem EndsBeside.gap {origin : Sink} {before : List UInt8} {document plain : Document}
    (accepts : origin.Accepts) (beside : Beside origin before document plain) (gap : Gap)
    (fits : gap.newline → document.format.atNewline = false) :
    EndsBeside origin before Eq ((write gap.text).run document)
      ((pure () : Writing Unit).run plain) := by
  obtain ⟨rest, settings, bytes, written, gapped, present, plainly, line⟩ := beside
  rw [run_write_of_sink present, (accepts.filled _).writeAll_eq, Sink.filled_filled]
  refine .ok rfl ⟨by rw [rest], ?_, _, _, gapped.gap gap ?_, rfl, plainly, ?_⟩
  · rw [Format.toFormatSettings_after, settings]
  · intro breaks start
    rw [fits breaks] at line
    exact Bool.false_ne_true (line.mpr start)
  · rw [← List.append_assoc]
    exact Format.atNewline_after line gap.text

/-- An action that writes the same with gaps, whatever it returns. -/
abbrev Steady (action : Writing α) : Prop := RunsBeside Eq action action

namespace Writing

theorem refuseInTag_steady (attempt : Attempt) : Steady (refuseInTag attempt) := by
  refine .read (fun _ _ _ _ => rfl) fun document => ?_
  split
  · exact .throw _
  · exact .pure rfl

theorem indentUnits_steady (count : Nat) : Steady (indentUnits count) :=
  .andThen (.demand _ _) fun _ => .ite (.write _) (.pure rfl)

theorem indentUnits_gap {origin : Sink} {before : List UInt8} {document plain : Document}
    (accepts : origin.Accepts) (beside : Beside origin before document plain) (count : Nat) :
    EndsBeside origin before Eq ((indentUnits count).run document)
      ((pure () : Writing Unit).run plain) := by
  rw [indentUnits, run_bind_ok (Action.run_demand _ _)]
  split
  · have units : String.ofList (List.replicate count Format.indentUnit) = Gap.text ⟨false, count⟩ := by
      rw [Gap.text, if_neg Bool.false_ne_true, String.empty_append]
    rw [units]
    exact .gap accepts beside _ fun breaks => absurd breaks Bool.false_ne_true
  · exact .ok rfl beside

theorem freshLine_steady : Steady freshLine := by
  refine .andThen (refuseInTag_steady _) fun _ => ?_
  intro origin before document plain accepts beside
  have off : plain.format.wantsBreak = false := by
    rw [Format.wantsBreak, beside.settings]
    rfl
  change EndsBeside origin before Eq
    ((if document.format.wantsBreak then write "\n" else pure () : Writing Unit).run document)
    ((if plain.format.wantsBreak then write "\n" else pure () : Writing Unit).run plain)
  rw [off]
  -- Plainly no line is broken here, so a line break is a gap.
  split
  case isTrue wanted =>
    have line := (document.format.breakGap_fits).breaks wanted
    exact .gap accepts beside ⟨true, 0⟩ fun _ => line
  case isFalse => exact .ok rfl beside

theorem automatic_steady (offset : Int64) (wanted : Format → Bool)
    (off : ∀ format : Format, format.autoNewline = false → wanted format = false) :
    Steady (do
      let format := (← get : Document).format
      if wanted format then indentUnits (format.indentation offset)) := by
  intro origin before document plain accepts beside
  have off : wanted plain.format = false := off _ (by rw [beside.settings]; rfl)
  change EndsBeside origin before Eq
    ((if wanted document.format then indentUnits (document.format.indentation offset)
      else pure () : Writing Unit).run document)
    ((if wanted plain.format then indentUnits (plain.format.indentation offset)
      else pure () : Writing Unit).run plain)
  rw [off]
  split
  · exact indentUnits_gap accepts beside _
  · exact .ok rfl beside

theorem freshIndentedLine_steady (offset : Int64) : Steady (freshIndentedLine offset) :=
  .andThen freshLine_steady fun _ => automatic_steady offset Format.wantsIndent fun format off => by
    rw [Format.wantsIndent, off, Bool.false_and]

theorem indentFresh_steady (offset : Int64) : Steady (indentFresh offset) :=
  .andThen (refuseInTag_steady _) fun _ =>
    automatic_steady offset (fun format => format.wantsIndent && format.atNewline) fun format off => by
      rw [Format.wantsIndent, off, Bool.false_and, Bool.false_and]

theorem newline_steady : Steady newline :=
  .andThen (refuseInTag_steady _) fun _ => .write _

theorem indent_steady (offset : Int64) : Steady (indent offset) :=
  .andThen (refuseInTag_steady _) fun _ => .read (fun _ _ _ _ => rfl) fun _ =>
    .ite (indentUnits_steady _) (.pure rfl)

theorem newlineIndent_steady (offset : Int64) : Steady (newlineIndent offset) :=
  .andThen newline_steady fun _ => indent_steady offset

theorem space_steady : Steady space :=
  .andThen (refuseInTag_steady _) fun _ => .write _

theorem raw_steady (markup : String) : Steady (raw markup) :=
  .andThen (refuseInTag_steady _) fun _ => .write _

theorem comment_steady (text : String) : Steady (comment text) :=
  .andThen (refuseInTag_steady _) fun _ =>
    .guarded (.andThen (indentFresh_steady 0) fun _ => .write _)

theorem xmlDeclaration_steady : Steady xmlDeclaration :=
  .andThen (refuseInTag_steady _) fun _ => .read (fun _ _ _ _ => rfl) fun _ =>
    .ite (.write _) (.pure rfl)

theorem doctypeDeclaration_steady : Steady doctypeDeclaration := by
  refine .andThen (refuseInTag_steady _) fun _ => .read (fun _ _ _ _ => rfl) fun document => ?_
  split
  · exact .andThen (.write _) fun _ => .write _
  · exact .pure rfl

theorem textInside_steady (parent : Option Tag) (text : String) :
    Steady (textInside parent text) := by
  have encoded : Steady (encodedText text) := .read (fun _ _ _ _ => rfl) fun _ => .write _
  have raw (tag : Tag) : Steady (rawText tag text) :=
    .read (fun _ _ _ _ => rfl) fun _ =>
      .guarded (.andThen (.write text) fun _ => .modify fun _ _ _ => rfl)
  refine .read (fun _ _ _ _ => rfl) fun document => ?_
  cases parent with
  | none => exact encoded
  | some tag => exact .ite (raw tag) encoded

theorem bracket_steady : Steady bracket :=
  .andThen (.write _) fun _ => .modify fun _ _ _ => rfl

theorem endTag_steady (tag : Tag) : Steady (endTag tag) :=
  .andThen (refuseInTag_steady _) fun _ => .andThen (.write _) fun _ => .andThen (.write _) fun _ =>
    .andThen (.write _) fun _ => .modify fun _ _ _ => rfl

theorem endLine_steady (tag : Tag) : Steady (endLine tag) := by
  unfold endLine
  split
  all_goals first | exact freshLine_steady | exact .pure rfl

theorem endElement_steady (tag : Tag) : Steady (endElement tag) :=
  .andThen (endTag_steady tag) fun _ => endLine_steady tag

theorem lead_steady (tag : Tag) : Steady (lead tag) := by
  unfold lead
  split
  all_goals first | exact indentFresh_steady 0 | exact freshIndentedLine_steady 0

theorem beginTag_steady (tag : Tag) (namespaced : Bool) : Steady (beginTag tag namespaced) := by
  have waits : Steady (modify fun document : Document =>
      { document with unfinished := some tag } : Writing Unit) := .modify fun _ _ _ => rfl
  unfold beginTag
  refine .andThen (.write _) fun _ => .andThen (.write _) fun _ => .ite ?_ waits
  exact .andThen (.write _) fun _ => .andThen (.write _) fun _ => .andThen (.write _) fun _ => waits

theorem beginBody_steady (tag : Tag) : Steady (beginBody tag) :=
  .ite freshLine_steady (.pure rfl)

theorem enter_beside (tag : Tag) :
    RunsBeside (fun around plain => plain = around.plain) (enter tag) (enter tag) := by
  intro origin before document plain accepts beside
  have within : plain.format.toFormatSettings.within tag.definition.layout =
      (document.format.toFormatSettings.within tag.definition.layout).plain := by
    rw [beside.settings]
    cases tag.definition.layout <;> rfl
  have around : (⟨plain.format.toFormatSettings, plain.exclusions.length⟩ : Surroundings) =
      Surroundings.plain ⟨document.format.toFormatSettings, document.exclusions.length⟩ := by
    rw [beside.settings, beside.exclusions]
    rfl
  rw [run_enter, run_enter]
  refine .ok around ?_
  rw [Document.entered, Document.entered, within]
  exact beside.set _ (by rw [beside.exclusions])

theorem leave_beside (around : Surroundings) :
    RunsBeside Eq (leave around) (leave around.plain) := by
  intro origin before document plain accepts beside
  have same : plain.exclusions.drop (plain.exclusions.length - around.plain.exclusions) =
      document.exclusions.drop (document.exclusions.length - around.exclusions) := by
    rw [beside.exclusions]
    rfl
  exact .ok rfl (beside.set around.settings same)

theorem endBody_beside (tag : Tag) (around : Surroundings) :
    RunsBeside Eq (endBody tag around) (endBody tag around.plain) := by
  unfold endBody
  split
  · rw [tryFinally_eq, tryFinally_eq]
    exact (RunsBeside.tryCatch (endTag_steady tag) (leave_beside around)).bind
      fun _ _ _ => leave_beside around
  all_goals
    refine (leave_beside around).bind fun _ _ _ => ?_
    first
    | exact .andThen (freshIndentedLine_steady 0) fun _ => endTag_steady tag
    | exact .andThen (indentFresh_steady 0) fun _ => endTag_steady tag

end Writing

theorem Place.text_steady (place : Place) (content : String) : Steady (place.text content) :=
  .andThen (refuseInTag_steady _) fun _ => .guarded <|
    .ite (.andThen (indentFresh_steady 0) fun _ => textInside_steady _ _) (.pure rfl)

theorem Place.element_steady (place : Place) (tag : Tag) : Steady (place.element tag) := by
  rw [Place.element_eq]
  exact .andThen (refuseInTag_steady _) fun _ => .read (fun _ _ _ _ => rfl) fun _ =>
    .andThen (.ofExcept _) fun _ => .andThen (lead_steady tag) fun _ =>
    .andThen (beginTag_steady tag _) fun _ => .pure rfl

namespace StartTag

theorem emit_steady (start : StartTag) (emission : Emission) : Steady (start.emit emission) := by
  unfold emit
  cases emission with
  | nothing => exact .pure rfl
  | valued name value =>
    exact .andThen (.ofExcept _) fun _ => .read (fun _ _ _ _ => rfl) fun _ =>
      .andThen (.write _) fun _ => .andThen (.write _) fun _ => .andThen (.write _) fun _ =>
      .andThen (.write _) fun _ => .andThen (.write _) fun _ => .pure rfl
  | flag name =>
    refine .andThen (.ofExcept _) fun _ => .andThen (.write _) fun _ => .andThen (.write _) fun _ =>
      .read (fun _ _ _ _ => rfl) fun _ => .ite ?_ (.pure rfl)
    exact .andThen (.write _) fun _ => .andThen (.write _) fun _ => .andThen (.write _) fun _ =>
      .pure rfl

theorem add_steady (start : StartTag) (requested : Attribute) : Steady (start.add requested) :=
  .read (fun _ _ _ _ => rfl) fun _ => .andThen (.ofExcept _) fun _ => emit_steady _ _

theorem close_steady (start : StartTag) : Steady start.close := by
  unfold close
  refine .ite ?_ (.andThen bracket_steady fun _ => endElement_steady _)
  exact .read (fun _ _ _ _ => rfl) fun _ => .andThen (.write _) fun _ =>
    .andThen (.modify fun _ _ _ => rfl) fun _ => endLine_steady _

theorem text_steady (start : StartTag) (content : String) : Steady (start.text content) := by
  have written : Steady (do
      bracket
      textInside (some start.tag) content
      endElement start.tag) :=
    .andThen bracket_steady fun _ => .andThen (textInside_steady _ _) fun _ => endElement_steady _
  exact .guarded (.guarded written)

theorem openBody_beside (start : StartTag) :
    RunsBeside (fun body plain => plain = body.plain) start.openBody start.openBody := by
  rw [openBody_eq]
  refine .ite (.throw _) (.andThen bracket_steady fun _ => .andThen (beginBody_steady _) fun _ => ?_)
  refine (enter_beside start.tag).bind fun around plain same => .pure ?_
  rw [same]
  rfl

end StartTag

theorem Script.Ending.finish_steady (start : StartTag) (ending : Script.Ending) :
    Steady (ending.finish start) := by
  cases ending with
  | close => exact start.close_steady
  | text content => exact start.text_steady content
  | textOption content =>
    cases content with
    | some content => exact start.text_steady content
    | none => exact start.close_steady
  | giveUp => exact .pure rfl

namespace Body

theorem close_beside (body : Body) : RunsBeside Eq body.close body.plain.close := by
  cases held : body.around with
  | none =>
    have plain : body.plain.around = none := by rw [Body.plain, held]; rfl
    rw [close_ended held, close_ended plain]
    exact .pure rfl
  | some around =>
    have plain : body.plain.around = some around.plain := by rw [Body.plain, held]; rfl
    rw [close_eq held, close_eq plain]
    refine (RunsBeside.tryCatch (refuseInTag_steady _) (leave_beside around)).bind fun _ _ _ => ?_
    exact (endBody_beside body.tag around).bind fun _ _ _ => endLine_steady body.tag

theorem abandon_beside (body : Body) : RunsBeside Eq body.abandon body.plain.abandon := by
  unfold abandon Body.plain
  cases body.around with
  | none => exact .pure rfl
  | some around => exact leave_beside around

end Body

theorem Script.WriteCall.perform_steady {call : WriteCall} (single : call.isSingle)
    (place : Place) :
    Steady (call.perform place) := by
  cases call with
  | text content => exact place.text_steady content
  | raw markup => exact raw_steady markup
  | comment content => exact comment_steady content
  | newline => exact newline_steady
  | space => exact space_steady
  | newlineIndent offset => exact newlineIndent_steady offset
  | indent offset => exact indent_steady offset
  | freshLine => exact freshLine_steady
  | freshIndentedLine offset => exact freshIndentedLine_steady offset
  | indentFresh offset => exact indentFresh_steady offset
  | xmlDeclaration => exact xmlDeclaration_steady
  | doctypeDeclaration => exact doctypeDeclaration_steady
  | node tree => cases single

end HtmlWriter
