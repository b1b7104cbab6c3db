import HtmlWriter.Proofs.Tokens

/-! Text, start tags and end tags, written into a sink that takes everything. Each run agrees
with the check of the same piece of markup, and adds its text. -/

namespace HtmlWriter
open Writing

namespace Path

/-- The raw text that is remembered at the end of a path. -/
def suffix (serialization : Serialization) (path : Path) (before : String) : List Char :=
  match path.raw? serialization with
  | some tag => Text.lastBytes (Text.byteLength (endTagOpening tag) - 1) (Text.lowercase before)
  | none => []

theorem suffix_empty (serialization : Serialization) (path : Path) :
    path.suffix serialization "" = [] := by
  unfold suffix
  split
  · exact Text.lastBytes_nil _
  · rfl

end Path

theorem Agrees.refused {α : Type} {condition : Bool} {error : Error} {later : Except Error Unit}
    {good : α → Document → Prop} {next : Writing α} {document : Document}
    (rest : condition = false → Agrees later good (next.run document)) :
    Agrees (do refuse condition error; later) good
      ((if condition then (throw error : Writing Unit) >>= fun _ => next else next).run document) := by
  cases condition with
  | true => rfl
  | false => exact rest rfl

theorem lowercase_append (first second : String) :
    Text.lowercase (first ++ second) = Text.lowercase first ++ Text.lowercase second := by
  simp [Text.lowercase]

theorem run_rawText {document : Document} (unlimited : document.Unlimited) (tag : Tag)
    (content : String) :
    (rawText tag content).run document =
      if Text.occursIn (endTagOpening tag) (document.rawSuffix ++ Text.lowercase content) then
        .error (.invalidRawText tag) document
      else .ok () { document.wrote content with
        rawSuffix := Text.lastBytes (Text.byteLength (endTagOpening tag) - 1)
          (document.rawSuffix ++ Text.lowercase content) } := by
  have unfolded : (rawText tag content).run document =
      (if Text.occursIn (endTagOpening tag) (document.rawSuffix ++ Text.lowercase content) then
        throw (.invalidRawText tag)
      else do
        write content
        modify fun later => { later with
          rawSuffix := Text.lastBytes (Text.byteLength (endTagOpening tag) - 1)
            (document.rawSuffix ++ Text.lowercase content) } : Writing Unit).run document := by
    change (ite _ _ _ : Writing Unit).run document = _
    split <;> rfl
  rw [unfolded]
  split
  · rfl
  · rw [run_write_bind unlimited]
    rfl

/-- Raw text is judged by what is remembered as it would be by all text in the element. -/
private theorem rawText_agrees {document : Document} {tag : Tag} {before : String}
    (unlimited : document.Unlimited)
    (suffix : document.rawSuffix =
      Text.lastBytes (Text.byteLength (endTagOpening tag) - 1) (Text.lowercase before))
    (whole : Text.occursIn (endTagOpening tag) (Text.lowercase before) = false)
    (content : String) :
    Agrees (refuse (Text.occursIn (endTagOpening tag) (Text.lowercase (before ++ content)))
        (.invalidRawText tag))
      (fun _ final => final = { document.wrote content with
        rawSuffix := Text.lastBytes (Text.byteLength (endTagOpening tag) - 1)
          (Text.lowercase (before ++ content)) })
      ((rawText tag content).run document) := by
  rw [run_rawText unlimited, lowercase_append, suffix, Text.occursIn_lastBytes_append whole,
    Text.lastBytes_lastBytes_append]
  cases Text.occursIn (endTagOpening tag) (Text.lowercase before ++ Text.lowercase content) with
  | true => rfl
  | false => exact ⟨rfl, rfl⟩

theorem textInside_of_raw? {serialization : Serialization} {path : Path} (content : String)
    {document : Document} (same : document.serialization = serialization) :
    (textInside path.head? content).run document =
      (match path.raw? serialization with
        | some tag => rawText tag content
        | none => encodedText content).run document := by
  subst same
  cases path with
  | nil => rfl
  | cons tag around =>
    change (if tag.isRaw document.serialization then rawText tag content
      else encodedText content : Writing Unit).run document = _
    unfold Path.raw?
    rw [List.head?_cons, Option.filter_some]
    split <;> rfl

theorem markup_text_of_raw? (encoder : Encoder) (serialization : Serialization) (path : Path)
    (content : String) :
    (Token.text path.head? content).markup encoder serialization =
      match path.raw? serialization with
      | some _ => content
      | none => encoder.text serialization content := by
  cases path with
  | nil => rfl
  | cons tag around =>
    change (if tag.isRaw serialization then content else encoder.text serialization content) = _
    rw [Path.raw?, List.head?_cons, Option.filter_some]
    split <;> rfl

theorem textInside_agrees {document : Document} {path : Path} {before : String}
    (unlimited : document.Unlimited)
    (suffix : document.rawSuffix = path.suffix document.serialization before)
    (whole : path.checkRaw document.serialization before "" = .ok ()) (content : String) :
    Agrees (path.checkRaw document.serialization before content)
      (fun _ final => final =
        { document.wrote
            ((Token.text path.head? content).markup document.encoder document.serialization) with
          rawSuffix := path.suffix document.serialization (before ++ content) })
      ((textInside path.head? content).run document) := by
  rw [textInside_of_raw? content rfl, markup_text_of_raw?]
  unfold Path.checkRaw Path.suffix at *
  cases raw : path.raw? document.serialization with
  | some tag =>
    simp only [raw] at suffix whole ⊢
    have absent : Text.occursIn (endTagOpening tag) (Text.lowercase before) = false := by
      rw [String.append_empty] at whole
      cases found : Text.occursIn (endTagOpening tag) (Text.lowercase before) with
      | true =>
        rw [found] at whole
        cases whole
      | false => rfl
    exact rawText_agrees unlimited suffix absent content
  | none =>
    simp only [raw] at suffix ⊢
    have written : (encodedText content).run document =
        .ok () (document.wrote (document.encoder.text document.serialization content)) :=
      run_write unlimited _
    rw [written]
    refine ⟨rfl, ?_⟩
    rw [← suffix]
    rfl

private theorem run_beginTag {document : Document} (unlimited : document.Unlimited) (tag : Tag) :
    (beginTag tag (tag.isNamespaced document.serialization)).run document =
      .ok () { document.wrote (tag.opening document.serialization) with unfinished := some tag } := by
  unfold beginTag Tag.opening
  cases tag.isNamespaced document.serialization with
  | false =>
    rw [if_neg Bool.false_ne_true, if_neg Bool.false_ne_true, String.append_empty,
      run_write_write unlimited, run_write_bind unlimited]
    rfl
  | true =>
    simp only [if_true, run_write_write unlimited, run_write_bind unlimited, String.append_assoc]
    rfl

def Document.begun (document : Document) (tag : Tag) (text : String) : Document :=
  { document.wrote ((document.format.leadGap tag).text ++ text) with unfinished := some tag }

theorem run_element {document : Document} (unlimited : document.Unlimited)
    (idle : document.unfinished = none) (place : Place) (tag : Tag) :
    (place.element tag).run document =
      match place.check document tag with
      | .ok () => .ok {
          tag
          model := tag.definition.content.inside place.model
          names := if tag.isNamespaced document.serialization then ["xmlns"] else [] }
          (document.begun tag (tag.opening document.serialization))
      | .error error => .error error document := by
  rw [Place.element_eq, run_refuseInTag_bind idle]
  change ((MonadExcept.ofExcept (place.check document tag) >>= fun _ => do
    lead tag
    beginTag tag (tag.isNamespaced document.serialization)
    pure _ : Writing StartTag).run document) = _
  cases place.check document tag with
  | error error => rfl
  | ok value =>
    change ((lead tag >>= fun _ => _ : Writing StartTag).run document) = _
    rw [run_bind_ok (run_lead unlimited idle tag)]
    have begins := run_beginTag (unlimited.wrote (document.format.leadGap tag).text) tag
    rw [Document.serialization_wrote, Document.wrote_wrote] at begins
    rw [run_bind_ok begins]
    rfl

/-- A start tag to which the names were given, in the case they were written in. -/
def Path.startTag (path : Path) (tag : Tag) (used : List String) : StartTag where
  tag := tag
  model := Path.model (tag :: path)
  names := used.map Text.toLowercase

private theorem element_agrees {document : Document} {path : Path} (unlimited : document.Unlimited)
    (idle : document.unfinished = none) (excluded : document.exclusions = path.exclusions)
    (tag : Tag) :
    Agrees (path.check document.doctype tag)
      (fun start final => start = path.startTag tag (tag.ownNames document.serialization) ∧
        final = document.begun tag (tag.opening document.serialization))
      ((path.place.element tag).run document) := by
  have names : (tag.ownNames document.serialization).map Text.toLowercase =
      if tag.isNamespaced document.serialization then ["xmlns"] else [] := by
    unfold Tag.ownNames
    split
    · decide
    · rfl
  rw [run_element unlimited idle, path.place_check excluded]
  cases path.check document.doctype tag with
  | error error => rfl
  | ok value =>
    rw [Path.startTag, names]
    exact ⟨rfl, rfl, rfl⟩

private theorem contains_names (path : Path) (tag : Tag) (used : List String) (name : String) :
    (path.startTag tag used).names.contains (Text.toLowercase name) =
      used.any fun other => Text.lowercase other == Text.lowercase name := by
  rw [Path.startTag, List.contains_eq_any_beq, List.any_map]
  congr
  funext other
  rw [Bool.eq_iff_iff]
  simp only [Function.comp_apply, beq_iff_eq, Text.toLowercase, String.ofList_inj]
  exact eq_comm

private theorem addCustom_agrees {document : Document} (unlimited : document.Unlimited)
    (path : Path)
    (tag : Tag) (used : List String) (entry : String × String) :
    Agrees (do
        refuse (!AttributeName.isValid document.serialization entry.1) (.invalidAttributeName entry.1)
        refuse (used.any fun other => Text.lowercase other == Text.lowercase entry.1)
          (.duplicateAttribute entry.1 tag))
      (fun start final => start = path.startTag tag (entry.1 :: used) ∧
        final = document.wrote (document.encoder.attribute document.serialization entry))
      (((path.startTag tag used).add (.custom entry.1 entry.2)).run document) := by
  obtain ⟨name, value⟩ := entry
  change Agrees _ _ (((MonadExcept.ofExcept (do
      TagContext.checkName ⟨tag, document.serialization, document.doctype⟩ name
      return Emission.valued name value) : Writing Emission) >>=
        (path.startTag tag used).emit).run document)
  rw [TagContext.checkName]
  cases AttributeName.isValid document.serialization name with
  | false => rfl
  | true =>
    change Agrees (refuse _ _) _ (((path.startTag tag used).emit (.valued name value)).run document)
    rw [StartTag.emit, StartTag.claimName, contains_names]
    cases used.any fun other => Text.lowercase other == Text.lowercase name with
    | true => rfl
    | false =>
      change Agrees _ _ ((do
        write " "
        write name
        write "=\""
        write (document.encoder.value document.serialization value)
        write "\""
        pure _ : Writing StartTag).run document)
      simp only [run_write_write unlimited, run_write_bind unlimited]
      exact ⟨rfl, rfl, rfl⟩

private theorem addAll_agrees {document : Document} (unlimited : document.Unlimited) (path : Path)
    (tag : Tag) (used : List String) (attributes : List (String × String)) :
    Agrees (tag.checkAttributes document.serialization used attributes)
      (fun start final => (∃ names, start = path.startTag tag names) ∧
        final = document.wrote
          (String.join (attributes.map (document.encoder.attribute document.serialization))))
      (((path.startTag tag used).addAll
        (attributes.map fun entry => .custom entry.1 entry.2)).run document) := by
  induction attributes generalizing document used with
  | nil => exact ⟨rfl, ⟨used, rfl⟩, document.wrote_empty.symm⟩
  | cons entry rest ih =>
    rw [StartTag.addAll, List.map_cons, Tag.checkAttributes, ← bind_assoc]
    change Agrees _ _ (((path.startTag tag used).add (.custom entry.1 entry.2) >>= fun start =>
      start.addAll (rest.map fun entry => .custom entry.1 entry.2)).run document)
    refine (addCustom_agrees unlimited path tag used entry).bind fun start written holds => ?_
    obtain ⟨rfl, rfl⟩ := holds
    have later := ih (unlimited.wrote (document.encoder.attribute document.serialization entry))
      (entry.1 :: used)
    rw [Document.serialization_wrote, Document.encoder_wrote, Document.wrote_wrote] at later
    rwa [String.join_cons]

theorem startTag_agrees {document : Document} {path : Path} (unlimited : document.Unlimited)
    (idle : document.unfinished = none) (excluded : document.exclusions = path.exclusions)
    (tag : Tag) (attributes : List (String × String)) :
    Agrees (do
        path.check document.doctype tag
        tag.checkAttributes document.serialization (tag.ownNames document.serialization) attributes)
      (fun start final => (∃ names, start = path.startTag tag names) ∧
        final = document.begun tag
          (document.encoder.unfinishedTag document.serialization tag attributes))
      ((do
        let start ← path.place.element tag
        start.addAll (attributes.map fun entry : String × String => .custom entry.1 entry.2)).run
          document) := by
  refine (element_agrees unlimited idle excluded tag).bind fun start begun holds => ?_
  obtain ⟨rfl, rfl⟩ := holds
  have waiting : (document.begun tag (tag.opening document.serialization)).Unlimited :=
    (unlimited.wrote _).of_sink rfl
  refine (addAll_agrees waiting path tag _ attributes).mono fun start final holds => ⟨holds.1, ?_⟩
  rw [holds.2]
  change { (document.wrote _).wrote _ with unfinished := some tag } = _
  rw [Document.wrote_wrote, String.append_assoc]
  rfl

private theorem Document.idle_eq (document : Document) (idle : document.unfinished = none) :
    { document with unfinished := none } = document := by
  rw [← idle]

theorem run_complete {document : Document} (unlimited : document.Unlimited)
    (idle : document.unfinished = none) (tag : Tag) (text mark : String) :
    (do
      write mark
      modify fun document => { document with unfinished := none } : Writing Unit).run
        (document.begun tag text) =
      .ok () (document.wrote ((document.format.leadGap tag).text ++ (text ++ mark))) := by
  have waiting : (document.begun tag text).Unlimited := (unlimited.wrote _).of_sink rfl
  rw [run_write_bind waiting, ← String.append_assoc, ← Document.wrote_wrote]
  exact congrArg (EStateM.Result.ok ()) (Document.idle_eq ((document.wrote _).wrote mark) idle)

theorem run_endTag {document : Document} (unlimited : document.Unlimited)
    (idle : document.unfinished = none) (tag : Tag) :
    (endTag tag).run document = .ok () { document.wrote tag.closing with rawSuffix := [] } := by
  rw [endTag, run_refuseInTag_bind idle]
  simp only [run_write_write unlimited, run_write_bind unlimited]
  rfl

end HtmlWriter
