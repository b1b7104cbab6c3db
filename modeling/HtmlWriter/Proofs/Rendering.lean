import HtmlWriter.Proofs.Pieces

/-! Writing a tree into a sink that takes everything. A run agrees with the check of the
tree, and adds the tree's tokens. The invariant is what is known of a document between two
pieces of markup; a body is entered with one standing and left with the other. -/

namespace HtmlWriter
open Writing

/-- What stands inside the body of an element. -/
def Standing.inside (standing : Standing) (tag : Tag) : Standing :=
  { standing with
    exclusions := tag.ownExclusions ++ standing.exclusions
    settings := standing.settings.within tag.definition.layout }

/-- What stands fits the open elements, and newlines are not automatic where no gap is
allowed. -/
structure Standing.Suits (standing : Standing) (path : Path) (tight : Bool) : Prop where
  exclusions : standing.exclusions = path.exclusions
  plain : tight → standing.settings.autoNewline = false
  empties : standing.encoder.text standing.serialization "" = ""

theorem Standing.Suits.inside {standing : Standing} {path : Path} {tight : Bool}
    (suits : standing.Suits path tight) (tag : Tag) :
    (standing.inside tag).Suits (tag :: path) (tight || tag.definition.layout == .verbatim) := by
  refine ⟨?_, fun held => ?_, suits.empties⟩
  · rw [Path.exclusions_cons, ← suits.exclusions]
    rfl
  · rw [Bool.or_eq_true, beq_iff_eq] at held
    unfold Standing.inside FormatSettings.within
    cases layout : tag.definition.layout with
    | verbatim => rfl
    | _ =>
      rw [layout] at held
      exact suits.plain (held.resolve_right nofun)

/-- What is known of a document between two pieces of markup: what stands, the text in the
element so far as it is remembered, and the tokens so far. -/
structure At (standing : Standing) (path : Path) (before : String) (tight : Bool)
    (tokens : List Placed) (document : Document) : Prop where
  stands : document.standing = standing
  unlimited : document.Unlimited
  idle : document.unfinished = none
  suffix : document.rawSuffix = path.suffix document.serialization before
  whole : path.checkRaw document.serialization before "" = .ok ()
  laid : Laid tight document tokens

namespace At
variable {standing : Standing} {path : Path} {before : String} {tight : Bool}
  {tokens : List Placed} {document : Document}

theorem serialization (here : At standing path before tight tokens document) :
    document.serialization = standing.serialization := by
  rw [← here.stands]
  rfl

theorem encoder (here : At standing path before tight tokens document) :
    document.encoder = standing.encoder := by
  rw [← here.stands]
  rfl

theorem tied (here : At standing path before tight tokens document)
    (suits : standing.Suits path tight) {gap : Gap} (fits : gap.Fits document.format)
    (held : tight) : gap = .empty := by
  refine fits.plain ?_
  rw [← suits.plain held, ← here.stands]
  rfl

theorem token (here : At standing path before tight tokens document)
    (suits : standing.Suits path tight) {gap : Gap} (fits : gap.Fits document.format)
    (token : Token) (next : Bool) :
    Laid next (document.wrote
        (gap.text ++ token.markup standing.encoder standing.serialization))
      (tokens ++ [⟨token, tight⟩]) := by
  rw [← here.serialization, ← here.encoder]
  exact here.laid.token fits.breaks (here.tied suits fits) token next

theorem line (here : At standing path before tight tokens document)
    (suits : standing.Suits path tight) {gap : Gap} (fits : gap.Fits document.format)
    (tabs : gap.tabs = 0) : At standing path before tight tokens (document.wrote gap.text) where
  stands := (document.standing_wrote _).trans here.stands
  unlimited := here.unlimited.wrote _
  idle := here.idle
  suffix := here.suffix
  whole := here.whole
  laid := here.laid.line tabs fits.breaks (here.tied suits fits)

end At

private theorem Path.checkRaw_append (serialization : Serialization) (path : Path)
    (before content : String) :
    path.checkRaw serialization (before ++ content) "" =
      path.checkRaw serialization before content := by
  simp only [checkRaw, String.append_empty]

theorem Path.checkRaw_empty (serialization : Serialization) (path : Path) :
    path.checkRaw serialization "" "" = .ok () := by
  unfold checkRaw
  split <;> rfl

section
variable {standing : Standing} {path : Path} {before : String} {tight : Bool}
  {tokens : List Placed} {document : Document}

private theorem text_agrees (here : At standing path before tight tokens document)
    (suits : standing.Suits path tight) (content : String) :
    Agrees (path.checkText standing.serialization before content)
      (fun _ => At standing path (before ++ content) tight
        (tokens ++ (Node.text content).tokens path.head? tight))
      ((path.place.text content).run document) := by
  rw [Place.text, run_refuseInTag_bind here.idle, Path.checkText, ← path.model_allowsText]
  refine Agrees.refused fun _ => ?_
  cases isEmpty : content.isEmpty with
  | true =>
    obtain rfl : content = "" := String.isEmpty_iff.mp isEmpty
    rw [← here.serialization]
    refine ⟨here.whole, ?_⟩
    rw [String.append_empty, Node.tokens, isEmpty, if_pos rfl, List.append_nil]
    exact here
  | false =>
    change Agrees _ _ ((indentFresh 0 >>= fun _ => textInside path.head? content).run document)
    rw [run_bind_ok (run_indentFresh here.unlimited here.idle)]
    have written := textInside_agrees (here.unlimited.wrote document.format.indentGap.text)
      here.suffix here.whole content
    rw [Document.serialization_wrote, Document.encoder_wrote, Document.wrote_wrote,
      here.serialization, here.encoder] at written
    refine written.passed.mono fun _ final holds => ?_
    obtain ⟨judged, rfl⟩ := holds
    have laid := here.token suits document.format.indentGap_fits (.text path.head? content) tight
    rw [Node.tokens, isEmpty, if_neg Bool.false_ne_true]
    refine ⟨(document.standing_wrote _).trans here.stands, (here.unlimited.wrote _).of_sink rfl,
      here.idle, ?_, ?_, laid.congr rfl rfl rfl rfl⟩
    · change _ = path.suffix document.serialization _
      rw [here.serialization]
    · change path.checkRaw document.serialization _ _ = _
      rw [here.serialization, Path.checkRaw_append]
      exact judged

private theorem comment_agrees (here : At standing path before tight tokens document)
    (suits : standing.Suits path tight) (content : String) :
    Agrees (refuse (!Node.isWholeComment content) (.invalidComment content))
      (fun _ => At standing path before tight
        (tokens ++ (Node.comment content).tokens path.head? tight))
      ((comment content).run document) := by
  rw [comment, run_refuseInTag_bind here.idle, Node.isComment_eq_isWholeComment]
  rw [show refuse (!Node.isWholeComment content) (.invalidComment content) = (do
      refuse (!Node.isWholeComment content) (.invalidComment content)
      .ok ()) from (bind_pure _).symm]
  refine Agrees.refused fun _ => ?_
  rw [run_bind_ok (run_indentFresh here.unlimited here.idle), run_write (here.unlimited.wrote _),
    Document.wrote_wrote, Node.tokens]
  refine ⟨rfl, (document.standing_wrote _).trans here.stands, here.unlimited.wrote _, here.idle,
    here.suffix, here.whole, ?_⟩
  exact here.token suits document.format.indentGap_fits (.comment content) tight

/-- After an end tag nothing of the text is remembered, and nothing has to be: an element
stands only where text is encoded. -/
private theorem endTag_at {left : Document} {inside : Bool} (stands : left.standing = standing)
    (unlimited : left.Unlimited) (idle : left.unfinished = none)
    (encoded : path.raw? standing.serialization = none) (laid : Laid inside left tokens)
    {gap : Gap} (fits : gap.Fits left.format) (tied : inside → gap = .empty) (tag : Tag) :
    At standing path before tight (tokens ++ [⟨.endTag tag, inside⟩])
      { left.wrote (gap.text ++ tag.closing) with rawSuffix := [] } := by
  have serialization : left.serialization = standing.serialization := by
    rw [← stands]
    rfl
  refine ⟨(left.standing_wrote _).trans stands, (unlimited.wrote _).of_sink rfl, idle, ?_, ?_,
    (laid.token fits.breaks tied (.endTag tag) tight).congr rfl rfl rfl rfl⟩
  · change [] = path.suffix left.serialization before
    rw [serialization, Path.suffix, encoded]
  · change path.checkRaw left.serialization before "" = _
    rw [serialization, Path.checkRaw, encoded]

private theorem endLine_at (here : At standing path before tight tokens document)
    (suits : standing.Suits path tight) (tag : Tag) :
    ∃ final, (endLine tag).run document = .ok () final ∧
      At standing path before tight tokens final :=
  ⟨_, run_endLine here.unlimited here.idle tag,
    here.line suits (document.format.endGap_fits tag) (document.format.tabs_endGap tag)⟩

private theorem endElement_at {left : Document} {inside : Bool} (stands : left.standing = standing)
    (unlimited : left.Unlimited) (idle : left.unfinished = none)
    (encoded : path.raw? standing.serialization = none) (laid : Laid inside left tokens)
    (suits : standing.Suits path tight) (tag : Tag) :
    ∃ final, (endElement tag).run left = .ok () final ∧
      At standing path before tight (tokens ++ [⟨.endTag tag, inside⟩]) final := by
  rw [endElement, run_bind_ok (run_endTag unlimited idle tag)]
  refine endLine_at ?_ suits tag
  have ended : At standing path before tight _ _ :=
    endTag_at stands unlimited idle encoded laid (Gap.empty_fits _) (fun _ => rfl) tag
  rwa [Gap.text_empty, String.empty_append] at ended

def Document.left (document : Document) (around : Surroundings) : Document :=
  { document with
    format := document.format.set around.settings
    exclusions := document.exclusions.drop (document.exclusions.length - around.exclusions)
    rawSuffix := [] }

private theorem run_tryFinally_ok {written leaving : Writing Unit}
    {document middle final : Document}
    (ran : written.run document = .ok () middle) (left : leaving.run middle = .ok () final) :
    (tryFinally written leaving).run document = .ok () final := by
  rw [tryFinally_eq, Action.run_bind, Action.run_tryCatch, ran]
  exact left

theorem Format.set_after (format : Format) (written : String) (settings : FormatSettings) :
    (format.after written).set settings = (format.set settings).after written := by
  unfold Format.after
  split <;> rfl

/-- The end tag stands in the verbatim region, and outside of any other. Either way it is as
if it were written after the body was left. -/
theorem run_endBody (unlimited : document.Unlimited) (idle : document.unfinished = none)
    (tag : Tag) (around : Surroundings) :
    (endBody tag around).run document = .ok () { (document.left around).wrote
      (((document.left around).format.closeGap tag).text ++ tag.closing) with rawSuffix := [] } := by
  have outside : (document.left around).Unlimited := unlimited.of_sink rfl
  have left : (leave around).run document = .ok () (document.left around) := rfl
  unfold endBody Format.closeGap
  cases tag.definition.layout with
  | verbatim =>
    refine run_tryFinally_ok (run_endTag unlimited idle tag) ?_
    change EStateM.Result.ok () { document.wrote tag.closing with
      format := (document.format.after tag.closing).set around.settings
      exclusions := (document.left around).exclusions
      rawSuffix := [] } = _
    rw [Format.set_after, Gap.text_empty, String.empty_append]
    rfl
  | block | root =>
    dsimp only
    rw [run_bind_ok left, run_bind_ok (run_freshIndentedLine outside idle),
      run_endTag (outside.wrote _) idle, Document.wrote_wrote]
  | inline | lineBreak =>
    dsimp only
    rw [run_bind_ok left, run_bind_ok (run_indentFresh outside idle),
      run_endTag (outside.wrote _) idle, Document.wrote_wrote]

/-- What was saved when the body was entered brings back what stood around it. -/
theorem left_standing {inner : Document} {tag : Tag}
    (within : inner.standing = standing.inside tag) :
    (inner.left ⟨standing.settings, standing.exclusions.length⟩).standing = standing :=
  leave_putsBack ⟨rfl, rfl, tag.ownExclusions, congrArg Standing.toRules within⟩

private theorem close_at {inner : Document} {tag : Tag} {body : Body} {text : String}
    (held : body.around = some ⟨standing.settings, standing.exclusions.length⟩)
    (of : body.tag = tag)
    (here : At (standing.inside tag) (tag :: path) text
      (tight || tag.definition.layout == .verbatim) tokens inner)
    (suits : standing.Suits path tight) (encoded : path.raw? standing.serialization = none) :
    ∃ final, body.close.run inner = .ok () final ∧ At standing path before tight
      (tokens ++ [⟨.endTag tag, tight || tag.definition.layout == .verbatim⟩]) final := by
  have checked : (tryCatch (refuseInTag .endTag) fun error => do
      leave ⟨standing.settings, standing.exclusions.length⟩
      throw error : Writing Unit).run inner = .ok () inner := by
    rw [Action.run_tryCatch, run_refuseInTag_idle here.idle]
  rw [Body.close_eq held, run_bind_ok checked, of,
    run_bind_ok (run_endBody here.unlimited here.idle tag _)]
  refine endLine_at (endTag_at (left_standing here.stands) (here.unlimited.of_sink rfl) here.idle
    encoded (here.laid.congr rfl rfl rfl rfl) (Format.closeGap_fits _ tag) (fun held => ?_) tag)
    suits tag
  rw [Bool.or_eq_true, beq_iff_eq] at held
  cases held with
  | inl tight => exact (Format.closeGap_fits _ tag).plain (suits.plain tight)
  | inr verbatim => rw [Format.closeGap, verbatim]

private theorem bracket_at (here : At standing path before tight tokens document)
    (suits : standing.Suits path tight) (tag : Tag) (attributes : List (String × String))
    (solid : tag.definition.isVoid = false) (next : Bool) :
    ∃ begun, bracket.run (document.begun tag
        (standing.encoder.unfinishedTag standing.serialization tag attributes)) = .ok () begun ∧
      begun.standing = standing ∧ begun.Unlimited ∧ begun.unfinished = none ∧
      begun.rawSuffix = path.suffix standing.serialization before ∧
      Laid next begun (tokens ++ [⟨.startTag tag attributes, tight⟩]) := by
  have laid := here.token suits (document.format.leadGap_fits tag) (.startTag tag attributes) next
  rw [Token.markup, Encoder.startTag, if_neg (ne_true_of_eq_false solid)] at laid
  exact ⟨_, run_complete here.unlimited here.idle tag _ ">",
    (document.standing_wrote _).trans here.stands, here.unlimited.wrote _, here.idle,
    here.serialization ▸ here.suffix, laid⟩

private theorem openBody_at (here : At standing path before tight tokens document)
    (suits : standing.Suits path tight) (tag : Tag) (names : List String)
    (attributes : List (String × String)) (solid : tag.definition.isVoid = false) :
    ∃ inner, (path.startTag tag names).openBody.run (document.begun tag
        (standing.encoder.unfinishedTag standing.serialization tag attributes)) =
      .ok { tag, place := Path.place (tag :: path),
            around := some ⟨standing.settings, standing.exclusions.length⟩ } inner ∧
      At (standing.inside tag) (tag :: path) "" (tight || tag.definition.layout == .verbatim)
        (tokens ++ [⟨.startTag tag attributes, tight⟩]) inner := by
  obtain ⟨begun, completed, stands, started, idle, -, laid⟩ :=
    bracket_at here suits tag attributes solid (tight || tag.definition.layout == .verbatim)
  rw [StartTag.openBody_eq, Path.startTag, if_neg (ne_true_of_eq_false solid),
    run_bind_ok completed]
  have tied (held : (tight || tag.definition.layout == .verbatim) = true) :
      begun.format.bodyGap tag = .empty := by
    rw [Bool.or_eq_true, beq_iff_eq] at held
    cases held with
    | inl tight =>
      refine (begun.format.bodyGap_fits tag).plain ?_
      rw [← suits.plain tight, ← stands]
      rfl
    | inr verbatim =>
      rw [Format.bodyGap, verbatim]
      rfl
  rw [run_bind_ok (run_beginBody started idle tag), run_bind_ok (run_enter tag _)]
  have again := (begun.standing_wrote (begun.format.bodyGap tag).text).trans stands
  refine ⟨(begun.wrote (begun.format.bodyGap tag).text).entered tag, ?_,
    congrArg (·.inside tag) again, (started.wrote _).of_sink rfl, idle, ?_, ?_,
    (laid.line (begun.format.tabs_bodyGap tag) (begun.format.bodyGap_fits tag).breaks tied).congr
      rfl rfl rfl rfl⟩
  · rw [← again]
    rfl
  · exact (Path.suffix_empty _ _).symm
  · exact Path.checkRaw_empty _ _

theorem run_close_void {document : Document} (unlimited : document.Unlimited)
    (idle : document.unfinished = none) {tag : Tag} (isVoid : tag.definition.isVoid = true)
    (path : Path) (names : List String) (text : String) :
    (path.startTag tag names).close.run (document.begun tag text) =
      (endLine tag).run (document.wrote ((document.format.leadGap tag).text ++
        (text ++ document.serialization.selfClose))) := by
  have unfolded : (path.startTag tag names).close = (do
      let document ← get
      (do write document.serialization.selfClose
          modify fun document => { document with unfinished := none } : Writing Unit)
      endLine tag) := by
    rw [StartTag.close, Path.startTag, if_pos isVoid]
    simp only [bind_assoc]
  rw [unfolded]
  exact run_bind_ok (run_complete unlimited idle tag text document.serialization.selfClose) _

private theorem close_childless_at (here : At standing path before tight tokens document)
    (suits : standing.Suits path tight) (encoded : path.raw? standing.serialization = none)
    (tag : Tag) (names : List String) (attributes : List (String × String)) :
    ∃ final, (path.startTag tag names).close.run (document.begun tag
        (standing.encoder.unfinishedTag standing.serialization tag attributes)) = .ok () final ∧
      At standing path before tight
        (tokens ++ (Node.element tag attributes []).tokens path.head? tight) final := by
  cases isVoid : tag.definition.isVoid with
  | true =>
    have laid := here.token suits (document.format.leadGap_fits tag) (.startTag tag attributes) tight
    rw [Token.markup, Encoder.startTag, if_pos isVoid] at laid
    have written : At standing path before tight (tokens ++ [⟨.startTag tag attributes, tight⟩]) _ :=
      ⟨(document.standing_wrote _).trans here.stands, here.unlimited.wrote _, here.idle, here.suffix,
        here.whole, laid⟩
    rw [run_close_void here.unlimited here.idle isVoid, here.serialization, Node.tokens, if_pos isVoid]
    exact endLine_at written suits tag
  | false =>
    obtain ⟨begun, completed, stands, started, idle, -, laid⟩ :=
      bracket_at here suits tag attributes isVoid true
    have inside : (tight || tag.definition.layout == .verbatim || Node.isRun []) = true := by
      rw [Node.isRun, Bool.or_true]
    rw [StartTag.close, Path.startTag, if_neg (ne_true_of_eq_false isVoid),
      run_bind_ok completed, Node.tokens, if_neg (ne_true_of_eq_false isVoid), inside,
      Node.tokensAll, List.nil_append, List.append_cons]
    exact endElement_at stands started idle encoded laid suits tag

private theorem laid_text (suits : standing.Suits path tight) (laid : Laid true document tokens)
    (stands : document.standing = standing) (parent : Option Tag) (content : String) :
    Laid true (document.wrote
        ((Token.text parent content).markup standing.encoder standing.serialization))
      (tokens ++ (Node.text content).tokens parent true) := by
  have encoder : document.encoder = standing.encoder := by rw [← stands]; rfl
  have serialization : document.serialization = standing.serialization := by rw [← stands]; rfl
  rw [Node.tokens]
  cases isEmpty : content.isEmpty with
  | true =>
    obtain rfl : content = "" := String.isEmpty_iff.mp isEmpty
    have nothing : (Token.text parent "").markup standing.encoder standing.serialization = "" := by
      rw [Token.markup, suits.empties, ite_self]
    rwa [nothing, document.wrote_empty, if_pos rfl, List.append_nil]
  | false =>
    have written : Laid true (document.wrote (Gap.empty.text ++ _)) _ :=
      laid.token (Gap.empty_fits _).breaks (fun _ => rfl) (.text parent content) true
    rwa [encoder, serialization, Gap.text_empty, String.empty_append] at written

private theorem text_at (here : At standing path before tight tokens document)
    (suits : standing.Suits path tight) (encoded : path.raw? standing.serialization = none)
    (tag : Tag) (names : List String) (attributes : List (String × String))
    (solid : tag.definition.isVoid = false) (content : String) :
    Agrees (Path.checkText standing.serialization (tag :: path) "" content)
      (fun _ => At standing path before tight
        (tokens ++ (Node.element tag attributes [.text content]).tokens path.head? tight))
      (((path.startTag tag names).text content).run (document.begun tag
        (standing.encoder.unfinishedTag standing.serialization tag attributes))) := by
  obtain ⟨begun, completed, stands, started, idle, suffix, laid⟩ :=
    bracket_at here suits tag attributes solid true
  have encoder : begun.encoder = standing.encoder := by rw [← stands]; rfl
  have serialization : begun.serialization = standing.serialization := by rw [← stands]; rfl
  have inside :
      (tight || tag.definition.layout == .verbatim || Node.isRun [.text content]) = true := by
    rw [Node.isRun, Bool.or_true]
  have forgotten : begun.rawSuffix = Path.suffix begun.serialization (tag :: path) "" := by
    rw [suffix, Path.suffix_empty, Path.suffix, encoded]
  have written := textInside_agrees started forgotten (Path.checkRaw_empty _ _) content
  rw [serialization, encoder] at written
  rw [StartTag.text, Path.startTag, if_neg (ne_true_of_eq_false solid), Path.checkText,
    ← Path.model_allowsText, Node.tokens, if_neg (ne_true_of_eq_false solid), inside,
    List.append_cons]
  refine Agrees.refused fun _ => ?_
  rw [run_bind_ok completed]
  refine written.bind_ok fun _ final holds => ?_
  subst holds
  rw [Node.tokensAll, Node.tokensAll, List.append_nil, ← List.append_assoc]
  refine ⟨(), endElement_at ?_ ?_ ?_ encoded ?_ suits tag⟩
  · exact (begun.standing_wrote _).trans stands
  · exact (started.wrote _).of_sink rfl
  · exact idle
  · exact (laid_text suits laid stands (some tag) content).congr rfl rfl rfl rfl

private theorem writeBody_at (here : At standing path before tight tokens document)
    (suits : standing.Suits path tight) (encoded : path.raw? standing.serialization = none)
    (tag : Tag) (names : List String) (attributes : List (String × String))
    (solid : tag.definition.isVoid = false) {verdict : Except Error Unit} {more : List Placed}
    {content : Place → Writing Unit}
    (written : ∀ inner, At (standing.inside tag) (tag :: path) ""
        (tight || tag.definition.layout == .verbatim)
        (tokens ++ [⟨.startTag tag attributes, tight⟩]) inner →
      Agrees verdict (fun _ final => ∃ text, At (standing.inside tag) (tag :: path) text
          (tight || tag.definition.layout == .verbatim)
          (tokens ++ [⟨.startTag tag attributes, tight⟩] ++ more) final)
        ((content (Path.place (tag :: path))).run inner)) :
    Agrees verdict
      (fun _ => At standing path before tight (tokens ++ [⟨.startTag tag attributes, tight⟩] ++ more ++
        [⟨.endTag tag, tight || tag.definition.layout == .verbatim⟩]))
      (((path.startTag tag names).writeBody (ε := Error) content).run (document.begun tag
        (standing.encoder.unfinishedTag standing.serialization tag attributes))) := by
  obtain ⟨inner, opened, entered⟩ := openBody_at here suits tag names attributes solid
  change Agrees _ _ (((path.startTag tag names).openBody >>= fun body =>
    (tryCatch (content body.place) fun failure => do
      body.abandon
      throw failure : Writing Unit) >>= fun _ => body.close).run _)
  rw [run_bind_ok opened]
  refine ((written inner entered).tryCatch fun error middle => ⟨_, rfl⟩).bind_ok
    fun _ final holds => ?_
  obtain ⟨text, within⟩ := holds
  exact ⟨(), close_at rfl rfl within suits encoded⟩

theorem writeChildren_agrees (here : At standing path before tight tokens document)
    (suits : standing.Suits path tight) (encoded : path.raw? standing.serialization = none)
    (tag : Tag) (names : List String) (attributes : List (String × String)) (children : List Node)
    (written : ∀ inner, At (standing.inside tag) (tag :: path) ""
        (tight || tag.definition.layout == .verbatim)
        (tokens ++ [⟨.startTag tag attributes, tight⟩]) inner →
      Agrees (Node.checkAll standing.serialization standing.doctype (tag :: path) "" children)
        (fun _ final => ∃ text, At (standing.inside tag) (tag :: path) text
          (tight || tag.definition.layout == .verbatim)
          (tokens ++ [⟨.startTag tag attributes, tight⟩] ++
            Node.tokensAll (some tag) (tight || tag.definition.layout == .verbatim) children) final)
        ((Node.writeAll (Path.place (tag :: path)) children).run inner)) :
    Agrees (do
        refuse (tag.definition.isVoid && !children.isEmpty) (.voidElement tag)
        Node.checkAll standing.serialization standing.doctype (tag :: path) "" children)
      (fun _ => At standing path before tight
        (tokens ++ (Node.element tag attributes children).tokens path.head? tight))
      (((path.startTag tag names).writeChildren children).run (document.begun tag
        (standing.encoder.unfinishedTag standing.serialization tag attributes))) := by
  unfold StartTag.writeChildren
  -- The children choose how the element is finished: with nothing, with a text, with a body.
  split
  · obtain ⟨final, closed, ended⟩ := close_childless_at here suits encoded tag names attributes
    rw [closed, List.isEmpty_nil, Bool.not_true, Bool.and_false]
    exact ⟨rfl, ended⟩
  · rename_i content
    cases isVoid : tag.definition.isVoid with
    | true =>
      rw [StartTag.text, Path.startTag, if_pos isVoid]
      rfl
    | false =>
      have alone : Node.checkAll standing.serialization standing.doctype (tag :: path) ""
          [.text content] = Path.checkText standing.serialization (tag :: path) "" content := by
        rw [Node.checkAll, Node.check, Node.checkAll]
        exact bind_pure _
      rw [alone]
      exact text_at here suits encoded tag names attributes isVoid content
  · rename_i filled several
    cases isVoid : tag.definition.isVoid with
    | true =>
      have nonempty : children.isEmpty = false := by
        rw [List.isEmpty_eq_false_iff]
        exact filled
      rw [nonempty]
      change Agrees _ _ (((path.startTag tag names).openBody >>= fun _ => _ : Writing Unit).run _)
      rw [StartTag.openBody_eq, Path.startTag, if_pos isVoid]
      rfl
    | false =>
      have gapped : Node.isRun children = false := by
        unfold Node.isRun
        split
        · exact absurd rfl filled
        · exact absurd rfl (several _)
        · rfl
      rw [Node.tokens, if_neg (ne_true_of_eq_false isVoid), gapped, Bool.or_false,
        List.append_cons, ← List.append_assoc]
      exact writeBody_at here suits encoded tag names attributes isVoid written

end

mutual

theorem Node.write_agrees {standing : Standing} {path : Path} {before : String} {tight : Bool}
    {tokens : List Placed} {document : Document} (node : Node)
    (here : At standing path before tight tokens document) (suits : standing.Suits path tight) :
    Agrees (node.check standing.serialization standing.doctype path before)
      (fun _ => At standing path (before ++ node.ownText) tight
        (tokens ++ node.tokens path.head? tight))
      ((node.write path.place).run document) :=
  match node with
  | .text content => by
    rw [Node.write, Node.check]
    exact text_agrees here suits content
  | .comment content => by
    rw [Node.write, Node.check, Node.ownText, String.append_empty]
    exact comment_agrees here suits content
  | .element tag attributes children => by
    have started := startTag_agrees here.unlimited here.idle
      ((congrArg (·.exclusions) here.stands).trans suits.exclusions) tag attributes
    have doctype : document.doctype = standing.doctype := by rw [← here.stands]; rfl
    rw [here.serialization, here.encoder, doctype] at started
    rw [Node.write_element, ← bind_assoc, Node.check, ← bind_assoc, Node.ownText,
      String.append_empty]
    refine started.passed.bind fun start begun holds => ?_
    obtain ⟨passed, ⟨names, rfl⟩, rfl⟩ := holds
    have encoded : path.raw? standing.serialization = none := by
      cases checked : path.check standing.doctype tag with
      | ok value => exact Path.raw?_of_check checked _
      | error error =>
        rw [checked] at passed
        cases passed
    exact writeChildren_agrees here suits encoded tag names attributes children
      fun inner entered => Node.writeAll_agrees children entered (suits.inside tag)
termination_by structural node

theorem Node.writeAll_agrees {standing : Standing} {path : Path} {before : String} {tight : Bool}
    {tokens : List Placed} {document : Document} (nodes : List Node)
    (here : At standing path before tight tokens document) (suits : standing.Suits path tight) :
    Agrees (Node.checkAll standing.serialization standing.doctype path before nodes)
      (fun _ final => ∃ text, At standing path text tight
        (tokens ++ Node.tokensAll path.head? tight nodes) final)
      ((Node.writeAll path.place nodes).run document) :=
  match nodes with
  | [] => by
    rw [Node.writeAll, Node.checkAll, Node.tokensAll, List.append_nil]
    exact ⟨rfl, before, here⟩
  | node :: rest => by
    rw [Node.writeAll, Node.checkAll, Node.tokensAll, ← List.append_assoc]
    exact (node.write_agrees here suits).bind fun _ middle there =>
      Node.writeAll_agrees rest there suits
termination_by structural nodes

end

def Parameters.standing (parameters : Parameters) : Standing where
  serialization := parameters.serialization
  doctype := parameters.doctype
  encoder := .markup
  exclusions := []
  settings := ⟨parameters.autoNewline, parameters.indent, 0⟩

theorem start_at (parameters : Parameters) (encoder : Encoder) (tight : Bool) :
    At { parameters.standing with encoder } [] "" tight [] (.start {} parameters encoder) where
  stands := rfl
  unlimited := ⟨{}, rfl, .default⟩
  idle := rfl
  suffix := rfl
  whole := rfl
  laid := ⟨[], .empty, rfl, rfl, rfl, nofun, fun _ => rfl⟩

/-- A tree is rendered as its tokens with their gaps if it passes the check, and fails with
the error of the check if not. -/
theorem Node.render_agrees (parameters : Parameters) (node : Node) (tight : Bool)
    (plain : tight → parameters.autoNewline = false) :
    match node.render parameters with
    | .ok bytes => node.check parameters.serialization parameters.doctype [] "" = .ok () ∧
        ∃ (laid : List Spaced) (last : Gap), laid.map Spaced.toPlaced = node.tokens none tight ∧
          bytes = utf8 (spell .markup parameters.serialization laid ++ last.text) ∧
          (tight → last = .empty)
    | .error error => node.check parameters.serialization parameters.doctype [] "" = .error error := by
  have suits : parameters.standing.Suits [] tight := ⟨rfl, plain, rfl⟩
  have agrees := node.write_agrees (start_at parameters .markup tight) suits
  rw [Node.render, Action.run_bind]
  cases ran : (node.write .document).run (.start {} parameters .markup) with
  | error error final =>
    rw [Path.place_nil, ran] at agrees
    exact agrees
  | ok value final =>
    rw [Path.place_nil, ran] at agrees
    obtain ⟨passed, here⟩ := agrees
    obtain ⟨sink, last, finished, holds⟩ := run_finish here.unlimited here.idle
    obtain ⟨laid, pending, same, spelled, -, -, closed⟩ := here.laid
    rw [here.encoder, here.serialization] at spelled
    dsimp only
    rw [finished]
    refine ⟨passed, laid, pending, ?_, ?_, closed⟩
    · rw [same, List.nil_append]
      rfl
    · exact Option.some.inj (holds.symm.trans spelled)

/-- Rendering succeeds exactly when the check of the tree does, and fails otherwise with the
first violation that the check meets. -/
theorem Node.render_verdict (parameters : Parameters) (node : Node) :
    (node.render parameters).map (fun _ => ()) =
      node.check parameters.serialization parameters.doctype [] "" := by
  have agrees := node.render_agrees parameters false nofun
  cases rendered : node.render parameters with
  | ok bytes =>
    rw [rendered] at agrees
    exact agrees.1.symm
  | error error =>
    rw [rendered] at agrees
    exact agrees.symm

end HtmlWriter
