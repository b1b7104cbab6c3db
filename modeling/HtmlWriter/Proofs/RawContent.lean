import HtmlWriter.Proofs.Landing

/-! What is read raw. The content of a script or a style sheet ends for its reader at the first
end tag of that name, in any case, so no text may bring one in, not even in parts. Between two
texts there may be blanks and comments, which cannot be parts of an end tag; but what stands in
a comment is not judged, and a reader of raw content does not know comments. -/

namespace HtmlWriter
open Script Writing

namespace Text
variable {pattern before after : List Char}

private theorem infix_of_missing {c : Char} (missing : c ∉ pattern)
    (found : pattern <:+: before ++ c :: after) : pattern <:+: before ∨ pattern <:+: after := by
  rcases List.infix_append_iff.mp found with inside | inside | ⟨first, second, rfl, ends, starts⟩
  · exact .inl inside
  · rcases List.infix_cons_iff.mp inside with starts | inside
    · cases pattern with
      | nil => exact .inl (List.nil_infix)
      | cons d rest =>
        obtain ⟨rfl, -⟩ := List.cons_prefix_cons.mp starts
        exact (missing (.head _)).elim
    · exact .inr inside
  · cases second with
    | nil => exact .inl (by simpa using ends.isInfix)
    | cons d rest =>
      obtain ⟨rfl, -⟩ := List.cons_prefix_cons.mp starts
      exact (missing (by simp)).elim

private theorem infix_of_head_missing {c : Char} (nonempty : pattern ≠ []) (missing : c ∉ pattern)
    (found : pattern <:+: c :: after) : pattern <:+: after := by
  have alone : pattern <:+: [] ++ c :: after := found
  exact (infix_of_missing missing alone).resolve_left fun empty =>
    nonempty (List.infix_nil.mp empty)

private theorem infix_of_all_missing (nonempty : pattern ≠ []) (missing : ∀ c ∈ after, c ∉ pattern)
    (found : pattern <:+: before ++ after) : pattern <:+: before := by
  induction after generalizing before with
  | nil => simpa using found
  | cons c rest ih =>
    rw [List.append_cons] at found
    have shorter := ih (fun d member => missing d (.tail _ member)) found
    refine (infix_of_missing (missing c (.head _)) shorter).elim id fun empty => ?_
    exact (nonempty (List.infix_nil.mp empty)).elim

end Text

/-- Content that is texts with other things between them: behind the last character that the
pattern lacks there is only text. -/
structure Interleaved (pattern texts content : List Char) : Prop where
  absent : ¬ pattern <:+: texts
  last : ∃ before run, content = before ++ run ∧ run <:+ texts ∧
    (before = [] ∨ ∃ start c, before = start ++ [c] ∧ c ∉ pattern)

namespace Interleaved
variable {pattern texts content added : List Char}

/-- A text that does not complete a pattern that other texts began does not complete any. -/
theorem text (interleaved : Interleaved pattern texts content)
    (absent : ¬ pattern <:+: texts ++ added) :
    Interleaved pattern (texts ++ added) (content ++ added) ∧
      (pattern <:+: content ++ added ↔ pattern <:+: content) := by
  obtain ⟨before, run, rfl, behind, ends⟩ := interleaved.last
  have longer : run ++ added <:+ texts ++ added := by
    obtain ⟨earlier, rfl⟩ := behind
    exact ⟨earlier, by rw [List.append_assoc]⟩
  rw [List.append_assoc]
  refine ⟨⟨absent, before, run ++ added, rfl, longer, ends⟩, fun found => ?_, fun found => ?_⟩
  · rcases ends with rfl | ⟨start, c, rfl, missing⟩
    · exact (absent (found.trans longer.isInfix)).elim
    · rw [← List.append_cons] at found
      rcases Text.infix_of_missing missing found with inside | inside
      · simp only [List.append_assoc]
        exact List.infix_append_of_infix_left inside
      · exact (absent (inside.trans longer.isInfix)).elim
  · rw [← List.append_assoc]
    exact List.infix_append_of_infix_left found

/-- Behind what ends in a character that the pattern lacks, nothing is begun. -/
theorem other {start : List Char} {c : Char} (interleaved : Interleaved pattern texts content)
    (missing : c ∉ pattern) : Interleaved pattern texts (start ++ [c]) :=
  ⟨interleaved.absent, start ++ [c], [], (List.append_nil _).symm, List.nil_suffix,
    .inr ⟨start, c, rfl, missing⟩⟩

theorem blanks (interleaved : Interleaved pattern texts content) (nonempty : pattern ≠ [])
    (missing : ∀ c ∈ added, c ∉ pattern) :
    Interleaved pattern texts (content ++ added) ∧
      (pattern <:+: content ++ added ↔ pattern <:+: content) := by
  refine ⟨?_, fun found => Text.infix_of_all_missing nonempty missing found, fun found =>
    List.infix_append_of_infix_left found⟩
  rcases List.eq_nil_or_concat added with rfl | ⟨start, c, rfl⟩
  · rwa [List.append_nil]
  · rw [List.concat_eq_append, ← List.append_assoc]
    exact interleaved.other (missing c (by simp))

end Interleaved

/-- An end tag begins with a bracket and has none of the other characters that comments and
layout are made of. -/
structure IsEndTagOpening (pattern : List Char) : Prop where
  nonempty : pattern ≠ []
  last : pattern.getLast? ≠ some '<'
  apart : ∀ c ∈ ['!', '-', '>', '\n', '\t', ' '], c ∉ pattern

private theorem Tag.isEndTagOpening {tag : Tag} {serialization : Serialization}
    (isRaw : tag.isRaw serialization) : IsEndTagOpening (endTagOpening tag) := by
  -- One character after the other, since all characters are too many to decide about.
  rcases script_or_style isRaw with rfl | rfl
  all_goals
    refine ⟨List.cons_ne_nil _ _, by decide, ?_⟩
    simp only [List.mem_cons, List.mem_nil_iff, or_false, forall_eq_or_imp, forall_eq]
    decide

/-- Only the text of a comment can have an end tag in it, which no other text can complete. -/
theorem Interleaved.comment {pattern texts content : List Char}
    (opening : IsEndTagOpening pattern) (interleaved : Interleaved pattern texts content)
    (text : List Char) :
    Interleaved pattern texts (content ++ (['<', '!', '-', '-'] ++ text ++ ['-', '-', '>'])) ∧
      (pattern <:+: content ++ (['<', '!', '-', '-'] ++ text ++ ['-', '-', '>']) ↔
        pattern <:+: content ∨ pattern <:+: text) := by
  have missing := opening.apart
  simp only [List.mem_cons, List.mem_nil_iff, or_false, forall_eq_or_imp, forall_eq] at missing
  obtain ⟨mark, hyphen, bracket, -⟩ := missing
  have split : content ++ (['<', '!', '-', '-'] ++ text ++ ['-', '-', '>']) =
      (content ++ ['<']) ++ '!' :: '-' :: '-' :: (text ++ ['-', '-', '>']) := by simp
  refine ⟨?_, fun found => ?_, fun found => ?_⟩
  · have ends : content ++ (['<', '!', '-', '-'] ++ text ++ ['-', '-', '>']) =
        (content ++ (['<', '!', '-', '-'] ++ text ++ ['-', '-'])) ++ ['>'] := by simp
    rw [ends]
    exact interleaved.other bracket
  · rw [split] at found
    rcases Text.infix_of_missing mark found with inside | inside
    · rcases List.infix_concat_iff.mp inside with ends | inside
      · rcases List.suffix_concat_iff.mp ends with empty | ⟨start, rfl, -⟩
        · exact (opening.nonempty empty).elim
        · exact (opening.last (by simp)).elim
      · exact .inl inside
    · have closing : ∀ c ∈ ['-', '-', '>'], c ∉ pattern := by simpa using ⟨hyphen, bracket⟩
      have behind := Text.infix_of_head_missing opening.nonempty hyphen
        (Text.infix_of_head_missing opening.nonempty hyphen inside)
      exact .inr (Text.infix_of_all_missing opening.nonempty closing behind)
  · rcases found with found | found
    · exact List.infix_append_of_infix_left found
    · exact List.infix_append_of_infix_right
        (List.infix_append_of_infix_left (List.infix_append_of_infix_right found))

/-- Calls on the body of an element: all that write there, but for markup that is written as it
is. -/
def Call.FillsBody : Call → Prop
  | .write (.raw _) | .write (.node _) | .write .xmlDeclaration | .write .doctypeDeclaration =>
      False
  | .write _ | .adjust _ | .start _ => True
  | _ => False

/-- Whether a call writes a comment with the beginning of the end tag in it. -/
def Call.BreaksOut (tag : Tag) : Call → Prop
  | .write (.comment text) => isComment text ∧ endTagOpening tag <:+: Text.lowercase text
  | _ => False

/-- A document in the middle of a raw element: what was written since its start tag, and what is
remembered of it. -/
structure InRaw (tag : Tag) (before : List UInt8) (broken : Prop) (document : Document) :
    Prop where
  unlimited : document.Unlimited
  sgml : document.serialization = .sgml
  idle : document.unfinished = none
  content : ∃ (content : String) (texts : List Char),
    document.bytes = before ++ utf8 content ∧
    document.rawSuffix = Text.lastBytes (Text.byteLength (endTagOpening tag) - 1) texts ∧
    Interleaved (endTagOpening tag) texts (Text.lowercase content) ∧
    (endTagOpening tag <:+: Text.lowercase content ↔ broken)

namespace InRaw
variable {tag : Tag} {before : List UInt8} {broken : Prop} {document : Document}

theorem blanks (isRaw : tag.isRaw .sgml) (inRaw : InRaw tag before broken document)
    {offset? : Option Int64} {action : Writing Unit} (prints : Prints IsBlank offset? action) :
    InRaw tag before broken (finalState action document) := by
  obtain ⟨text, fits, final⟩ := prints.appends inRaw.unlimited
  obtain ⟨content, texts, bytes, suffix, interleaved, breaks⟩ := inRaw.content
  have opening := Tag.isEndTagOpening isRaw
  have missing : ∀ c ∈ Text.lowercase text, c ∉ endTagOpening tag := by
    intro c member
    obtain ⟨d, inside, rfl⟩ := List.mem_map.mp member
    rcases fits d inside with rfl | rfl | rfl <;> exact opening.apart _ (by decide)
  obtain ⟨still, same⟩ := interleaved.blanks opening.nonempty missing
  rw [final]
  refine ⟨inRaw.unlimited.wrote text, inRaw.sgml, inRaw.idle, content ++ text, texts, ?_,
    suffix, ?_, ?_⟩
  · rw [inRaw.unlimited.bytes_wrote, bytes, utf8_append, List.append_assoc]
  · rw [lowercase_append]
    exact still
  · rw [lowercase_append, same, breaks]

theorem rawText (inRaw : InRaw tag before broken document) (text : String) :
    InRaw tag before broken (finalState (Writing.rawText tag text) document) := by
  obtain ⟨content, texts, bytes, suffix, interleaved, breaks⟩ := inRaw.content
  have absent : Text.occursIn (endTagOpening tag) texts = false := by
    rw [Bool.eq_false_iff, ne_eq, Text.occursIn_iff_infix]
    exact interleaved.absent
  rw [finalState, run_rawText inRaw.unlimited, suffix, Text.occursIn_lastBytes_append absent,
    Text.lastBytes_lastBytes_append]
  cases completes : Text.occursIn (endTagOpening tag) (texts ++ Text.lowercase text) with
  | true => exact inRaw
  | false =>
    rw [Bool.eq_false_iff, ne_eq, Text.occursIn_iff_infix] at completes
    obtain ⟨still, same⟩ := interleaved.text completes
    refine ⟨(inRaw.unlimited.wrote text).of_sink rfl, inRaw.sgml, inRaw.idle, content ++ text,
      texts ++ Text.lowercase text, ?_, rfl, ?_, ?_⟩
    · rw [utf8_append, ← List.append_assoc, ← bytes, ← inRaw.unlimited.bytes_wrote]
      rfl
    · rw [lowercase_append]
      exact still
    · rw [lowercase_append, same, breaks]

theorem text (isRaw : tag.isRaw .sgml) (inRaw : InRaw tag before broken document) {place : Place}
    (inside : place.parent = some tag) (text : String) :
    InRaw tag before broken (finalState (place.text text) document) := by
  rcases finalState_text inRaw.unlimited place text with same | written
  · rwa [same]
  · have indented := inRaw.blanks isRaw (indentFresh_prints 0)
    rw [finalState, run_indentFresh inRaw.unlimited inRaw.idle] at indented
    have raw : Path.raw? .sgml [tag] = some tag := by
      rw [Path.raw?, List.head?_cons, Option.filter_some, if_pos isRaw]
    have asRaw := @textInside_of_raw? _ [tag] text _ indented.sgml
    rw [raw, List.head?_cons] at asRaw
    rw [written, inside, finalState, asRaw]
    exact indented.rawText text

theorem comment (isRaw : tag.isRaw .sgml) (inRaw : InRaw tag before broken document)
    (text : String) : InRaw tag before (broken ∨ Call.BreaksOut tag (.write (.comment text)))
      (finalState (Writing.comment text) document) := by
  have indented := inRaw.blanks isRaw (indentFresh_prints 0)
  rw [finalState, run_indentFresh inRaw.unlimited inRaw.idle] at indented
  cases fits : isComment text with
  | false =>
    have ran : (Writing.comment text).run document = .error (.invalidComment text) document := by
      rw [Writing.comment, run_refuseInTag_bind inRaw.idle, fits]
      rfl
    have same : broken ∨ Call.BreaksOut tag (.write (.comment text)) ↔ broken := by
      simp [Call.BreaksOut, fits]
    rw [finalState, ran, propext same]
    exact inRaw
  | true =>
    have ran : (Writing.comment text).run document = .ok ()
        ((document.wrote document.format.indentGap.text).wrote ("<!--" ++ text ++ "-->")) := by
      rw [Writing.comment, run_refuseInTag_bind inRaw.idle, fits]
      exact (run_bind_ok (run_indentFresh inRaw.unlimited inRaw.idle) _).trans
        (run_write indented.unlimited _)
    rw [finalState, ran]
    obtain ⟨content, texts, bytes, suffix, interleaved, breaks⟩ := indented.content
    have opening := Tag.isEndTagOpening isRaw
    have spelled : Text.lowercase ("<!--" ++ text ++ "-->") =
        ['<', '!', '-', '-'] ++ Text.lowercase text ++ ['-', '-', '>'] := by
      rw [lowercase_append, lowercase_append]
      rfl
    obtain ⟨still, same⟩ := interleaved.comment opening (Text.lowercase text)
    rw [← spelled, ← lowercase_append] at still same
    refine ⟨indented.unlimited.wrote _, inRaw.sgml, inRaw.idle, _, texts, ?_, suffix, still, ?_⟩
    · rw [utf8_append, ← List.append_assoc, ← bytes, ← indented.unlimited.bytes_wrote]
    · rw [same, breaks, Call.BreaksOut, fits]
      simp

theorem unbroken (inRaw : InRaw tag before broken document) {other : Prop} (none : ¬ other) :
    InRaw tag before (broken ∨ other) document := by
  rwa [or_iff_left none]

theorem opened (isRaw : tag.isRaw .sgml) (unlimited : document.Unlimited)
    (sgml : document.serialization = .sgml) {start : StartTag} (of : start.tag = tag)
    {body : Body} {final : Document} (ran : start.openBody.run document = .ok body final) :
    InRaw tag (document.bytes ++ utf8 ">") False final := by
  have verbatim : tag.definition.layout = .verbatim := by
    rcases Tag.script_or_style isRaw with rfl | rfl <;> rfl
  have solid : tag.definition.isVoid = false := by
    rcases Tag.script_or_style isRaw with rfl | rfl <;> rfl
  have marked : (document.finishedTag ">").Unlimited := (unlimited.wrote _).of_sink rfl
  have none : (document.finishedTag ">").format.bodyGap tag = .empty := by
    rw [Format.bodyGap, verbatim]
    rfl
  rw [StartTag.openBody_eq, of, solid, if_neg Bool.false_ne_true,
    run_bind_ok (run_bracket unlimited), run_bind_ok (run_beginBody marked rfl tag),
    run_bind_ok (run_enter _ _), none, Gap.text_empty, Document.wrote_empty] at ran
  cases ran
  have opening := Tag.isEndTagOpening isRaw
  have absent : ¬ endTagOpening tag <:+: [] := fun empty =>
    opening.nonempty (List.infix_nil.mp empty)
  refine ⟨marked.of_sink rfl, sgml, rfl, "", [], ?_, (Text.lastBytes_nil _).symm,
    ⟨absent, [], [], rfl, List.nil_suffix, .inl rfl⟩, iff_of_false absent id⟩
  rw [utf8_empty, List.append_nil, ← unlimited.bytes_wrote]
  rfl

theorem closed (isRaw : tag.isRaw .sgml) (inRaw : InRaw tag before broken document)
    (around : Surroundings) : ∃ gap : Gap,
      (document.closed tag around).bytes = document.bytes ++ utf8 (tag.closing ++ gap.text) := by
  have left : (document.left around).Unlimited := inRaw.unlimited.of_sink rfl
  have verbatim : tag.definition.layout = .verbatim := by
    rcases Tag.script_or_style isRaw with rfl | rfl <;> rfl
  have none : (document.left around).format.closeGap tag = .empty := by
    rw [Format.closeGap, verbatim]
  let ended : Document := { (document.left around).wrote tag.closing with rawSuffix := [] }
  have unlimited : ended.Unlimited := (left.wrote tag.closing).of_sink rfl
  have closing : ended.bytes = document.bytes ++ utf8 tag.closing := left.bytes_wrote tag.closing
  refine ⟨ended.format.endGap tag, ?_⟩
  rw [utf8_append, ← List.append_assoc, ← closing, ← unlimited.bytes_wrote]
  simp only [Document.closed, none, Gap.text_empty, String.empty_append]
  rfl

end InRaw

namespace Caller
variable {caller next full : Caller} {tag : Tag} {before : List UInt8} {broken : Prop}
  {place : Place} {call : Call} {heard : Except Error Unit}

theorem inRaw_of_takes (isRaw : tag.isRaw .sgml) (here : caller.place? = some place)
    (inside : place.parent = some tag)
    (refuses : ∀ child : Tag, place.model.allows child child.categories = false)
    (inRaw : InRaw tag before broken caller.document) (fills : call.FillsBody)
    (taken : caller.Takes call heard next) :
    next.handles = caller.handles ∧
      InRaw tag before (broken ∨ call.BreaksOut tag) next.document := by
  have same {other : Place} (found : caller.place? = some other) : place = other :=
    Option.some.inj (here.symm.trans found)
  cases taken with
  | @write other call found single =>
    cases same found
    refine ⟨rfl, ?_⟩
    cases call with
    | text content => exact (inRaw.text isRaw inside content).unbroken id
    | comment content => exact inRaw.comment isRaw content
    | newline => exact (inRaw.blanks isRaw newline_prints).unbroken id
    | space => exact (inRaw.blanks isRaw space_prints).unbroken id
    | newlineIndent offset => exact (inRaw.blanks isRaw (newlineIndent_prints offset)).unbroken id
    | indent offset => exact (inRaw.blanks isRaw (indent_prints offset)).unbroken id
    | freshLine => exact (inRaw.blanks isRaw freshLine_prints).unbroken id
    | freshIndentedLine offset =>
      exact (inRaw.blanks isRaw (freshIndentedLine_prints offset)).unbroken id
    | indentFresh offset => exact (inRaw.blanks isRaw (indentFresh_prints offset)).unbroken id
    | raw markup | node tree | xmlDeclaration | doctypeDeclaration => exact fills.elim
  | adjust found change =>
    have changed : InRaw tag before broken
        (finalState change.perform caller.document) :=
      ⟨inRaw.unlimited.of_sink rfl, inRaw.sgml, inRaw.idle, inRaw.content⟩
    exact ⟨rfl, changed.unbroken id⟩
  | @started other child start document found ran =>
    cases same found
    have rejected : place.check caller.document child ≠ .ok () := by
      rw [Place.check, refuses]
      intro passed
      split at passed <;> cases passed
    rw [run_element inRaw.unlimited inRaw.idle] at ran
    split at ran
    · exact (rejected ‹_›).elim
    · cases ran
  | refused found ran =>
    cases refused_same inRaw.unlimited ran
    exact ⟨rfl, inRaw.unbroken id⟩
  | _ => exact fills.elim

theorem inRaw_of_run (isRaw : tag.isRaw .sgml) (here : caller.place? = some place)
    (inside : place.parent = some tag)
    (refuses : ∀ child : Tag, place.model.allows child child.categories = false)
    (inRaw : InRaw tag before broken caller.document) {calls : List Call}
    (filling : ∀ call ∈ calls, call.FillsBody) {answers : List (Except Error Unit)}
    (filled : caller.run calls = some (answers, full)) :
    full.handles = caller.handles ∧
      InRaw tag before (broken ∨ ∃ call ∈ calls, call.BreaksOut tag) full.document := by
  induction calls generalizing caller broken answers with
  | nil =>
    cases filled
    exact ⟨rfl, inRaw.unbroken (by simp)⟩
  | cons call rest ih =>
    rw [run] at filled
    split at filled
    case h_1 heard next stepped =>
      obtain ⟨⟨later, last⟩, continued, same⟩ := Option.map_eq_some_iff.mp filled
      cases same
      obtain ⟨kept, inRaw⟩ := inRaw_of_takes isRaw here inside refuses inRaw
        (filling call (.head _)) (takes_of_step stepped)
      have still : next.place? = some place := by rw [place?, kept, ← place?, here]
      obtain ⟨handles, inRaw⟩ := ih still inRaw (fun call member => filling call (.tail _ member))
        continued
      have each : (∃ other ∈ call :: rest, other.BreaksOut tag) ↔
          call.BreaksOut tag ∨ ∃ other ∈ rest, other.BreaksOut tag := by simp
      rw [each, ← or_assoc]
      exact ⟨handles.trans kept, inRaw⟩
    case h_2 => cases filled

/-- The body of a script or a style sheet takes no elements. -/
private theorem inRaw_of_entered {serialization : Serialization} {opened : Caller} {element : Nat}
    {body : Body} {outer : List Handle} (recorded : Recorded serialization caller)
    (settled : caller.outline.Settled) (sgml : serialization = .sgml)
    (entered : caller.Takes .openBody (.ok ()) opened)
    (front : opened.handles = .body element body :: outer) (isRaw : body.tag.isRaw .sgml) :
    InRaw body.tag (caller.document.bytes ++ utf8 ">") False opened.document ∧
      body.isEnded = false ∧ body.place.parent = some body.tag ∧
      ∀ child : Tag, body.place.model.allows child child.categories = false := by
  cases entered with
  | @opened number start around entry document beneath opening =>
    cases front
    obtain ⟨-, inner, -, -, rfl⟩ := start.openBody_ok opening
    have traced := settled.traced
    have held : caller.outline.handles = .tag element start :: outer := beneath
    rw [held] at traced
    obtain ⟨-, ⟨model, resolves⟩, -⟩ := traced.front
    refine ⟨.opened isRaw recorded.unlimited (recorded.same.trans sgml) rfl opening, rfl, rfl,
      fun child => ?_⟩
    obtain ⟨solid, refused⟩ := Tag.allows_of_isRaw isRaw child
    rw [resolves, ContentModel.inside, solid, if_neg Bool.false_ne_true, refused]

private theorem inRaw_of_ended {ended : Except Error Unit} {closed : Caller} {element : Nat}
    {body : Body}
    {outer : List Handle} (isRaw : body.tag.isRaw .sgml)
    (inRaw : InRaw body.tag before broken full.document)
    (front : full.handles = .body element body :: outer) (live : body.isEnded = false)
    (left : full.Takes .endBody ended closed) :
    ended = .ok () ∧ ∃ gap : Gap, closed.document.bytes =
      full.document.bytes ++ utf8 (body.tag.closing ++ gap.text) := by
  cases left with
  | endBody last =>
    cases front.symm.trans last
    obtain ⟨around, held⟩ := Option.isSome_iff_exists.mp (by simpa [Body.isEnded] using live)
    have ran := Body.run_close inRaw.unlimited inRaw.idle held
    obtain ⟨gap, ends⟩ := inRaw.closed isRaw around
    refine ⟨by rw [verdict, ran], gap, ?_⟩
    rw [← ends, becomes, finalState, ran]

/-- Whatever is called on the body of a script or a style sheet, but for raw markup: what stands
between its start tag and its end tag has the beginning of the end tag in it, in whichever case,
exactly if a comment does that was written there. -/
theorem raw_content_breaks_out_iff {sink : Sink} {parameters : Parameters} {encoder : Encoder}
    {earlier within : List Call} {answers fillings : List (Except Error Unit)}
    {ready opened full closed : Caller} {ended : Except Error Unit} {element : Nat} {body : Body}
    {outer : List Handle} (takes : sink.Unlimited) (steady : ∀ call ∈ earlier, call.KeepsSink)
    (ran : (start sink parameters encoder).run earlier = some (answers, ready))
    (entered : ready.step .openBody = some (.ok (), opened))
    (front : opened.handles = .body element body :: outer)
    (isRaw : body.tag.isRaw parameters.serialization)
    (filling : ∀ call ∈ within, call.FillsBody)
    (filled : opened.run within = some (fillings, full))
    (left : full.step .endBody = some (ended, closed)) :
    ended = .ok () ∧ ∃ (content : String) (gap : Gap),
      closed.document.bytes = ready.document.bytes ++
        utf8 (">" ++ content ++ body.tag.closing ++ gap.text) ∧
      (endTagOpening body.tag <:+: Text.lowercase content ↔ ∃ comment,
        .write (.comment comment) ∈ within ∧ isComment comment ∧
          endTagOpening body.tag <:+: Text.lowercase comment) := by
  obtain ⟨recorded, settled⟩ := settled_of_run takes steady ran
  have sgml : parameters.serialization = .sgml := by
    rw [Tag.isRaw, Bool.and_eq_true, beq_iff_eq] at isRaw
    exact isRaw.2
  rw [sgml] at isRaw
  obtain ⟨begun, live, inside, refuses⟩ :=
    inRaw_of_entered recorded settled sgml (takes_of_step entered) front isRaw
  have here : opened.place? = some body.place := by
    rw [place?, front]
    rfl
  obtain ⟨kept, inRaw⟩ := inRaw_of_run isRaw here inside refuses begun filling filled
  obtain ⟨succeeds, gap, ends⟩ :=
    inRaw_of_ended isRaw inRaw (kept.trans front) live (takes_of_step left)
  obtain ⟨content, texts, bytes, -, -, breaks⟩ := inRaw.content
  refine ⟨succeeds, content, gap, ?_, breaks.trans ?_⟩
  · rw [ends, bytes]
    simp only [utf8_append, List.append_assoc]
  · rw [false_or]
    constructor
    · rintro ⟨call, member, breaksOut⟩
      cases call with
      | write call =>
        cases call with
        | comment comment => exact ⟨comment, member, breaksOut⟩
        | _ => exact breaksOut.elim
      | _ => exact breaksOut.elim
    · rintro ⟨comment, member, breaksOut⟩
      exact ⟨_, member, breaksOut⟩

/-- An end tag is not made of two texts, also when a comment stands between them. -/
theorem parted_end_tag_stays_out : ∃ answers ready opened fillings full ended closed,
    (start {} {} .markup).run [.start .script] = some (answers, ready) ∧
      ready.step .openBody = some (.ok (), opened) ∧
      opened.run [.write (.text "a</"), .write (.comment "b"), .write (.text "script")] =
        some (fillings, full) ∧
      full.step .endBody = some (ended, closed) ∧ ended = .ok () ∧
      ∃ (content : String) (gap : Gap), closed.document.bytes = ready.document.bytes ++
          utf8 (">" ++ content ++ Tag.script.closing ++ gap.text) ∧
        ¬ endTagOpening .script <:+: Text.lowercase content := by
  have seen : ((start {} {} .markup).run [.start .script]).bind (fun begun =>
      (begun.2.step .openBody).bind fun entered =>
        (entered.2.run [.write (.text "a</"), .write (.comment "b"),
            .write (.text "script")]).bind fun filled =>
          (filled.2.step .endBody).map fun left => (entered.1, left.1,
            entered.2.handles.map fun
              | .body _ body => some body.tag
              | _ => none)) =
      some (.ok (), .ok (), [some .script]) := rfl
  obtain ⟨⟨answers, ready⟩, ran, seen⟩ := Option.bind_eq_some_iff.mp seen
  obtain ⟨⟨heard, opened⟩, entered, seen⟩ := Option.bind_eq_some_iff.mp seen
  obtain ⟨⟨fillings, full⟩, filled, seen⟩ := Option.bind_eq_some_iff.mp seen
  obtain ⟨⟨ended, closed⟩, left, same⟩ := Option.map_eq_some_iff.mp seen
  simp only [Prod.mk.injEq] at same
  obtain ⟨rfl, rfl, handles⟩ := same
  obtain ⟨handle, outer, front, of, -⟩ := List.map_eq_cons_iff.mp handles
  cases handle with
  | top | tag element start => cases of
  | body element body =>
    have of : body.tag = .script := Option.some.inj of
    obtain ⟨succeeds, content, gap, bytes, breaks⟩ :=
      raw_content_breaks_out_iff .default (by simp [Call.KeepsSink]) ran entered front
        (by rw [of]; rfl) (by simp [Call.FillsBody]) filled left
    rw [of] at bytes breaks
    refine ⟨answers, ready, opened, fillings, full, _, closed, ran, entered, filled, left,
      succeeds, content, gap, bytes, fun found => ?_⟩
    obtain ⟨comment, member, -, within⟩ := breaks.mp found
    obtain rfl : comment = "b" := by simpa using member
    exact absurd within.length_le (by decide)

/-- A comment in a script is not judged, and may end the script for its reader. -/
theorem comment_ends_script : ∃ answers caller,
    (start {} {} .markup).run
        [.start .script, .openBody, .write (.comment "</script>"), .endBody] =
      some (answers, caller) ∧ answers = [.ok (), .ok (), .ok (), .ok ()] ∧
      caller.output = utf8 "<script><!--</script>--></script>" ∧
      endTagOpening .script <:+: Text.lowercase "<!--</script>-->" := by
  have seen : ((start {} {} .markup).run
      [.start .script, .openBody, .write (.comment "</script>"), .endBody]).map (fun result =>
        (result.1, result.2.output)) =
      some ([.ok (), .ok (), .ok (), .ok ()], utf8 "<script><!--</script>--></script>") := rfl
  obtain ⟨⟨answers, caller⟩, ran, same⟩ := Option.map_eq_some_iff.mp seen
  obtain ⟨succeeded, output⟩ := Prod.mk.inj same
  exact ⟨answers, caller, ran, succeeded, output, ['<', '!', '-', '-'], ['>', '-', '-', '>'], rfl⟩

end Caller
end HtmlWriter
