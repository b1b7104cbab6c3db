import HtmlWriter.Proofs.Landing
import HtmlWriter.Proofs.Lines
import HtmlWriter.Proofs.Rejections

/-! Indentation of a tree that is written with automatic newlines and indentation. The depth is the
number of blocks around, except in verbatim elements, where nothing is formatted. So each token
either goes on a line or begins one with as many tabs as there are blocks around it. -/

namespace HtmlWriter
open Reading Writing

namespace Node

mutual

/-- Whether no text, comment or attribute value in it has a newline or a tab. -/
def isUnbroken : Node → Bool
  | .text content | .comment content => decide (Text.Unbroken content.toList)
  | .element _ attributes children =>
      attributes.all (fun entry => decide (Text.Unbroken entry.2.toList)) && isUnbrokenAll children

def isUnbrokenAll : List Node → Bool
  | [] => true
  | node :: rest => isUnbroken node && isUnbrokenAll rest

end

end Node

namespace Path

theorem isVerbatim_cons {tag : Tag} {path : Path} : isVerbatim (tag :: path) = true ↔
    tag.definition.layout = .verbatim ∨ path.isVerbatim = true := by
  rw [isVerbatim, List.any_cons, Bool.or_eq_true, beq_iff_eq]
  rfl

/-- The settings in the bodies of the elements of a path, with automatic newlines and indentation
around them. -/
def settings : Path → FormatSettings
  | [] => ⟨true, true, 0⟩
  | tag :: around => (settings around).within tag.definition.layout

private theorem settings_plain {path : Path} (verbatim : path.isVerbatim = true) :
    path.settings.autoNewline = false := by
  induction path with
  | nil => cases verbatim
  | cons tag around ih =>
    rw [isVerbatim_cons] at verbatim
    rw [settings]
    cases layout : tag.definition.layout with
    | verbatim => rfl
    | block | root | inline | lineBreak =>
      rw [layout] at verbatim
      exact ih (verbatim.resolve_left nofun)

private theorem toNat_counted (count : Nat) :
    (UInt64.ofNat (min count FormatSettings.largestDepth.toNat)).toNat =
      min count FormatSettings.largestDepth.toNat := by
  have most : FormatSettings.largestDepth.toNat < UInt64.size := by decide
  exact UInt64.toNat_ofNat_of_lt' (by omega)

/-- Outside of verbatim elements the depth is the number of blocks, as far as it can be counted. -/
private theorem settings_formatted {path : Path} (outside : path.isVerbatim = false) :
    path.settings =
      ⟨true, true, UInt64.ofNat (min path.blocks FormatSettings.largestDepth.toNat)⟩ := by
  induction path with
  | nil => rfl
  | cons tag around ih =>
    obtain ⟨formats, outside⟩ := not_or.mp (mt isVerbatim_cons.mpr (ne_true_of_eq_false outside))
    have count : blocks (tag :: around) =
        blocks around + if tag.definition.layout == .block then 1 else 0 := List.countP_cons
    rw [settings, ih (eq_false_of_ne_true outside), count]
    cases layout : tag.definition.layout with
    | verbatim => exact (formats layout).elim
    | block =>
      refine congrArg (FormatSettings.mk true true) (UInt64.toNat_inj.mp ?_)
      refine (FormatSettings.toNat_depth_deeper _).trans ?_
      rw [toNat_counted, toNat_counted]
      change _ = min (blocks around + 1) _
      omega
    | root | inline | lineBreak => rfl

end Path

/-- What may come before a token: indentation if it begins a line, behind a newline if one has to
be ended; or nothing if it goes on a line. -/
def Gap.Leads (gap : Gap) (format : Format) (sited : Sited) : Prop :=
  (sited.isVerbatim = false ∧ gap = ⟨!format.atNewline, sited.tabs⟩) ∨
    (sited.startsLine = false ∧ format.atNewline = false ∧ gap = .empty)

/-- Formatting is as it is in the bodies of a path. No line starts in verbatim elements. -/
structure Format.Suits (format : Format) (path : Path) : Prop where
  settings : format.toFormatSettings = path.settings
  inLine : path.isVerbatim = true → format.atNewline = false

namespace Format.Suits
variable {format : Format} {path : Path} {sited : Sited}

private theorem indentation_eq (suits : format.Suits path) (outside : path.isVerbatim = false) :
    format.indentation 0 = min path.blocks FormatSettings.largestDepth.toNat := by
  have depth : format.depth.toNat = min path.blocks FormatSettings.largestDepth.toNat := by
    rw [suits.settings, Path.settings_formatted outside]
    exact Path.toNat_counted _
  have none : (0 : Int64).toInt = 0 := by decide
  have bound : format.depth.toNat < UInt64.size := format.depth.toNat_lt
  rw [Format.indentation, none, Int.add_zero, ← depth]
  simp only [Int.ofNat_eq_natCast, Int.toNat_natCast]
  omega

private theorem leads_of_verbatim (suits : format.Suits path) (verbatim : path.isVerbatim = true)
    (same : sited.isVerbatim = path.isVerbatim) {gap : Gap} (fits : gap.Fits format) :
    gap.Leads format sited := by
  have goesOn : sited.startsLine = false := by
    rw [Sited.startsLine, same, verbatim]
    rfl
  refine .inr ⟨goesOn, suits.inLine verbatim, fits.plain ?_⟩
  rw [suits.settings]
  exact Path.settings_plain verbatim

private theorem indentGap_leads (suits : format.Suits path)
    (same : sited.isVerbatim = path.isVerbatim)
    (around : sited.bodies = path) (goesOn : sited.startsLine = false) :
    format.indentGap.Leads format sited := by
  cases verbatim : path.isVerbatim with
  | true => exact suits.leads_of_verbatim verbatim same format.indentGap_fits
  | false =>
    have wants : format.wantsIndent = true := by
      rw [Format.wantsIndent, suits.settings, Path.settings_formatted verbatim]
      rfl
    cases fresh : format.atNewline with
    | true =>
      refine .inl ⟨same.trans verbatim, ?_⟩
      rw [Format.indentGap, wants, fresh, suits.indentation_eq verbatim, Sited.tabs, around]
      rfl
    | false =>
      refine .inr ⟨goesOn, fresh, ?_⟩
      rw [Format.indentGap, wants, fresh]
      rfl

private theorem lineGap_leads (suits : format.Suits path)
    (same : sited.isVerbatim = path.isVerbatim)
    (around : sited.bodies = path) : format.lineGap.Leads format sited := by
  cases verbatim : path.isVerbatim with
  | true => exact suits.leads_of_verbatim verbatim same format.lineGap_fits
  | false =>
    have wants : format.wantsIndent = true ∧ format.wantsBreak = !format.atNewline := by
      rw [Format.wantsIndent, Format.wantsBreak, suits.settings, Path.settings_formatted verbatim]
      exact ⟨rfl, rfl⟩
    refine .inl ⟨same.trans verbatim, ?_⟩
    rw [Format.lineGap, wants.1, wants.2, suits.indentation_eq verbatim, Sited.tabs, around]
    rfl

private theorem leadGap_leads (suits : format.Suits path) (tag : Tag)
    (attributes : List (String × String)) :
    (format.leadGap tag).Leads format ⟨.startTag tag attributes, path⟩ := by
  have same : Sited.isVerbatim ⟨.startTag tag attributes, path⟩ = path.isVerbatim := Bool.or_false _
  have goesOn (onLine : tag.definition.layout = .inline ∨ tag.definition.layout = .lineBreak) :
      Sited.startsLine ⟨.startTag tag attributes, path⟩ = false := by
    rcases onLine with layout | layout
    · simp [Sited.startsLine, layout]
    · simp [Sited.startsLine, layout]
  unfold Format.leadGap
  cases layout : tag.definition.layout with
  | inline => exact suits.indentGap_leads same rfl (goesOn (.inl layout))
  | lineBreak => exact suits.indentGap_leads same rfl (goesOn (.inr layout))
  | block | root | verbatim => exact suits.lineGap_leads same rfl

/-- The end tag of a verbatim element is in a line, as everything in its body. -/
private theorem closeGap_leads (suits : format.Suits path) (tag : Tag)
    (inLine : tag.definition.layout = .verbatim → format.atNewline = false) :
    (format.closeGap tag).Leads format ⟨.endTag tag, path⟩ := by
  have same (other : tag.definition.layout ≠ .verbatim) :
      Sited.isVerbatim ⟨.endTag tag, path⟩ = path.isVerbatim := by
    change (path.isVerbatim || tag.definition.layout == .verbatim) = path.isVerbatim
    rw [beq_eq_false_iff_ne.mpr other, Bool.or_false]
  have goesOn := Sited.startsLine_endTag path tag
  unfold Format.closeGap
  cases layout : tag.definition.layout with
  | verbatim => exact .inr ⟨goesOn, inLine layout, rfl⟩
  | block | root => exact suits.lineGap_leads (same (by rw [layout]; nofun)) rfl
  | inline | lineBreak => exact suits.indentGap_leads (same (by rw [layout]; nofun)) rfl goesOn

end Format.Suits

theorem Lined.token {serialization : Serialization} {done : List Sited} {format : Format}
    {text : String} (lined : Lined serialization done format.atNewline text) {gap : Gap}
    {sited : Sited} (leads : gap.Leads format sited) (solid : sited.token.IsSolid serialization) :
    Lined serialization (done ++ [sited]) false
      (text ++ (gap.text ++ sited.token.markup .markup serialization)) := by
  rcases leads with ⟨outside, rfl⟩ | ⟨goesOn, inLine, rfl⟩
  · cases fresh : format.atNewline with
    | true =>
      rw [fresh] at lined
      exact lined.first solid outside
    | false =>
      rw [fresh] at lined
      have begun := lined.ended.first solid outside
      have apart : Gap.text ⟨!false, sited.tabs⟩ = "\n" ++ Gap.text ⟨false, sited.tabs⟩ := by
        simp [Gap.text]
      change Lined serialization (done ++ [sited]) false (text ++ (Gap.text ⟨!false, sited.tabs⟩ ++ _))
      rw [apart]
      simpa only [String.append_assoc] using begun
  · rw [inLine] at lined
    rw [Gap.text_empty, String.empty_append]
    exact lined.next solid goesOn

/-- What stands in the bodies of a path, in a tree that is rendered with automatic newlines and
indentation. -/
def Path.standing (parameters : Parameters) (path : Path) : Standing where
  serialization := parameters.serialization
  doctype := parameters.doctype
  encoder := .markup
  exclusions := path.exclusions
  settings := path.settings

/-- The output of a document is made of the lines of tokens. -/
def Document.IsLined (document : Document) (done : List Sited) : Prop :=
  ∃ text, document.contents = some (utf8 text) ∧
    Lined document.serialization done document.format.atNewline text

/-- What is known of a document between two pieces of markup in the bodies of a path. -/
structure Lining (parameters : Parameters) (path : Path) (done : List Sited) (document : Document) :
    Prop where
  stands : document.standing = path.standing parameters
  unlimited : document.Unlimited
  idle : document.unfinished = none
  inLine : path.isVerbatim = true → document.format.atNewline = false
  lined : document.IsLined done

private theorem Format.atNewline_of_solid {token : Token} {serialization : Serialization}
    (solid : token.IsSolid serialization) (format : Format) (before : String) :
    (format.after (before ++ token.markup .markup serialization)).atNewline = false := by
  obtain ⟨init, last, spelled⟩ := List.eq_nil_or_concat _ |>.resolve_left solid.filled
  have other := (solid.unbroken last (by rw [spelled]; simp)).1
  rw [← Format.after_after, Format.after, spelled]
  simp [other]

namespace Document.IsLined
variable {document : Document} {done : List Sited}

theorem token (lined : document.IsLined done) {gap : Gap} {sited : Sited}
    (leads : gap.Leads document.format sited)
    (solid : sited.token.IsSolid document.serialization) :
    (document.wrote (gap.text ++
        sited.token.markup .markup document.serialization)).IsLined (done ++ [sited]) ∧
      (document.wrote (gap.text ++
        sited.token.markup .markup document.serialization)).format.atNewline = false := by
  obtain ⟨text, holds, lined⟩ := lined
  have inLine := Format.atNewline_of_solid solid document.format gap.text
  refine ⟨⟨text ++ (gap.text ++ sited.token.markup .markup document.serialization), ?_, ?_⟩, inLine⟩
  · rw [Document.contents_wrote holds, ← utf8_append]
  · rw [Document.format_wrote, inLine]
    exact lined.token leads solid

theorem breaks (lined : document.IsLined done) :
    (document.wrote document.format.breakGap.text).IsLined done := by
  cases breaks : document.format.wantsBreak with
  | false =>
    rw [Format.breakGap, breaks]
    change (document.wrote "").IsLined done
    rwa [document.wrote_empty]
  | true =>
    obtain ⟨text, holds, lined⟩ := lined
    have begun : document.format.atNewline = false := by
      rw [Format.wantsBreak, Bool.and_eq_true, Bool.not_eq_true'] at breaks
      exact breaks.2
    rw [Format.breakGap, breaks]
    refine ⟨text ++ "\n", ?_, ?_⟩
    · rw [Document.contents_wrote holds, ← utf8_append]
      rfl
    · rw [begun] at lined
      exact lined.ended

end Document.IsLined

namespace Lining
variable {parameters : Parameters} {path : Path} {done : List Sited} {document final : Document}

theorem serialization (lining : Lining parameters path done document) :
    document.serialization = parameters.serialization :=
  congrArg (fun standing => standing.serialization) lining.stands

theorem encoder (lining : Lining parameters path done document) : document.encoder = .markup :=
  congrArg (fun standing => standing.encoder) lining.stands

theorem suits (lining : Lining parameters path done document) : document.format.Suits path :=
  ⟨congrArg Standing.settings lining.stands, lining.inLine⟩

theorem suffixed (lining : Lining parameters path done document) (suffix : List Char) :
    Lining parameters path done { document with rawSuffix := suffix } :=
  ⟨lining.stands, lining.unlimited.of_sink rfl, lining.idle, lining.inLine, lining.lined⟩

theorem token (lining : Lining parameters path done document) {gap : Gap} {sited : Sited}
    (leads : gap.Leads document.format sited)
    (solid : sited.token.IsSolid parameters.serialization) :
    Lining parameters path (done ++ [sited]) (document.wrote (gap.text ++
        sited.token.markup .markup parameters.serialization)) ∧
      (document.wrote (gap.text ++
        sited.token.markup .markup parameters.serialization)).format.atNewline = false := by
  rw [← lining.serialization] at solid ⊢
  obtain ⟨lined, inLine⟩ := lining.lined.token leads solid
  exact ⟨⟨(document.standing_wrote _).trans lining.stands, lining.unlimited.wrote _, lining.idle,
    fun _ => inLine, lined⟩, inLine⟩

theorem next (lining : Lining parameters path done document)
    (inLine : document.format.atNewline = false) {sited : Sited}
    (solid : sited.token.IsSolid parameters.serialization) (goesOn : sited.startsLine = false) :
    Lining parameters path (done ++ [sited])
        (document.wrote (sited.token.markup .markup parameters.serialization)) ∧
      (document.wrote
        (sited.token.markup .markup parameters.serialization)).format.atNewline = false := by
  have written := lining.token (.inr ⟨goesOn, inLine, rfl⟩) solid
  rwa [Gap.text_empty, String.empty_append] at written

theorem breaks (lining : Lining parameters path done document) :
    Lining parameters path done (document.wrote document.format.breakGap.text) := by
  refine ⟨(document.standing_wrote _).trans lining.stands, lining.unlimited.wrote _, lining.idle, ?_,
    lining.lined.breaks⟩
  intro verbatim
  have plain : document.format.autoNewline = false := by
    rw [lining.suits.settings]
    exact Path.settings_plain verbatim
  rw [document.format.breakGap_fits.plain plain, Gap.text_empty, document.wrote_empty]
  exact lining.inLine verbatim

theorem ends (lining : Lining parameters path done document) (tag : Tag) :
    Lining parameters path done (document.wrote (document.format.endGap tag).text) := by
  unfold Format.endGap
  split
  case h_5 =>
    rw [Gap.text_empty, document.wrote_empty]
    exact lining
  all_goals exact lining.breaks

theorem endElement (lining : Lining parameters path done document)
    (inLine : document.format.atNewline = false) (tag : Tag) :
    Lining parameters path (done ++ [⟨.endTag tag, path⟩]) (document.endedTag tag) := by
  have ended : Lining parameters path (done ++ [⟨.endTag tag, path⟩]) (document.wrote tag.closing) :=
    (lining.next inLine (.endTag tag) (Sited.startsLine_endTag path tag)).1
  exact (ended.suffixed []).ends tag

theorem text (lining : Lining parameters path done document) {content : String}
    (plain : Text.Unbroken content.toList)
    (ran : (path.place.text content).run document = .ok () final) :
    Lining parameters path (done ++ (Node.text content).sited path) final := by
  by_cases empty : content = ""
  · subst empty
    rw [run_text lining.unlimited lining.idle] at ran
    have nothing : (Node.text "").sited path = [] := by
      rw [Node.sited]
      rfl
    rw [nothing, List.append_nil]
    split at ran
    · cases ran
    · cases ran
      exact lining
  · obtain ⟨-, suffix, rfl⟩ := text_ok lining.unlimited empty ran
    rw [lining.encoder, lining.serialization]
    have some : content.isEmpty = false := by simpa using empty
    rw [Node.sited, some, if_neg Bool.false_ne_true]
    have leads : document.format.indentGap.Leads document.format
        ⟨.text path.head? content, path⟩ :=
      lining.suits.indentGap_leads (Bool.or_false _) rfl (Sited.startsLine_text ..)
    exact (lining.token leads (.text path.head? plain empty)).1.suffixed suffix

theorem comment (lining : Lining parameters path done document) {content : String}
    (plain : Text.Unbroken content.toList)
    (ran : (Writing.comment content).run document = .ok () final) :
    Lining parameters path (done ++ (Node.comment content).sited path) final := by
  rw [Writing.comment, run_refuseInTag_bind lining.idle] at ran
  cases whole : isComment content with
  | false =>
    rw [whole] at ran
    cases ran
  | true =>
    rw [whole] at ran
    change (indentFresh 0 >>= fun _ => write ("<!--" ++ content ++ "-->")).run document = _ at ran
    rw [run_bind_ok (run_indentFresh lining.unlimited lining.idle),
      run_write (lining.unlimited.wrote _), Document.wrote_wrote] at ran
    cases ran
    have leads : document.format.indentGap.Leads document.format ⟨.comment content, path⟩ :=
      lining.suits.indentGap_leads (Bool.or_false _) rfl (Sited.startsLine_comment ..)
    rw [Node.sited]
    exact (lining.token leads (.comment plain)).1

section
variable {tag : Tag} {names : List String} {attributes : List (String × String)}

theorem bracket (lining : Lining parameters path done document)
    (solid : (Token.startTag tag attributes).IsSolid parameters.serialization)
    (isVoid : tag.definition.isVoid = false) :
    ∃ begun, Writing.bracket.run (document.begun tag
        (Encoder.markup.unfinishedTag parameters.serialization tag attributes)) = .ok () begun ∧
      Lining parameters path (done ++ [⟨.startTag tag attributes, path⟩]) begun ∧
      begun.format.atNewline = false := by
  refine ⟨_, run_complete lining.unlimited lining.idle tag _ ">", ?_⟩
  have written := lining.token (lining.suits.leadGap_leads tag attributes) solid
  rw [Token.markup, Encoder.startTag, if_neg (ne_true_of_eq_false isVoid)] at written
  exact written

theorem close (lining : Lining parameters path done document)
    (solid : (Token.startTag tag attributes).IsSolid parameters.serialization)
    (ran : (path.startTag tag names).close.run (document.begun tag
      (Encoder.markup.unfinishedTag parameters.serialization tag attributes)) = .ok () final) :
    Lining parameters path (done ++ (Node.element tag attributes []).sited path) final := by
  rw [Node.sited]
  cases isVoid : tag.definition.isVoid with
  | true =>
    have written := (lining.token (lining.suits.leadGap_leads tag attributes) solid).1
    rw [Token.markup, Encoder.startTag, if_pos isVoid] at written
    rw [run_close_void lining.unlimited lining.idle isVoid, lining.serialization,
      run_endLine written.unlimited written.idle] at ran
    cases ran
    exact written.ends tag
  | false =>
    obtain ⟨begun, marked, written, inLine⟩ := lining.bracket solid isVoid
    rw [StartTag.close, Path.startTag, if_neg (ne_true_of_eq_false isVoid), run_bind_ok marked,
      run_endElement written.unlimited written.idle] at ran
    cases ran
    rw [Node.sitedAll, List.nil_append, List.append_cons]
    exact written.endElement inLine tag

/-- Text goes on the line of the start tag before it. -/
theorem textInside (lining : Lining parameters path done document)
    (inLine : document.format.atNewline = false) {content : String}
    (plain : Text.Unbroken content.toList)
    (ran : (textInside (some tag) content).run document = .ok () final) :
    Lining parameters path (done ++ (Node.text content).sited (tag :: path)) final ∧
      final.format.atNewline = false := by
  obtain ⟨suffix, written⟩ | ⟨other, refused⟩ :=
    run_textInside lining.unlimited (some tag) content
  · rw [written, lining.encoder, lining.serialization] at ran
    cases ran
    rw [Node.sited]
    by_cases empty : content = ""
    · subst empty
      have nothing : (Token.text (some tag) "").markup .markup parameters.serialization = "" := by
        rw [Token.markup]
        exact ite_self _
      rw [nothing, document.wrote_empty]
      change Lining parameters path (done ++ []) _ ∧ _
      rw [List.append_nil]
      exact ⟨lining.suffixed suffix, inLine⟩
    · have some : content.isEmpty = false := by simpa using empty
      rw [some, if_neg Bool.false_ne_true]
      let sited : Sited := ⟨.text (Option.some tag) content, tag :: path⟩
      have solid : sited.token.IsSolid parameters.serialization := .text (Option.some tag) plain empty
      obtain ⟨gone, inLine⟩ := lining.next inLine solid (Sited.startsLine_text ..)
      exact ⟨gone.suffixed suffix, inLine⟩
  · rw [refused] at ran
    cases ran

private theorem onlyText (lining : Lining parameters path done document)
    (solid : (Token.startTag tag attributes).IsSolid parameters.serialization) {content : String}
    (plain : Text.Unbroken content.toList)
    (ran : ((path.startTag tag names).text content).run (document.begun tag
      (Encoder.markup.unfinishedTag parameters.serialization tag attributes)) = .ok () final) :
    Lining parameters path (done ++ (Node.element tag attributes [.text content]).sited path)
      final := by
  cases isVoid : tag.definition.isVoid with
  | true =>
    rw [StartTag.text, Path.startTag, if_pos isVoid] at ran
    cases ran
  | false =>
    obtain ⟨begun, marked, written, inLine⟩ := lining.bracket solid isVoid
    obtain ⟨error, -, refused⟩ | finishes := (path.startTag tag names).text_cases content
    · rw [refused] at ran
      cases ran
    · rw [finishes, run_bind_ok marked] at ran
      obtain ⟨⟨⟩, middle, spelled, ended⟩ := ok_of_bind ran
      obtain ⟨spelled, inLine⟩ := written.textInside inLine plain spelled
      have ends : (Writing.endElement tag).run middle = .ok () final := ended
      rw [run_endElement spelled.unlimited spelled.idle] at ends
      cases ends
      rw [Node.sited, if_neg (ne_true_of_eq_false isVoid), Node.sitedAll, Node.sitedAll,
        List.append_nil, List.append_cons, ← List.append_assoc]
      exact spelled.endElement inLine tag

end

section
variable {tag : Tag}

theorem entered (lining : Lining parameters path done document)
    (inLine : document.format.atNewline = false) (tag : Tag) :
    Lining parameters (tag :: path) done
      ((document.wrote (document.format.bodyGap tag).text).entered tag) := by
  have begun : Lining parameters path done (document.wrote (document.format.bodyGap tag).text) := by
    unfold Format.bodyGap
    split
    · exact lining.breaks
    · rwa [Gap.text_empty, document.wrote_empty]
  refine ⟨congrArg (·.inside tag) begun.stands, begun.unlimited.of_sink rfl, begun.idle, ?_,
    begun.lined⟩
  intro verbatim
  rcases Path.isVerbatim_cons.mp verbatim with own | around
  · have tied : document.format.bodyGap tag = .empty := by
      rw [Format.bodyGap, own]
      rfl
    rw [tied, Gap.text_empty, document.wrote_empty]
    exact inLine
  · exact begun.inLine around

theorem left (lining : Lining parameters (tag :: path) done document) :
    Lining parameters path done (document.left ⟨path.settings, path.exclusions.length⟩) where
  stands := left_standing (show document.standing = (path.standing parameters).inside tag from
    lining.stands)
  unlimited := lining.unlimited.of_sink rfl
  idle := lining.idle
  inLine verbatim := lining.inLine (Path.isVerbatim_cons.mpr (.inr verbatim))
  lined := lining.lined

theorem closed (lining : Lining parameters (tag :: path) done document) :
    Lining parameters path (done ++ [⟨.endTag tag, path⟩])
      (document.closed tag ⟨path.settings, path.exclusions.length⟩) := by
  have inLine (verbatim : tag.definition.layout = .verbatim) : document.format.atNewline = false :=
    lining.inLine (Path.isVerbatim_cons.mpr (.inl verbatim))
  have ended := (lining.left.token (lining.left.suits.closeGap_leads tag inLine) (.endTag tag)).1
  exact (ended.suffixed []).ends tag

/-- The tokens of a body are the first to be inside. -/
theorem openBody (lining : Lining parameters path done document) (names : List String)
    {attributes : List (String × String)}
    (solid : (Token.startTag tag attributes).IsSolid parameters.serialization)
    (isVoid : tag.definition.isVoid = false) :
    ∃ inner, (path.startTag tag names).openBody.run (document.begun tag
        (Encoder.markup.unfinishedTag parameters.serialization tag attributes)) =
      .ok { tag, place := Path.place (tag :: path),
            around := some ⟨path.settings, path.exclusions.length⟩ } inner ∧
      Lining parameters (tag :: path) (done ++ [⟨.startTag tag attributes, path⟩]) inner := by
  obtain ⟨begun, marked, opened, inLine⟩ := lining.bracket solid isVoid
  have around : (begun.wrote (begun.format.bodyGap tag).text).standing = path.standing parameters :=
    (begun.standing_wrote _).trans opened.stands
  refine ⟨_, ?_, opened.entered inLine tag⟩
  rw [StartTag.openBody_eq, Path.startTag, if_neg (ne_true_of_eq_false isVoid), run_bind_ok marked,
    run_bind_ok (run_beginBody opened.unlimited opened.idle tag), run_bind_ok (run_enter tag _)]
  have settings : path.settings = (path.standing parameters).settings := rfl
  have exclusions : path.exclusions = (path.standing parameters).exclusions := rfl
  rw [settings, exclusions, ← around]
  rfl

theorem body (lining : Lining parameters path done document) {names : List String}
    {attributes : List (String × String)}
    (solid : (Token.startTag tag attributes).IsSolid parameters.serialization)
    {content : Place → Writing Unit} {more : List Sited}
    (writes : ∀ {inner middle}, Lining parameters (tag :: path)
        (done ++ [⟨.startTag tag attributes, path⟩]) inner →
      (content (Path.place (tag :: path))).run inner = .ok () middle →
      Lining parameters (tag :: path) (done ++ [⟨.startTag tag attributes, path⟩] ++ more) middle)
    (ran : ((path.startTag tag names).writeBody (ε := Error) content).run (document.begun tag
      (Encoder.markup.unfinishedTag parameters.serialization tag attributes)) = .ok () final) :
    tag.definition.isVoid = false ∧ Lining parameters path
      (done ++ [⟨.startTag tag attributes, path⟩] ++ more ++ [⟨.endTag tag, path⟩]) final := by
  change ((path.startTag tag names).openBody >>= fun body =>
    (tryCatch (content body.place) fun failure => do
      body.abandon
      throw failure : Writing Unit) >>= fun _ => body.close).run _ = _ at ran
  cases isVoid : tag.definition.isVoid with
  | true =>
    rw [StartTag.openBody_eq, Path.startTag, if_pos isVoid] at ran
    cases ran
  | false =>
    refine ⟨rfl, ?_⟩
    obtain ⟨inner, opened, entered⟩ := lining.openBody names solid isVoid
    rw [run_bind_ok opened] at ran
    obtain ⟨⟨⟩, middle, tried, closes⟩ := ok_of_bind ran
    rw [Action.run_tryCatch] at tried
    split at tried
    case h_1 value last written =>
      cases tried
      have filled := writes entered written
      rw [Body.run_close filled.unlimited filled.idle rfl] at closes
      cases closes
      exact filled.closed
    case h_2 error last failed =>
      -- What fails in a body is thrown again once the body is abandoned.
      obtain ⟨⟨⟩, other, abandoned, rethrown⟩ := ok_of_bind tried
      cases rethrown

end

end Lining

mutual

theorem Node.write_lining {parameters : Parameters} {path : Path} {done : List Sited}
    {document final : Document} (node : Node) (lining : Lining parameters path done document)
    (plain : node.isUnbroken = true) (ran : (node.write path.place).run document = .ok () final) :
    Lining parameters path (done ++ node.sited path) final :=
  match node with
  | .text content => by
    rw [isUnbroken, decide_eq_true_eq] at plain
    rw [write] at ran
    exact lining.text plain ran
  | .comment content => by
    rw [isUnbroken, decide_eq_true_eq] at plain
    rw [write] at ran
    exact lining.comment plain ran
  | .element tag attributes children => by
    rw [isUnbroken, Bool.and_eq_true, List.all_eq_true] at plain
    rw [write_element, ← bind_assoc] at ran
    obtain ⟨start, begun, started, ran⟩ := ok_of_bind ran
    have agrees := startTag_agrees lining.unlimited lining.idle
      (congrArg (·.exclusions) lining.stands) tag attributes
    rw [started, lining.serialization, lining.encoder] at agrees
    obtain ⟨passed, ⟨names, rfl⟩, rfl⟩ := agrees
    have valid : Valid parameters.serialization attributes := by
      cases checked : path.check document.doctype tag with
      | ok value =>
        rw [checked] at passed
        exact Tag.valid_of_checkAttributes passed
      | error error =>
        rw [checked] at passed
        cases passed
    have solid : (Token.startTag tag attributes).IsSolid parameters.serialization :=
      .startTag valid fun entry member => of_decide_eq_true (plain.1 entry member)
    -- The children choose how the element is finished: with nothing, with a text, with a body.
    unfold StartTag.writeChildren at ran
    split at ran
    · exact lining.close solid ran
    · rename_i content
      have alone := plain.2
      rw [isUnbrokenAll, isUnbroken, Bool.and_eq_true, decide_eq_true_eq] at alone
      exact lining.onlyText solid alone.1 ran
    · obtain ⟨isVoid, written⟩ := lining.body solid
        (fun entered written => Node.writeAll_lining children entered plain.2 written) ran
      rw [sited, if_neg (ne_true_of_eq_false isVoid), List.append_cons, ← List.append_assoc]
      exact written
termination_by structural node

theorem Node.writeAll_lining {parameters : Parameters} {path : Path} {done : List Sited}
    {document final : Document} (nodes : List Node) (lining : Lining parameters path done document)
    (plain : Node.isUnbrokenAll nodes = true)
    (ran : (Node.writeAll path.place nodes).run document = .ok () final) :
    Lining parameters path (done ++ Node.sitedAll path nodes) final :=
  match nodes with
  | [] => by
    rw [Node.writeAll] at ran
    cases ran
    rwa [Node.sitedAll, List.append_nil]
  | node :: rest => by
    rw [Node.isUnbrokenAll, Bool.and_eq_true] at plain
    rw [Node.writeAll] at ran
    obtain ⟨⟨⟩, middle, written, ran⟩ := ok_of_bind ran
    rw [Node.sitedAll, ← List.append_assoc]
    exact Node.writeAll_lining rest (node.write_lining lining plain.1 written) plain.2 ran
termination_by structural nodes

end

theorem Lining.start {parameters : Parameters} (newlines : parameters.autoNewline = true)
    (indents : parameters.indent = true) :
    Lining parameters [] [] (.start {} parameters .markup) where
  stands := by
    have formatted : FormatSettings.mk parameters.autoNewline parameters.indent 0 =
        ⟨true, true, 0⟩ := by rw [newlines, indents]
    exact congrArg (fun settings => { Path.standing parameters [] with settings }) formatted
  unlimited := ⟨{}, rfl, .default⟩
  idle := rfl
  inLine := nofun
  lined := ⟨"", rfl, .nothing⟩

/-- A tree without newlines and tabs in its texts, comments and attribute values, rendered with
automatic newlines and indentation, is the lines of its tokens, in their order. Each line begins
with one tab for each block in whose body its first token is, and goes on with something other than
a tab. No line begins inside of a verbatim element, and outside of them each start tag begins a line
unless its element is inline or a line break. -/
theorem Node.rendered_lines_are_indented {parameters : Parameters}
    (newlines : parameters.autoNewline = true) (indents : parameters.indent = true) {node : Node}
    (plain : node.isUnbroken = true) {bytes : List UInt8}
    (rendered : node.render parameters = .ok bytes) :
    ∃ (text : String) (lines : List (List Sited)), bytes = utf8 text ∧
      lines.flatten = node.sited [] ∧
      Text.lines text.toList = lines.map (spellLine parameters.serialization) ∧
      ∀ line ∈ lines, IsIndented parameters.serialization line := by
  rw [Node.render, Action.run_bind] at rendered
  cases ran : (node.write .document).run (.start {} parameters .markup) with
  | error error final =>
    rw [ran] at rendered
    cases rendered
  | ok value final =>
    rw [ran] at rendered
    have lining := node.write_lining (.start newlines indents) plain ran
    obtain ⟨sink, last, finished, holds⟩ := run_finish lining.unlimited lining.idle
    obtain ⟨text, written, lined⟩ := lining.lined
    rw [lining.serialization] at lined
    obtain ⟨lines, same, spelled, indented⟩ := lined.lines_indented
    dsimp only at rendered
    rw [finished] at rendered
    cases rendered
    exact ⟨text, lines, Option.some.inj (holds.symm.trans written), same, spelled, indented⟩

/-- A block in an inline element is on a line of its own, and nothing is in a verbatim element. -/
theorem Node.blocks_in_division_are_indented :
    let node : Node := .element .div [] [.text "a",
      .element .ins [] [.element .p [] [.text "b"], .comment "c"],
      .element .pre [] [.text "d", .element .br [] [], .element .b [] []]]
    node.render .pretty = .ok (utf8
      "<div>\n\ta<ins>\n\t<p>b</p>\n\t<!--c--></ins>\n\t<pre>d<br><b></b></pre>\n</div>\n") ∧
    ∃ lines : List (List Sited), lines.flatten = node.sited [] ∧
      lines.map (spellLine .sgml) = ["<div>".toList, "\ta<ins>".toList, "\t<p>b</p>".toList,
        "\t<!--c--></ins>".toList, "\t<pre>d<br><b></b></pre>".toList, "</div>".toList] ∧
      ∀ line ∈ lines, IsIndented .sgml line := by
  intro node
  let text := "<div>\n\ta<ins>\n\t<p>b</p>\n\t<!--c--></ins>\n\t<pre>d<br><b></b></pre>\n</div>\n"
  have written : (node.render .pretty).toOption = some (utf8 text) := by
    decide +kernel
  cases rendered : node.render .pretty with
  | error error =>
    rw [rendered] at written
    cases written
  | ok bytes =>
    rw [rendered] at written
    obtain ⟨other, lines, same, flat, spelled, indented⟩ :=
      node.rendered_lines_are_indented rfl rfl (by decide +kernel) rendered
    have bytes_eq := Option.some.inj written
    obtain rfl : text = other := utf8_injective (bytes_eq.symm.trans same)
    have cut : Text.lines text.toList = ["<div>".toList, "\ta<ins>".toList, "\t<p>b</p>".toList,
        "\t<!--c--></ins>".toList, "\t<pre>d<br><b></b></pre>".toList, "</div>".toList] := by
      decide +kernel
    exact ⟨congrArg Except.ok bytes_eq, lines, flat, spelled.symm.trans cut, indented⟩

end HtmlWriter
