import HtmlWriter.Proofs.Gaps

/-! Markup as tokens. A tree has the tokens that its plain form is cut into, each with
whether formatting may put a gap before it; and what is written is these tokens, with gaps
only where they may be. -/

namespace HtmlWriter

def Tag.opening (tag : Tag) (serialization : Serialization) : String :=
  "<" ++ tag.name ++
    if tag.isNamespaced serialization then " xmlns=\"" ++ xhtmlNamespace ++ "\"" else ""

def Tag.closing (tag : Tag) : String := "</" ++ tag.name ++ ">"

def Encoder.attribute (encoder : Encoder) (serialization : Serialization)
    (entry : String × String) : String :=
  " " ++ entry.1 ++ "=\"" ++ encoder.value serialization entry.2 ++ "\""

def Encoder.unfinishedTag (encoder : Encoder) (serialization : Serialization) (tag : Tag)
    (attributes : List (String × String)) : String :=
  tag.opening serialization ++ String.join (attributes.map (encoder.attribute serialization))

def Encoder.startTag (encoder : Encoder) (serialization : Serialization) (tag : Tag)
    (attributes : List (String × String)) : String :=
  encoder.unfinishedTag serialization tag attributes ++
    if tag.definition.isVoid then serialization.selfClose else ">"

/-- A piece of markup that no gap may be put into. -/
inductive Token
  | startTag (tag : Tag) (attributes : List (String × String))
  | endTag (tag : Tag)
  | text (parent : Option Tag) (content : String)
  | comment (content : String)
deriving DecidableEq, Repr

def Token.markup (encoder : Encoder) (serialization : Serialization) : Token → String
  | startTag tag attributes => encoder.startTag serialization tag attributes
  | endTag tag => tag.closing
  | text parent content =>
      if parent.any (·.isRaw serialization) then content else encoder.text serialization content
  | comment content => "<!--" ++ content ++ "-->"

structure Placed where
  token : Token
  /-- Whether it directly follows the token before it. -/
  tight : Bool
deriving DecidableEq, Repr

namespace Node

/-- Whether the body of an element with these children is written without any gap: if there
is nothing in it, or a text alone. -/
def isRun : List Node → Bool
  | [] | [text _] => true
  | _ => false

mutual

/-- The tokens of a piece of markup. Inside an element no gap is allowed where none is
around it, where the layout is verbatim, and where the body is a run. -/
def tokens (parent : Option Tag) (tight : Bool) : Node → List Placed
  | .text content => if content.isEmpty then [] else [⟨.text parent content, tight⟩]
  | .comment content => [⟨.comment content, tight⟩]
  | .element tag attributes children =>
      let inside := tight || tag.definition.layout == .verbatim || isRun children
      ⟨.startTag tag attributes, tight⟩ ::
        if tag.definition.isVoid then []
        else tokensAll (some tag) inside children ++ [⟨.endTag tag, inside⟩]

def tokensAll (parent : Option Tag) (tight : Bool) : List Node → List Placed
  | [] => []
  | node :: rest => tokens parent tight node ++ tokensAll parent tight rest

end

end Node

/-- A token with the gap before it, which is empty where none is allowed. -/
structure Spaced extends Placed where
  gap : Gap
  tied : tight → gap = .empty

def spell (encoder : Encoder) (serialization : Serialization) (laid : List Spaced) : String :=
  String.join (laid.map fun spaced => spaced.gap.text ++ spaced.token.markup encoder serialization)

private theorem spell_append (encoder : Encoder) (serialization : Serialization)
    (first second : List Spaced) :
    spell encoder serialization (first ++ second) =
      spell encoder serialization first ++ spell encoder serialization second := by
  simp only [spell, List.map_append, String.join_append]

/-- What a document holds is tokens with their gaps, and then perhaps a newline that belongs
to the gap before the next token. Where the next token has to be tight, there is none. -/
def Laid (tight : Bool) (document : Document) (tokens : List Placed) : Prop :=
  ∃ (laid : List Spaced) (pending : Gap),
    laid.map Spaced.toPlaced = tokens ∧
    document.contents = some
      (utf8 (spell document.encoder document.serialization laid ++ pending.text)) ∧
    pending.tabs = 0 ∧
    (pending.newline → document.format.atNewline) ∧
    (tight → pending = .empty)

namespace Laid
variable {tight : Bool} {document other : Document} {tokens : List Placed}

theorem congr (laid : Laid tight document tokens) (sink : other.sink = document.sink)
    (encoder : other.encoder = document.encoder)
    (serialization : other.serialization = document.serialization)
    (atNewline : other.format.atNewline = document.format.atNewline) :
    Laid tight other tokens := by
  obtain ⟨spaced, pending, same, holds, rest⟩ := laid
  refine ⟨spaced, pending, same, ?_, ?_⟩
  · rw [encoder, serialization, ← holds, Document.contents, sink, Document.contents]
  · rwa [atNewline]

/-- The gap of the next token is what is pending and what is written before it. -/
theorem token (laid : Laid tight document tokens) {gap : Gap}
    (breaks : gap.newline → document.format.atNewline = false) (tied : tight → gap = .empty)
    (token : Token) (next : Bool) :
    Laid next (document.wrote
        (gap.text ++ token.markup document.encoder document.serialization))
      (tokens ++ [⟨token, tight⟩]) := by
  obtain ⟨spaced, pending, rfl, holds, tabs, started, closed⟩ := laid
  obtain ⟨newline, count⟩ := pending
  obtain rfl : count = 0 := tabs
  have once : Gap.text ⟨newline || gap.newline, gap.tabs⟩ = Gap.text ⟨newline, 0⟩ ++ gap.text := by
    cases pending : newline with
    | false => simp [Gap.text]
    | true =>
      have stays : gap.newline = false := by
        rw [Bool.eq_false_iff]
        intro again
        have stopped := breaks again
        rw [started pending] at stopped
        cases stopped
      simp [Gap.text, stays]
  have together (held : tight = true) : (⟨newline || gap.newline, gap.tabs⟩ : Gap) = .empty := by
    have none : newline = false := congrArg Gap.newline (closed held)
    rw [none, tied held]
    rfl
  refine ⟨spaced ++ [⟨⟨token, tight⟩, ⟨newline || gap.newline, gap.tabs⟩, together⟩], .empty, ?_, ?_,
    rfl, fun waits => absurd waits Bool.false_ne_true, fun _ => rfl⟩
  · simp
  · rw [Document.contents_wrote holds, ← utf8_append, spell_append]
    simp [spell, once, String.append_assoc]

/-- A newline may wait for the next token, unless that has to be tight. -/
theorem line (laid : Laid tight document tokens) {gap : Gap} (tabs : gap.tabs = 0)
    (breaks : gap.newline → document.format.atNewline = false) (tied : tight → gap = .empty) :
    Laid tight (document.wrote gap.text) tokens := by
  obtain ⟨newline, count⟩ := gap
  obtain rfl : count = 0 := tabs
  cases newline with
  | false =>
    change Laid tight (document.wrote "") tokens
    rwa [document.wrote_empty]
  | true =>
    obtain ⟨spaced, pending, same, holds, tabs, started, closed⟩ := laid
    have none : pending = .empty := by
      obtain ⟨newline, count⟩ := pending
      obtain rfl : count = 0 := tabs
      cases newline with
      | false => rfl
      | true => exact absurd (started rfl) (by rw [breaks rfl]; exact Bool.false_ne_true)
    subst none
    refine ⟨spaced, ⟨true, 0⟩, same, ?_, rfl, fun _ => rfl, tied⟩
    rw [Document.contents_wrote holds, ← utf8_append, Gap.text_empty, String.append_empty]
    rfl

end Laid
end HtmlWriter
