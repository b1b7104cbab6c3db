import HtmlWriter.Proofs.Parts

/-! What only prints. Most of what is written is one text after the other, each decided by the
document and none by its sink. That rejects nothing, and changes nothing but the sink and how
far the line has got. Layout prints blanks, and some of it indents the line. -/

namespace HtmlWriter
open Script Writing
variable {α ν : Type} {kind : Char → Prop} {offset? : Option Int64}

/-- Whether what was asked for is at fault, and neither the sink nor an unfinished start tag. -/
def Error.isRejection : Error → Bool
  | tagInProgress .. | sinkDetached | sink _ => false
  | illegalNesting .. | forbiddenDescendant .. | unsupportedElement .. | unsupportedAttribute ..
  | attributeNotAllowed .. | invalidAttributeValue .. | invalidAttributeName _
  | duplicateAttribute .. | invalidRawText _ | voidElement _ | invalidComment _ => true

def Error.Accepts (error : Error) : Prop := error.isRejection = false

/-- What the sink is to blame for, or that there is none. -/
inductive Error.OfSink : Error → Prop
  | detached : OfSink .sinkDetached
  | failed (fault : SinkFault) : OfSink (.sink fault)

theorem Error.OfSink.accepts {error : Error} (ofSink : error.OfSink) : error.Accepts := by
  cases ofSink <;> rfl

theorem Writing.write_throws (text : String) : Throws Error.OfSink (write text) := by
  intro document error final failed
  simp only [write, Action.always] at failed
  split at failed
  · cases failed
    exact .detached
  · split at failed
    · cases failed
    · cases failed
      exact .failed _

/-- An action that writes texts with characters of a kind in them, and indents lines by an offset
from their depth, if by any. -/
inductive Prints (kind : Char → Prop) (offset? : Option Int64) : {α : Type} → Writing α → Prop
  | write {text : String} (fits : ∀ c ∈ text.toList, kind c) : Prints kind offset? (write text)
  | pure {α : Type} (value : α) : Prints kind offset? (pure value : Writing α)
  | throw {α : Type} {error : Error} (accepts : error.Accepts) :
      Prints kind offset? (throw error : Writing α)
  | indent {offset : Int64} {wanted : Document → Bool} (asked : offset ∈ offset?)
      (fits : kind Format.indentUnit)
      (blind : ∀ document sink, wanted { document with sink } = wanted document) :
      Prints kind offset? (do
        let document ← get
        if wanted document then indentUnits (document.format.indentation offset))
  | read {α : Type} {next : Document → Writing α}
      (blind : ∀ document sink, next { document with sink } = next document)
      (rest : ∀ document, Prints kind offset? (next document)) :
      Prints kind offset? ((get : Writing Document) >>= next)
  | bind {α β : Type} {first : Writing α} {next : α → Writing β}
      (started : Prints kind offset? first) (rest : ∀ value, Prints kind offset? (next value)) :
      Prints kind offset? (first >>= next)

/-- What lays out markup, apart from the markup. -/
def IsBlank (c : Char) : Prop := c = '\n' ∨ c = '\t' ∨ c = ' '

private theorem Format.after_eq (format : Format) (written : String) :
    ∃ line, format.after written = { format with atNewline := line } := by
  unfold Format.after
  split
  · exact ⟨_, rfl⟩
  · exact ⟨format.atNewline, rfl⟩

namespace Prints

theorem any (text : String) : Prints (fun _ => True) none (Writing.write text) :=
  .write fun _ _ => trivial

theorem ite {condition : Prop} [Decidable condition] {yes no : Writing α}
    (first : Prints kind offset? yes) (other : Prints kind offset? no) :
    Prints kind offset? (if condition then yes else no) := by
  split
  · exact first
  · exact other

theorem mono {other : Char → Prop} {other? : Option Int64} {action : Writing α}
    (prints : Prints kind offset? action) (implies : ∀ c, kind c → other c)
    (asked : ∀ offset ∈ offset?, offset ∈ other?) : Prints other other? action := by
  induction prints with
  | write fits => exact .write fun c member => implies c (fits c member)
  | pure value => exact .pure value
  | throw accepts => exact .throw accepts
  | indent member fits blind => exact .indent (asked _ member) (implies _ fits) blind
  | read blind rest ih => exact .read blind ih
  | bind started rest ihStarted ihRest => exact .bind ihStarted ihRest

theorem widen {action : Writing α} (prints : Prints kind offset? action) :
    Prints (fun _ => True) offset? action :=
  prints.mono (fun _ _ => trivial) fun _ => id

theorem beside {action : Writing α} (prints : Prints kind none action) :
    Prints kind offset? action :=
  prints.mono (fun _ => id) nofun

theorem throws {action : Writing α} (prints : Prints kind offset? action) :
    Throws Error.Accepts action := by
  have written (text : String) : Throws Error.Accepts (Writing.write text) :=
    fun _ _ _ failed => (write_throws _ failed).accepts
  induction prints with
  | write fits => exact written _
  | pure value => exact .pure value
  | throw accepts => exact .throw accepts
  | indent asked fits blind =>
    exact .bind .get fun _ => .ite (.bind (.demand _) fun _ => .ite (written _) (.pure _)) (.pure _)
  | read blind rest ih => exact .bind .get ih
  | bind started rest ihStarted ihRest => exact .bind ihStarted ihRest

/-- Whatever neither depends on the sink nor on how far the line has got stays as it is. -/
theorem keeps {view : Document → ν} (blind : ∀ document sink line,
      view { document with sink, format := { document.format with atNewline := line } } =
        view document)
    {action : Writing α} (prints : Prints kind offset? action) : Keeps view action := by
  have written (text : String) : Keeps view (Writing.write text) := by
    intro document
    simp only [finalState, Writing.write, Action.always]
    cases document.sink with
    | none => rfl
    | some sink =>
      obtain ⟨line, written⟩ := document.format.after_eq text
      dsimp only
      generalize sink.writeAll _ = taken
      obtain ⟨sink, _ | fault⟩ := taken
      · exact written ▸ blind document (some sink) line
      · exact blind document (some sink) document.format.atNewline
  induction prints with
  | write fits => exact written _
  | pure value => exact .pure value
  | throw accepts => exact .throw _
  | indent asked fits blind =>
    exact .bind .get fun _ => .ite (.bind (.demand _) fun _ => .ite (written _) (.pure _)) (.pure _)
  | read blind rest ih => exact .bind .get ih
  | bind started rest ihStarted ihRest => exact .bind ihStarted ihRest

end Prints

namespace Writing

theorem refuseInTag_prints (attempt : Attempt) : Prints IsBlank none (refuseInTag attempt) := by
  refine .read (fun _ _ => rfl) fun document => ?_
  split
  · exact .throw rfl
  · exact .pure _

private theorem newlineText_prints : Prints IsBlank none (write "\n") :=
  .write fun c member => .inl (by simpa using member)

theorem freshLine_prints : Prints IsBlank none freshLine :=
  .bind (refuseInTag_prints _) fun _ => .read (fun _ _ => rfl) fun _ =>
    .ite newlineText_prints (.pure _)

private theorem tab_isBlank : IsBlank Format.indentUnit := .inr (.inl rfl)

theorem freshIndentedLine_prints (offset : Int64) :
    Prints IsBlank (some offset) (freshIndentedLine offset) :=
  .bind freshLine_prints.beside fun _ => .indent rfl tab_isBlank fun _ _ => rfl

theorem indentFresh_prints (offset : Int64) : Prints IsBlank (some offset) (indentFresh offset) :=
  .bind (refuseInTag_prints _).beside fun _ => .indent rfl tab_isBlank fun _ _ => rfl

theorem newline_prints : Prints IsBlank none newline :=
  .bind (refuseInTag_prints _) fun _ => newlineText_prints

theorem indent_prints (offset : Int64) : Prints IsBlank (some offset) (indent offset) :=
  .bind (refuseInTag_prints _).beside fun _ => .indent rfl tab_isBlank fun _ _ => rfl

theorem newlineIndent_prints (offset : Int64) :
    Prints IsBlank (some offset) (newlineIndent offset) :=
  .bind newline_prints.beside fun _ => indent_prints offset

theorem space_prints : Prints IsBlank none space :=
  .bind (refuseInTag_prints _) fun _ => .write fun c member => .inr (.inr (by simpa using member))

theorem raw_prints (markup : String) : Prints (fun _ => True) none (raw markup) :=
  .bind (refuseInTag_prints _).widen fun _ => .any markup

theorem encodedText_prints (text : String) : Prints (fun _ => True) none (encodedText text) :=
  .read (fun _ _ => rfl) fun _ => .any _

theorem xmlDeclaration_prints : Prints (fun _ => True) none xmlDeclaration :=
  .bind (refuseInTag_prints _).widen fun _ => .read (fun _ _ => rfl) fun _ =>
    .ite (.any _) (.pure _)

theorem doctypeDeclaration_prints : Prints (fun _ => True) none doctypeDeclaration := by
  refine .bind (refuseInTag_prints _).widen fun _ => .read (fun _ _ => rfl) fun document => ?_
  split
  · exact .bind (.any _) fun _ => .any _
  · exact .pure _

theorem lead_prints (tag : Tag) : Prints IsBlank (some 0) (lead tag) := by
  unfold lead
  split
  all_goals first | exact indentFresh_prints 0 | exact freshIndentedLine_prints 0

theorem beginBody_prints (tag : Tag) : Prints IsBlank none (beginBody tag) :=
  .ite freshLine_prints (.pure _)

theorem endLine_prints (tag : Tag) : Prints IsBlank none (endLine tag) := by
  unfold endLine
  split
  all_goals first | exact freshLine_prints | exact .pure _

end Writing

/-- What has to be judged, and is not written at once. -/
def Script.WriteCall.isJudged : WriteCall → Bool
  | text _ | comment _ | node _ => true
  | _ => false

def Script.WriteCall.indents? : WriteCall → Option Int64
  | newlineIndent offset | indent offset | freshIndentedLine offset | indentFresh offset =>
      some offset
  | text _ | comment _ | node _ => some 0
  | raw _ | space | newline | freshLine | xmlDeclaration | doctypeDeclaration => none

theorem Script.WriteCall.perform_prints {call : WriteCall} (plain : call.isJudged = false)
    (place : Place) : Prints (fun _ => True) call.indents? (call.perform place) := by
  cases call with
  | text content | comment content | node tree => cases plain
  | raw markup => exact raw_prints markup
  | space => exact space_prints.widen
  | newline => exact newline_prints.widen
  | newlineIndent offset => exact (newlineIndent_prints offset).widen
  | indent offset => exact (indent_prints offset).widen
  | freshLine => exact freshLine_prints.widen
  | freshIndentedLine offset => exact (freshIndentedLine_prints offset).widen
  | indentFresh offset => exact (indentFresh_prints offset).widen
  | xmlDeclaration => exact xmlDeclaration_prints
  | doctypeDeclaration => exact doctypeDeclaration_prints

private theorem StartTag.claimName_error {start : StartTag} {name : String} {error : Error}
    (refused : start.claimName name = .error error) :
    error = .duplicateAttribute name start.tag := by
  unfold claimName at refused
  dsimp only at refused
  split at refused <;> cases refused
  rfl

/-- A start tag claims the name of an attribute, which it refuses only a second time, and then only
prints. -/
theorem StartTag.emit_eq (start : StartTag) (emission : Emission) :
    ∃ (claimed : Except Error StartTag) (next : StartTag → Writing StartTag),
      (∀ error, claimed = .error error → ∃ name, error = .duplicateAttribute name start.tag) ∧
      start.emit emission = (MonadExcept.ofExcept claimed >>= next) ∧
      ∀ start, Prints (fun _ => True) none (next start) := by
  have claims (name : String) (error : Error) (refused : start.claimName name = .error error) :
      ∃ name, error = .duplicateAttribute name start.tag := ⟨name, claimName_error refused⟩
  cases emission with
  | nothing =>
    refine ⟨.ok start, pure, fun error refused => ?_, rfl, fun start => .pure start⟩
    cases refused
  | valued name value =>
    refine ⟨start.claimName name, _, claims name, rfl, fun claimed => ?_⟩
    exact .read (fun _ _ => rfl) fun _ => .bind (.any _) fun _ => .bind (.any _) fun _ =>
      .bind (.any _) fun _ => .bind (.any _) fun _ => .bind (.any _) fun _ => .pure _
  | flag name =>
    refine ⟨start.claimName name, _, claims name, rfl, fun claimed => ?_⟩
    refine .bind (.any _) fun _ => .bind (.any _) fun _ => .read (fun _ _ => rfl) fun _ =>
      .ite ?_ (.pure _)
    exact .bind (.any _) fun _ => .bind (.any _) fun _ => .bind (.any _) fun _ => .pure _

end HtmlWriter
