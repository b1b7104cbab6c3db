import HtmlWriter.Proofs.Calls
import HtmlWriter.Proofs.Capacity
import HtmlWriter.Proofs.Formatting

/-! Compact markup. Without automatic newlines a tree is written as one text, which is put together
from the texts of its parts and depends on no state. Every sink takes it that has room for it, and
indentation plays no part. -/

namespace HtmlWriter
open Writing

theorem Tag.isRaw_iff {tag : Tag} {serialization : Serialization} :
    tag.isRaw serialization = true ↔ serialization = .sgml ∧ (tag = .script ∨ tag = .style) := by
  constructor
  · intro raw
    have content := Tag.script_or_style raw
    rw [Tag.isRaw, Bool.and_eq_true, beq_iff_eq] at raw
    exact ⟨raw.2, content⟩
  · rintro ⟨rfl, rfl | rfl⟩
    all_goals rfl

namespace Node

mutual

/-- What a piece of markup reads, written inside of an element or at the top level. -/
def compact (encoder : Encoder) (serialization : Serialization) (parent : Option Tag) :
    Node → String
  | .text content =>
      if serialization = .sgml ∧ (parent = some .script ∨ parent = some .style) then content
      else encoder.text serialization content
  | .comment content => "<!--" ++ content ++ "-->"
  | .element tag attributes children =>
      "<" ++ tag.name ++
        (if tag = .html ∧ serialization = .xml then " xmlns=\"" ++ xhtmlNamespace ++ "\"" else "") ++
        String.join (attributes.map fun entry =>
          " " ++ entry.1 ++ "=\"" ++ encoder.value serialization entry.2 ++ "\"") ++
        if tag.definition.isVoid then serialization.selfClose
        else ">" ++ compactAll encoder serialization (some tag) children ++ "</" ++ tag.name ++ ">"

def compactAll (encoder : Encoder) (serialization : Serialization) (parent : Option Tag) :
    List Node → String
  | [] => ""
  | node :: rest =>
      compact encoder serialization parent node ++ compactAll encoder serialization parent rest

end

section
variable {encoder : Encoder} {serialization : Serialization}

theorem markup_text (parent : Option Tag) (content : String) :
    (Token.text parent content).markup encoder serialization =
      (Node.text content).compact encoder serialization parent := by
  rw [Token.markup, compact]
  congr 1
  cases parent with
  | none => simp
  | some tag => simp [Tag.isRaw_iff]

private theorem compact_empty (empties : encoder.text serialization "" = "") (parent : Option Tag) :
    (Node.text "").compact encoder serialization parent = "" := by
  rw [compact, empties, ite_self]

private theorem unfinishedTag_eq (tag : Tag) (attributes : List (String × String)) :
    encoder.unfinishedTag serialization tag attributes =
      "<" ++ tag.name ++
        (if tag = .html ∧ serialization = .xml then " xmlns=\"" ++ xhtmlNamespace ++ "\"" else "") ++
        String.join (attributes.map fun entry =>
          " " ++ entry.1 ++ "=\"" ++ encoder.value serialization entry.2 ++ "\"") := by
  simp only [Encoder.unfinishedTag, Tag.opening, Tag.isNamespaced, Bool.and_eq_true,
    decide_eq_true_eq]
  rfl

mutual

/-- The tokens of a piece of markup, one after another, read as it does. An empty text has no
token, and reads as nothing. -/
private theorem join_tokens (empties : encoder.text serialization "" = "") (parent : Option Tag)
    (tight : Bool) (node : Node) :
    String.join ((node.tokens parent tight).map (·.token.markup encoder serialization)) =
      node.compact encoder serialization parent :=
  match node with
  | .text content => by
    rw [tokens]
    cases isEmpty : content.isEmpty with
    | true =>
      obtain rfl : content = "" := String.isEmpty_iff.mp isEmpty
      rw [compact_empty empties]
      rfl
    | false =>
      rw [if_neg Bool.false_ne_true, ← markup_text]
      simp
  | .comment content => by
    simp [tokens, compact, Token.markup]
  | .element tag attributes children => by
    rw [tokens, compact, ← unfinishedTag_eq, List.map_cons, String.join_cons, Token.markup,
      Encoder.startTag]
    cases tag.definition.isVoid with
    | true => simp
    | false =>
      -- Where gaps may stand makes no difference, since a token does not know of them.
      have inside := join_tokensAll empties (some tag)
        (tight || tag.definition.layout == .verbatim || isRun children) children
      rw [if_neg Bool.false_ne_true, if_neg Bool.false_ne_true, if_neg Bool.false_ne_true,
        List.map_append, String.join_append, inside]
      simp [Token.markup, Tag.closing, String.append_assoc]
termination_by structural node

private theorem join_tokensAll (empties : encoder.text serialization "" = "") (parent : Option Tag)
    (tight : Bool) (nodes : List Node) :
    String.join ((tokensAll parent tight nodes).map (·.token.markup encoder serialization)) =
      compactAll encoder serialization parent nodes :=
  match nodes with
  | [] => by
    rw [tokensAll, compactAll]
    rfl
  | node :: rest => by
    rw [tokensAll, compactAll, List.map_append, String.join_append,
      join_tokens empties parent tight node, join_tokensAll empties parent tight rest]
termination_by structural nodes

end
end

end Node

/-- A document without automatic newlines. -/
def Document.unbroken (sink : Sink) (parameters : Parameters) (indent : Bool) (encoder : Encoder) :
    Document :=
  .start sink { parameters with autoNewline := false, indent } encoder

theorem Node.write_agrees_compact (parameters : Parameters) (indent : Bool) {encoder : Encoder}
    (empties : encoder.text parameters.serialization "" = "") (node : Node) :
    Agrees (node.check parameters.serialization parameters.doctype [] "")
      (fun _ final => final.contents =
        some (utf8 (node.compact encoder parameters.serialization none)))
      ((node.write .document).run (.unbroken {} parameters indent encoder)) := by
  have here := start_at { parameters with autoNewline := false, indent } encoder true
  refine (node.write_agrees here ⟨rfl, fun _ => rfl, empties⟩).mono fun _ final ended => ?_
  obtain ⟨laid, pending, same, spelled, -, -, closed⟩ := ended.laid
  have text : spell encoder parameters.serialization laid =
      node.compact encoder parameters.serialization none := by
    rw [spell_eq_plain encoder parameters.serialization same, Node.plain]
    exact join_tokens empties none false node
  rw [spelled, ended.encoder, ended.serialization, closed rfl, Gap.text_empty, String.append_empty]
  exact congrArg (fun text => some (utf8 text)) text

/-- A run that adds these bytes to a sink, unless the verdict is bad or there is no room for them. -/
def Delivers (sink : Sink) (verdict : Except Error Unit) (bytes : List UInt8) :
    EStateM.Result Error Document Unit → Prop
  | .ok _ final => (verdict = .ok () ∧ sink.Holds bytes.length) ∧
      final.contents = some (sink.contents ++ bytes)
  | .error error _ => (verdict = .ok () → ¬sink.Holds bytes.length) ∧
      (sink.Accepts → verdict = .error error)

private theorem Agrees.delivers {origin : Sink} {checked : Except Error Unit} {bytes : List UInt8}
    {short long : EStateM.Result Error Document Unit}
    (agrees : Agrees checked (fun _ final => final.contents = some bytes) long)
    (along : Alongside origin {} short long) : Delivers origin checked bytes short := by
  have held {final : Document} {taken : List UInt8}
      (present : final.sink = some (({} : Sink).filled taken))
      (written : final.contents = some bytes) : taken = bytes := by
    rw [Document.contents, present, Option.map_some, Sink.contents_filled] at written
    exact Option.some.inj written
  have ends {taken : List UInt8} (accepts : origin.Accepts) : ¬(origin.filled taken).Spent :=
    (accepts.filled taken).not_spent
  cases along with
  | ok twins =>
    obtain ⟨passed, written⟩ := agrees
    obtain ⟨taken, room, rfl, present⟩ := twins
    obtain rfl := held present written
    refine ⟨⟨passed, room⟩, ?_⟩
    rw [Document.contents, Option.map_some, Sink.contents_filled]
  | error twins =>
    obtain rfl : checked = _ := agrees
    refine ⟨?_, fun _ => rfl⟩
    rintro ⟨⟩
  | partedOk parted =>
    obtain ⟨passed, written⟩ := agrees
    obtain ⟨taken, more, missing, room, spent, -, present⟩ := parted
    obtain rfl := held present written
    exact ⟨fun _ => spent.not_holds missing, fun accepts => (ends accepts spent).elim⟩
  | partedError parted =>
    obtain rfl : checked = _ := agrees
    obtain ⟨taken, more, missing, room, spent, -, present⟩ := parted
    refine ⟨?_, fun accepts => (ends accepts spent).elim⟩
    rintro ⟨⟩

/-- A tree is written if it passes the check and there is room for its compact text. Then that is
what was written, and nothing else, whether lines are indented or not. Where there is always room,
the error is the one of the check. -/
theorem Node.written_compactly (sink : Sink) (parameters : Parameters) (indent : Bool)
    {encoder : Encoder} (empties : encoder.text parameters.serialization "" = "") (node : Node) :
    ((node.write .document).verdict (.unbroken sink parameters indent encoder) = .ok () ↔
      node.check parameters.serialization parameters.doctype [] "" = .ok () ∧
        sink.Holds (utf8 (node.compact encoder parameters.serialization none)).length) ∧
    (∀ final, (node.write .document).run (.unbroken sink parameters indent encoder) = .ok () final →
      final.contents =
        some (sink.contents ++ utf8 (node.compact encoder parameters.serialization none))) ∧
    (sink.Accepts → (node.write .document).verdict (.unbroken sink parameters indent encoder) =
      node.check parameters.serialization parameters.doctype [] "") := by
  have along : Alongside sink {}
      ((node.write .document).run (.unbroken sink parameters indent encoder))
      ((node.write .document).run (.unbroken {} parameters indent encoder)) :=
    (node.write_streams .document).alongside Sink.Unlimited.default.accepts (.start ..)
  have ends := (node.write_agrees_compact parameters indent empties).delivers along
  rw [Writing.verdict]
  generalize (node.write .document).run (.unbroken sink parameters indent encoder) = result at ends
  cases result with
  | ok value final =>
    obtain ⟨good, written⟩ := ends
    refine ⟨iff_of_true rfl good, ?_, fun _ => good.1.symm⟩
    rintro _ ⟨⟩
    exact written
  | error error final =>
    obtain ⟨fails, same⟩ := ends
    refine ⟨iff_of_false ?_ ?_, ?_, fun accepts => (same accepts).symm⟩
    · rintro ⟨⟩
    · rintro ⟨passed, room⟩
      exact fails passed room
    · rintro _ ⟨⟩

/-- A division with something of each kind in it. -/
def Node.assorted : Node :=
  .element .div [("id", "\"1\""), ("title", "")] [.text "é < e", .element .br [] [],
    .element .script [] [.text "é < e"], .comment "done"]

/-- In the script alone nothing is encoded. -/
theorem Node.assorted_reads_compactly : Encoder.ascii.text .sgml "" = "" ∧
    ∀ indent, ∃ final,
      (assorted.write .document).run (.unbroken {} {} indent .ascii) = .ok () final ∧
        final.contents = some (utf8 ("<div id=\"&quot;1&quot;\" title=\"\">&#xe9; &lt; e<br>" ++
          "<script>é < e</script><!--done--></div>")) := by
  have empties : Encoder.ascii.text .sgml "" = "" := by rfl
  refine ⟨empties, fun indent => ?_⟩
  obtain ⟨succeeds, written, -⟩ := written_compactly {} {} indent empties assorted
  have passed : assorted.check .sgml .html5 [] "" = .ok () := by rfl
  have reads : assorted.compact .ascii .sgml none =
      "<div id=\"&quot;1&quot;\" title=\"\">&#xe9; &lt; e<br>" ++
        "<script>é < e</script><!--done--></div>" := by rfl
  obtain ⟨⟨⟩, final, ran⟩ := Writing.ok_of_verdict
    (succeeds.mpr ⟨passed, Sink.Unlimited.default.accepts.holds _⟩)
  refine ⟨final, ran, ?_⟩
  rw [← reads]
  exact written final ran

end HtmlWriter
