import HtmlWriter.Proofs.Reading

/-! Escaping as a code. Every character is written on its own, as itself or as a reference, and
decoding the references gives the text back. The marks that would end a text or a value are not
among what is written, and an ampersand there begins a reference that stands for a character of
the text. -/

namespace HtmlWriter
open Escape Reading

private theorem nil_or_past {mark : Char} {piece rest before after : List Char}
    (once : mark ∉ piece.tail) (split : piece ++ rest = before ++ mark :: after) :
    before = [] ∨ ∃ more, before = piece ++ more ∧ rest = more ++ mark :: after := by
  rcases List.append_eq_append_iff.mp split with ⟨more, past, later⟩ | ⟨more, within, later⟩
  · exact .inr ⟨more, past, later⟩
  · cases more with
    | nil =>
      rw [List.append_nil] at within
      rw [List.nil_append] at later
      exact .inr ⟨[], by rw [List.append_nil, within], by rw [← later]; rfl⟩
    | cons c more =>
      obtain ⟨rfl, -⟩ := List.cons.inj later
      cases before with
      | nil => exact .inl rfl
      | cons d before =>
        refine absurd ?_ once
        rw [within, List.cons_append, List.tail_cons]
        exact List.mem_append_right _ (List.mem_cons_self ..)

namespace Reading
variable {reference : Char → Option String}

/-- A character is written without an ampersand past its beginning. -/
private theorem Refers.expand_tail (refers : Refers reference) (c : Char) :
    '&' ∉ (expand reference c).tail := by
  unfold expand
  cases found : reference c with
  | some text =>
    obtain ⟨name, spelled, -, known⟩ := refers.known c text found
    have free : '&' ∉ name := by
      unfold referred? at known
      split at known <;> cases known <;> decide
    change '&' ∉ text.toList.tail
    rw [spelled, List.cons_append, List.tail_cons, List.mem_append, not_or]
    exact ⟨free, by decide⟩
  | none => exact List.not_mem_nil

theorem Refers.ampersand (refers : Refers reference) {chars before after : List Char}
    (split : chars.flatMap (expand reference) = before ++ '&' :: after) :
    ∃ left c right text, chars = left ++ c :: right ∧ reference c = some text ∧
      before = left.flatMap (expand reference) ∧
      '&' :: after = text.toList ++ right.flatMap (expand reference) := by
  induction chars generalizing before with
  | nil => exact absurd split (by simp)
  | cons c rest ih =>
    rw [List.flatMap_cons] at split
    rcases nil_or_past (refers.expand_tail c) split with rfl | ⟨more, rfl, later⟩
    · unfold expand at split
      cases found : reference c with
      | some text =>
        rw [found] at split
        exact ⟨[], c, rest, text, rfl, found, rfl, split.symm⟩
      | none =>
        rw [found] at split
        obtain rfl : c = '&' := (List.cons.inj split).1
        exact absurd found refers.plain
    · obtain ⟨left, d, right, text, rfl, found, rfl, here⟩ := ih later
      exact ⟨c :: left, d, right, text, rfl, found, rfl, here⟩

end Reading

/-- An encoding that writes characters by their references where they have one, and that is
undone by decoding the references. -/
structure Reversible (reference : Char → Option String) (encode : String → String) : Prop where
  substitutes (content : String) :
    (encode content).toList = content.toList.flatMap (expand reference)
  joins (first second : String) : encode (first ++ second) = encode first ++ encode second
  /-- Where an ampersand is written, a character with a reference is being written. -/
  refers (content before after : String) (split : encode content = before ++ ("&" ++ after)) :
    ∃ left c right text, content = left ++ (String.singleton c ++ right) ∧
      reference c = some text ∧ before = encode left ∧ "&" ++ after = text ++ encode right
  decodes (content : String) : decode? (encode content).toList = some content

theorem Reading.Refers.reversible {reference : Char → Option String} (refers : Refers reference) :
    Reversible reference (escape reference) where
  substitutes := toList_escape reference
  joins := escape_append reference
  refers content before after split := by
    have chars : content.toList.flatMap (expand reference) =
        before.toList ++ '&' :: after.toList := by
      rw [← toList_escape, split, String.toList_append, String.toList_append]
      rfl
    obtain ⟨left, c, right, text, spelled, found, past, here⟩ := refers.ampersand chars
    refine ⟨String.ofList left, c, String.ofList right, text, ?_, found, ?_, ?_⟩
    all_goals apply String.toList_injective
    · simp [spelled]
    · rw [toList_escape, String.toList_ofList, past]
    · rw [String.toList_append, String.toList_append, toList_escape, String.toList_ofList,
        String.toList_ofList, ← here]
      rfl
  decodes := refers.decode?_escape

/-- Text and values are escaped character by character, and can be decoded. No bracket is left in
a text and no double quote in a value; and of what an XML reader would stop at or change within a
value, neither the bracket nor a newline nor a tab. -/
theorem markup_escapes_reversibly (serialization : Serialization) :
    Reversible (textReference serialization) (Encoder.markup.text serialization) ∧
    Reversible (valueReference serialization) (Encoder.markup.value serialization) ∧
    (∀ content, '<' ∉ (Encoder.markup.text serialization content).toList ∧
      '>' ∉ (Encoder.markup.text serialization content).toList) ∧
    (∀ value, '"' ∉ (Encoder.markup.value serialization value).toList) ∧
    ∀ value, '<' ∉ (Encoder.markup.value .xml value).toList ∧
      '\n' ∉ (Encoder.markup.value .xml value).toList ∧
      '\t' ∉ (Encoder.markup.value .xml value).toList := by
  have texts := textReference_refers serialization
  have values := valueReference_refers .xml
  refine ⟨texts.reversible, (valueReference_refers serialization).reversible, fun content => ?_,
    quote_free serialization, fun value => ⟨?_, ?_, ?_⟩⟩
  · exact ⟨bracket_free serialization content, texts.free rfl (by nofun) content⟩
  · exact values.free rfl (by nofun) value
  · exact values.free rfl (by nofun) value
  · exact values.free rfl (by nofun) value

end HtmlWriter
