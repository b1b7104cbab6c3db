import HtmlWriter.Serialization

/-! Escaping: the characters that markup reads as its own are written as references.
The main statements say that escaping works character by character, and that escaping a
concatenation is the concatenation of the escapes. -/

namespace HtmlWriter.Escape

/-- The reference for a character of text content. XML has no predefined name for the
non-breaking space, so there it stays as it is. -/
def textReference (serialization : Serialization) (c : Char) : Option String :=
  match c with
  | '&' => some "&amp;"
  | '<' => some "&lt;"
  | '>' => some "&gt;"
  | '\u00a0' => if serialization = .sgml then some "&nbsp;" else none
  | _ => none

/-- The reference for a character of a double-quoted attribute value. An XML reader
turns a literal newline or tab there into a space, so in XML these are referred to. -/
def valueReference (serialization : Serialization) (c : Char) : Option String :=
  match c with
  | '&' => some "&amp;"
  | '"' => some "&quot;"
  | '<' => if serialization = .xml then some "&lt;" else none
  | '\u00a0' => if serialization = .sgml then some "&nbsp;" else none
  | '\n' => if serialization = .xml then some "&#10;" else none
  | '\t' => if serialization = .xml then some "&#9;" else none
  | _ => none

/-- What is written for one character: its reference, or itself. -/
def expand (reference : Char → Option String) (c : Char) : List Char :=
  match reference c with
  | some text => text.toList
  | none => [c]

/-- Replace the characters that have a reference. Content without any is returned
unchanged; otherwise everything before the first is copied as it stands. -/
def escape (reference : Char → Option String) (content : String) : String :=
  let plain (c : Char) : Bool := (reference c).isNone
  match content.toList.dropWhile plain with
  | [] => content
  | rest => String.ofList (content.toList.takeWhile plain ++ rest.flatMap (expand reference))

def text (serialization : Serialization) (content : String) : String :=
  escape (textReference serialization) content

/-- An attribute value as it is written between double quotes. -/
def value (serialization : Serialization) (value : String) : String :=
  escape (valueReference serialization) value

private theorem flatMap_expand_plain (reference : Char → Option String) (chars : List Char)
    (plain : ∀ c ∈ chars, reference c = none) : chars.flatMap (expand reference) = chars := by
  induction chars with
  | nil => rfl
  | cons c rest ih =>
    have here : expand reference c = [c] := by simp [expand, plain c (by simp)]
    rw [List.flatMap_cons, here, ih (fun d member => plain d (by simp [member]))]
    rfl

/-- The shortcut and the copied beginning agree with replacing character by
character. -/
theorem toList_escape (reference : Char → Option String) (content : String) :
    (escape reference content).toList = content.toList.flatMap (expand reference) := by
  let plain (c : Char) : Bool := (reference c).isNone
  have copied : (content.toList.takeWhile plain).flatMap (expand reference) =
      content.toList.takeWhile plain := by
    apply flatMap_expand_plain
    intro c member
    have holds : plain c = true := List.all_eq_true.mp List.all_takeWhile c member
    simpa [plain] using holds
  have whole : content.toList.flatMap (expand reference) =
      content.toList.takeWhile plain ++
        (content.toList.dropWhile plain).flatMap (expand reference) := by
    have split := List.takeWhile_append_dropWhile (p := plain) (l := content.toList)
    conv => lhs; rw [← split, List.flatMap_append, copied]
  show (match content.toList.dropWhile plain with
    | [] => content
    | rest => String.ofList
        (content.toList.takeWhile plain ++ rest.flatMap (expand reference))).toList = _
  cases found : content.toList.dropWhile plain with
  | nil =>
    have unchanged := List.takeWhile_append_dropWhile (p := plain) (l := content.toList)
    rw [found, List.append_nil] at unchanged
    rw [whole, found, unchanged]
    simp
  | cons c rest => simp [whole, found]

/-- Escaping a concatenation is the concatenation of the escapes. -/
theorem escape_append (reference : Char → Option String) (first second : String) :
    escape reference (first ++ second) = escape reference first ++ escape reference second := by
  apply String.toList_injective
  simp [toList_escape]

end HtmlWriter.Escape
