import HtmlWriter.Proofs.Paths
import HtmlWriter.Proofs.Suffixes

/-! What is checked of a tree. The check goes through the tree in document order and knows
only the path of open elements, the attributes already on a tag, and the text already in an
element; there is no document, and nothing is written. -/

namespace HtmlWriter

def refuse (condition : Bool) (error : Error) : Except Error Unit :=
  if condition then .error error else .ok ()

theorem refuse_eq_ok {condition : Bool} {error : Error} :
    refuse condition error = .ok () ↔ condition = false := by
  cases condition <;> simp [refuse]

theorem both_eq_ok {first second : Except Error Unit} :
    (do first; second) = .ok () ↔ first = .ok () ∧ second = .ok () := by
  cases first with
  | ok value => exact ⟨fun passed => ⟨rfl, passed⟩, fun both => both.2⟩
  | error error => exact ⟨nofun, nofun⟩

/-- Whether the content of an element is read raw, up to its end tag. -/
def Tag.isRaw (tag : Tag) (serialization : Serialization) : Bool :=
  tag.definition.rawText && serialization == .sgml

namespace Path

/-- The innermost element of the path, if text is raw there. -/
def raw? (serialization : Serialization) (path : Path) : Option Tag :=
  path.head?.filter (·.isRaw serialization)

/-- Raw text is taken together with the text before it in the same element, and may not
contain the beginning of the end tag in any case. -/
def checkRaw (serialization : Serialization) (path : Path) (before content : String) :
    Except Error Unit :=
  match path.raw? serialization with
  | some tag =>
      refuse (Text.occursIn (Writing.endTagOpening tag) (Text.lowercase (before ++ content)))
        (.invalidRawText tag)
  | none => .ok ()

/-- Text has to be accepted, and where it is raw, to be read as it was written. -/
def checkText (serialization : Serialization) (path : Path) (before content : String) :
    Except Error Unit := do
  refuse (!path.acceptsText) (.illegalNesting path.head? .text)
  path.checkRaw serialization before content

end Path

def Tag.ownNames (tag : Tag) (serialization : Serialization) : List String :=
  if tag.isNamespaced serialization then ["xmlns"] else []

/-- Attributes are taken from left to right. Each needs a name that can be written, and that
no attribute before it has, in any case. -/
def Tag.checkAttributes (tag : Tag) (serialization : Serialization) (used : List String) :
    List (String × String) → Except Error Unit
  | [] => .ok ()
  | (name, _) :: rest => do
      refuse (!AttributeName.isValid serialization name) (.invalidAttributeName name)
      refuse (used.any fun other => Text.lowercase other == Text.lowercase name)
        (.duplicateAttribute name tag)
      tag.checkAttributes serialization (name :: used) rest

namespace Node

def ownText : Node → String
  | text content => content
  | comment _ | element .. => ""

/-- Whether a comment is read as it was written: it holds no two hyphens in a row, ends with
none, and does not begin as the end of a comment. -/
def isWholeComment (content : String) : Bool :=
  let chars := content.toList
  !(Text.occursIn ['-', '-'] chars || chars.getLast? == some '-' || chars.head? == some '>' ||
    chars.take 2 == ['-', '>'])

mutual

/-- Check a piece of markup at the end of a path, in an element that holds some text
already. -/
def check (serialization : Serialization) (doctype : Doctype) (path : Path) (before : String) :
    Node → Except Error Unit
  | .text content => path.checkText serialization before content
  | .comment content => refuse (!isWholeComment content) (.invalidComment content)
  | .element tag attributes children => do
      path.check doctype tag
      tag.checkAttributes serialization (tag.ownNames serialization) attributes
      refuse (tag.definition.isVoid && !children.isEmpty) (.voidElement tag)
      checkAll serialization doctype (tag :: path) "" children

def checkAll (serialization : Serialization) (doctype : Doctype) (path : Path)
    (before : String) : List Node → Except Error Unit
  | [] => .ok ()
  | node :: rest => do
      check serialization doctype path before node
      checkAll serialization doctype path (before ++ node.ownText) rest

end

private theorem hyphens_of_opening {chars : List Char}
    (found : Text.occursIn ['<', '!', '-', '-'] chars = true) :
    Text.occursIn ['-', '-'] chars = true := by
  rw [Text.occursIn_iff_infix] at found ⊢
  exact (List.suffix_append ['<', '!'] ['-', '-']).isInfix.trans found

/-- The writer asks for more, but a comment that opens another has two hyphens in a row. -/
theorem isComment_eq_isWholeComment (content : String) :
    Writing.isComment content = isWholeComment content := by
  have opening : (Text.occursIn ['-', '-'] content.toList ||
      Text.occursIn ['<', '!', '-', '-'] content.toList) =
        Text.occursIn ['-', '-'] content.toList := by
    rw [Bool.or_eq_left_iff_imp]
    exact hyphens_of_opening
  have bracket (chars : List Char) : ['>'].isPrefixOf chars = (chars.head? == some '>') := by
    cases chars with
    | nil => rfl
    | cons c rest => simp [List.isPrefixOf, BEq.comm]
  have arrow (chars : List Char) : ['-', '>'].isPrefixOf chars = (chars.take 2 == ['-', '>']) := by
    match chars with
    | [] => rfl
    | [c] => simp [List.isPrefixOf]
    | c :: d :: rest => simp [List.isPrefixOf, BEq.comm]
  simp only [Writing.isComment, isWholeComment, opening, bracket, arrow]

end Node

/-- Only scripts and style sheets have raw content. -/
theorem Tag.script_or_style {tag : Tag} {serialization : Serialization}
    (isRaw : tag.isRaw serialization) : tag = .script ∨ tag = .style := by
  have each : ∀ tag ∈ Tag.all, tag.definition.rawText = true → tag = .script ∨ tag = .style := by
    decide +kernel
  rw [Tag.isRaw, Bool.and_eq_true] at isRaw
  exact each tag (Tag.mem_all tag) isRaw.1

theorem Tag.allows_of_isRaw {tag : Tag} {serialization : Serialization}
    (isRaw : tag.isRaw serialization) (child : Tag) :
    tag.definition.content.transparent = false ∧
      tag.definition.content.allows child child.categories = false := by
  have none : ∀ child ∈ Tag.all,
      Tag.script.definition.content.allows child child.categories = false ∧
        Tag.style.definition.content.allows child child.categories = false := by
    decide +kernel
  rcases Tag.script_or_style isRaw with rfl | rfl
  · exact ⟨rfl, (none child (Tag.mem_all child)).1⟩
  · exact ⟨rfl, (none child (Tag.mem_all child)).2⟩

private theorem Path.accepts_of_isRaw {tag : Tag} {serialization : Serialization}
    (isRaw : tag.isRaw serialization) (around : Path) (child : Tag) :
    Path.accepts (tag :: around) child = false := by
  obtain ⟨solid, refused⟩ := Tag.allows_of_isRaw isRaw child
  rw [accepts, solid, if_neg Bool.false_ne_true, refused]

theorem Path.raw?_of_check {doctype : Doctype} {path : Path} {tag : Tag}
    (checked : path.check doctype tag = .ok ()) (serialization : Serialization) :
    path.raw? serialization = none := by
  cases path with
  | nil => rfl
  | cons parent around =>
    rw [raw?, List.head?_cons, Option.filter_some]
    split
    · rename_i isRaw
      rw [check, accepts_of_isRaw isRaw] at checked
      split at checked <;> cases checked
    · rfl

end HtmlWriter
