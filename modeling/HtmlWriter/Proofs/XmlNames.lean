import HtmlWriter.Proofs.OpenElements
import HtmlWriter.Proofs.Requests

/-! Names of XML 1.0, and the names that attributes are given in XML. The writer refuses the
characters that would end a name early, and takes all others; XML lists the characters that a name
may have. So every name of XML can be written, but not all that is written is a name of XML. -/

namespace HtmlWriter
open Writing

namespace Text

/-- The code points that a name of XML may begin with. -/
def xmlNameStart : CodePoints where
  ranges :=
    [(0x3a, 0x3a), (0x41, 0x5a), (0x5f, 0x5f), (0x61, 0x7a), (0xc0, 0xd6), (0xd8, 0xf6),
     (0xf8, 0x2ff), (0x370, 0x37d), (0x37f, 0x1fff), (0x200c, 0x200d), (0x2070, 0x218f),
     (0x2c00, 0x2fef), (0x3001, 0xd7ff), (0xf900, 0xfdcf), (0xfdf0, 0xfffd), (0x10000, 0xeffff)]

/-- The code points that a name of XML may have, but not begin with. -/
def xmlNameRest : CodePoints where
  ranges :=
    [(0x2d, 0x2e), (0x30, 0x39), (0xb7, 0xb7), (0x300, 0x36f), (0x203f, 0x2040)]

/-- The code points that an attribute's name may have for the writer, and a name of XML may not:
the punctuation of ASCII that delimits nothing in a start tag, and gaps between the letters of
Unicode, with its symbols, private characters and noncharacters. -/
def xmlNameStrays : CodePoints where
  ranges :=
    [(0x21, 0x21), (0x23, 0x25), (0x28, 0x2c), (0x3b, 0x3b), (0x3f, 0x40), (0x5b, 0x5e),
     (0x60, 0x60), (0x7b, 0x7e), (0xa0, 0xb6), (0xb8, 0xbf), (0xd7, 0xd7), (0xf7, 0xf7),
     (0x37e, 0x37e), (0x2000, 0x200b), (0x200e, 0x203e), (0x2041, 0x206f), (0x2190, 0x2bff),
     (0x2ff0, 0x3000), (0xe000, 0xf8ff), (0xfdd0, 0xfdef), (0xfffe, 0xffff), (0xf0000, 0x10ffff)]

/-- The code points that a name may begin with for the writer, although they only combine with
what is before them. -/
def xmlNameCombining : CodePoints where
  ranges := [(0xb7, 0xb7), (0x300, 0x36f), (0x203f, 0x2040)]

def continuesXmlName (c : Char) : Bool :=
  xmlNameStart.contains c.toNat || xmlNameRest.contains c.toNat

/-- Names as XML 1.0 defines them. -/
def isXmlName (name : String) : Bool :=
  match name.toList with
  | [] => false
  | first :: rest => xmlNameStart.contains first.toNat && rest.all continuesXmlName

/-- Whether something in a name, or its beginning, is not for names of XML. -/
def straysFromXml (name : String) : Bool :=
  name.toList.any (xmlNameStrays.contains ·.toNat) ||
    name.toList.head?.any (xmlNameCombining.contains ·.toNat)

end Text

namespace AttributeName
open Text

/-- The marks that no name may have, and the controls and blanks, by their code points. -/
private theorem continues_iff {c : Char} : continues c = true ↔
    0x20 < c.toNat ∧ ¬(0x7f ≤ c.toNat ∧ c.toNat < 0xa0) ∧ c.toNat ≠ 0x22 ∧ c.toNat ≠ 0x26 ∧
      c.toNat ≠ 0x27 ∧ c.toNat ≠ 0x2f ∧ ¬(0x3c ≤ c.toNat ∧ c.toNat ≤ 0x3e) := by
  have mark (other : Char) : (c == other) = decide (c.toNat = other.toNat) := by
    rw [Bool.eq_iff_iff, beq_iff_eq, decide_eq_true_eq, Char.toNat_inj]
  simp only [continues, isBlank, isControl, List.contains_cons, List.contains_nil, mark,
    Bool.not_eq_true', Bool.or_eq_false_iff, Bool.and_eq_false_iff, decide_eq_false_iff_not]
  simp only [Char.reduceToNat, and_true]
  omega

private theorem begins_xml_iff {c : Char} : begins .xml c = true ↔
    continues c = true ∧ ¬(0x30 ≤ c.toNat ∧ c.toNat ≤ 0x39) ∧ c.toNat ≠ 0x2d ∧ c.toNat ≠ 0x2e := by
  have mark (other : Char) : (c != other) = decide (c.toNat ≠ other.toNat) := by
    rw [Bool.eq_iff_iff, bne_iff_ne, decide_eq_true_eq, ne_eq, ne_eq, Char.toNat_inj]
  have digit : c.isDigit = decide (0x30 ≤ c.toNat ∧ c.toNat ≤ 0x39) := by
    rw [Bool.eq_iff_iff, Char.isDigit_iff_toNat, decide_eq_true_eq]
    rfl
  simp only [begins, mark, digit, Bool.and_eq_true, Bool.not_eq_true', decide_eq_false_iff_not,
    decide_eq_true_eq, and_assoc]
  rfl

private theorem toNat_scalar (c : Char) :
    c.toNat < 0xd800 ∨ (0xdfff < c.toNat ∧ c.toNat < 0x110000) :=
  c.valid

section
variable {c : Char}

private theorem continues_of_xml (named : continuesXmlName c = true) : continues c = true := by
  rw [continues_iff]
  simp only [continuesXmlName, Bool.or_eq_true, CodePoints.contains_iff, xmlNameStart, xmlNameRest,
    List.mem_cons, List.not_mem_nil, exists_eq_or_imp, or_false, exists_eq_left] at named
  omega

private theorem begins_of_xml (named : xmlNameStart.contains c.toNat = true) :
    begins .xml c = true := by
  have continued : continues c = true := continues_of_xml (Bool.or_eq_true_iff.mpr (.inl named))
  rw [begins_xml_iff]
  simp only [CodePoints.contains_iff, xmlNameStart, List.mem_cons, List.not_mem_nil,
    exists_eq_or_imp, or_false, exists_eq_left] at named
  exact ⟨continued, by omega, by omega, by omega⟩

theorem continuesXmlName_eq (taken : continues c = true) :
    continuesXmlName c = !xmlNameStrays.contains c.toNat := by
  have scalar := toNat_scalar c
  rw [continues_iff] at taken
  rw [Bool.eq_iff_iff, Bool.not_eq_true', ← Bool.not_eq_true]
  simp only [continuesXmlName, Bool.or_eq_true, CodePoints.contains_iff, xmlNameStart, xmlNameRest,
    xmlNameStrays, List.mem_cons, List.not_mem_nil, exists_eq_or_imp, or_false, exists_eq_left]
  constructor <;> intro <;> omega

/-- What a name of XML may begin with is told apart from what it may only go on with. -/
private theorem xmlNameRest_of_start (named : xmlNameStart.contains c.toNat = true) :
    xmlNameRest.contains c.toNat = false := by
  rw [← Bool.not_eq_true]
  simp only [CodePoints.contains_iff, xmlNameStart, xmlNameRest, List.mem_cons, List.not_mem_nil,
    exists_eq_or_imp, or_false, exists_eq_left] at named ⊢
  omega

/-- Of what a name may only go on with, the writer refuses digits, hyphens and dots at first. -/
theorem xmlNameRest_eq (taken : begins .xml c = true) :
    xmlNameRest.contains c.toNat = xmlNameCombining.contains c.toNat := by
  rw [begins_xml_iff] at taken
  rw [Bool.eq_iff_iff]
  simp only [CodePoints.contains_iff, xmlNameRest, xmlNameCombining, List.mem_cons,
    List.not_mem_nil, exists_eq_or_imp, or_false, exists_eq_left]
  omega

/-- What the writer takes at the beginning of a name may also be for the rest of one. -/
theorem xmlNameStart_eq (taken : begins .xml c = true) : xmlNameStart.contains c.toNat =
    !(xmlNameStrays.contains c.toNat || xmlNameCombining.contains c.toNat) := by
  have either := continuesXmlName_eq (begins_xml_iff.mp taken).1
  rw [continuesXmlName, xmlNameRest_eq taken] at either
  cases named : xmlNameStart.contains c.toNat with
  | true =>
    have apart := xmlNameRest_of_start named
    rw [xmlNameRest_eq taken] at apart
    rw [named, Bool.true_or] at either
    rw [apart, Bool.or_false, either]
  | false =>
    rw [named, Bool.false_or] at either
    rw [either]
    cases xmlNameStrays.contains c.toNat <;> rfl

end

section
variable {name : String} {first : Char} {rest : List Char} (spelled : name.toList = first :: rest)
include spelled

private theorem isValid_of_toList (serialization : Serialization) :
    isValid serialization name = (begins serialization first && rest.all continues) := by
  rw [isValid, spelled]

private theorem isXmlName_of_toList :
    isXmlName name = (xmlNameStart.contains first.toNat && rest.all continuesXmlName) := by
  rw [isXmlName, spelled]

end

private theorem isValid_of_isXmlName {name : String} (named : isXmlName name = true) :
    isValid .xml name = true := by
  cases spelled : name.toList with
  | nil =>
    rw [isXmlName, spelled] at named
    cases named
  | cons first rest =>
    rw [isXmlName_of_toList spelled, Bool.and_eq_true, List.all_eq_true] at named
    rw [isValid_of_toList spelled, Bool.and_eq_true, List.all_eq_true]
    exact ⟨begins_of_xml named.1, fun c member => continues_of_xml (named.2 c member)⟩

theorem isXmlName_eq {name : String} (valid : isValid .xml name = true) :
    isXmlName name = !straysFromXml name := by
  cases spelled : name.toList with
  | nil =>
    rw [isValid, spelled] at valid
    cases valid
  | cons first rest =>
    rw [isValid_of_toList spelled, Bool.and_eq_true, List.all_eq_true] at valid
    obtain ⟨begun, continued⟩ := valid
    have later : rest.all continuesXmlName = !rest.any (xmlNameStrays.contains ·.toNat) := by
      rw [List.not_any_eq_all_not, Bool.eq_iff_iff, List.all_eq_true, List.all_eq_true]
      exact forall₂_congr fun c member => by rw [continuesXmlName_eq (continued c member)]
    rw [isXmlName_of_toList spelled, xmlNameStart_eq begun, later, straysFromXml, spelled,
      List.any_cons, List.head?_cons, Option.any_some]
    cases xmlNameStrays.contains first.toNat <;> cases xmlNameCombining.contains first.toNat <;> simp

end AttributeName

theorem StartTag.isValid_of_added {start next : StartTag} {requested : Attribute}
    {document final : Document} (added : (start.add requested).run document = .ok next final)
    {entry : String × Option String}
    (wanted : (requested.asked start.tag).written? document.serialization = some entry) :
    AttributeName.isValid document.serialization entry.1 = true := by
  rw [StartTag.run_add_eq] at added
  cases passed : requested.emission ⟨start.tag, document.serialization, document.doctype⟩ with
  | ok emission =>
    obtain ⟨rfl, valid⟩ := emission_answers _ _ passed
    exact valid entry wanted
  | error error =>
    rw [passed] at added
    cases added

theorem StartTag.isValid_of_addedAll {start next : StartTag} {document final : Document}
    {attributes : List (String × String)}
    (added : (start.addAll (attributes.map fun entry => .custom entry.1 entry.2)).run document =
      .ok next final) :
    ∀ entry ∈ attributes, AttributeName.isValid document.serialization entry.1 = true := by
  induction attributes generalizing start document with
  | nil => nofun
  | cons entry rest ih =>
    rw [addAll, List.map_cons, List.foldlM_cons] at added
    obtain ⟨marked, middle, first, added⟩ := ok_of_bind added
    have later := ih added
    rw [serialization_of_ok (start.add_keeps _) first] at later
    exact List.forall_mem_cons.mpr ⟨isValid_of_added first rfl, later⟩

namespace Node

mutual

def attributeNames : Node → List String
  | .text _ | .comment _ => []
  | .element _ attributes children => attributes.map Prod.fst ++ attributeNamesAll children

def attributeNamesAll : List Node → List String
  | [] => []
  | node :: rest => attributeNames node ++ attributeNamesAll rest

end

theorem named_of_writeChildren {start : StartTag} {children : List Node}
    {document final : Document}
    (ran : (start.writeChildren children).run document = .ok () final)
    (named : ∀ {place : Place} {inside middle : Document},
      (writeAll place children).run inside = .ok () middle → ∀ name ∈ attributeNamesAll children,
        AttributeName.isValid inside.serialization name = true) :
    ∀ name ∈ attributeNamesAll children,
      AttributeName.isValid document.serialization name = true := by
  unfold StartTag.writeChildren at ran
  split at ran
  case h_1 | h_2 => exact fun name member => absurd member List.not_mem_nil
  case h_3 =>
    obtain ⟨inside, middle, same, written⟩ := StartTag.writeBody_ok ran
    have checked := named written
    rwa [same] at checked

mutual

theorem isValid_of_written {place : Place} {document final : Document} (node : Node)
    (ran : (node.write place).run document = .ok () final) :
    ∀ name ∈ node.attributeNames, AttributeName.isValid document.serialization name = true :=
  match node with
  | .text _ | .comment _ => nofun
  | .element tag attributes children => by
    rw [write_element] at ran
    obtain ⟨start, opened, opens, ran⟩ := ok_of_bind ran
    obtain ⟨marked, added, adds, ran⟩ := ok_of_bind ran
    have own := StartTag.isValid_of_addedAll adds
    have inside := named_of_writeChildren ran fun ran => isValid_of_writtenAll children ran
    rw [serialization_of_ok (start.addAll_keeps _) adds] at inside
    rw [serialization_of_ok (place.element_keeps tag) opens] at own inside
    rw [attributeNames]
    exact List.forall_mem_append.mpr ⟨List.forall_mem_map.mpr own, inside⟩

theorem isValid_of_writtenAll {place : Place} {document final : Document} (nodes : List Node)
    (ran : (writeAll place nodes).run document = .ok () final) :
    ∀ name ∈ attributeNamesAll nodes, AttributeName.isValid document.serialization name = true :=
  match nodes with
  | [] => nofun
  | node :: rest => by
    rw [writeAll] at ran
    obtain ⟨⟨⟩, middle, first, ran⟩ := ok_of_bind ran
    have later := isValid_of_writtenAll rest ran
    rw [serialization_of_ok (node.write_keeps place) first] at later
    rw [attributeNamesAll]
    exact List.forall_mem_append.mpr ⟨isValid_of_written node first, later⟩

end

end Node

/-- A name that is written in XML, into a start tag or with markup that is put somewhere whole, is a
name of XML unless it strays. A name of XML is taken as the name of an attribute everywhere. -/
theorem xml_attribute_names_are_names_or_stray (name : String) :
    (∀ (start next : StartTag) (requested : Attribute) (document final : Document)
      (value? : Option String), document.serialization = .xml →
      (start.add requested).run document = .ok next final →
      (requested.asked start.tag).written? .xml = some (name, value?) →
      Text.isXmlName name = !Text.straysFromXml name) ∧
    (∀ (place : Place) (node : Node) (document final : Document),
      document.serialization = .xml → (node.write place).run document = .ok () final →
      name ∈ node.attributeNames → Text.isXmlName name = !Text.straysFromXml name) ∧
    (Text.isXmlName name = true → ∀ (context : TagContext) (value : String),
      (Attribute.custom name value).emission context = .ok (.valued name value)) := by
  refine ⟨?_, ?_, ?_⟩
  · intro start next requested document final value? xml added wanted
    rw [← xml] at wanted
    have valid := StartTag.isValid_of_added added wanted
    rw [xml] at valid
    exact AttributeName.isXmlName_eq valid
  · intro place node document final xml written member
    have valid := node.isValid_of_written written name member
    rw [xml] at valid
    exact AttributeName.isXmlName_eq valid
  · intro named context value
    have valid : AttributeName.isValid context.serialization name = true :=
      AttributeName.isValid_of_xml (AttributeName.isValid_of_isXmlName named)
    rw [Attribute.emission, TagContext.checkName, if_pos valid]
    rfl

/-- For instance, a name that goes on after `data-`, names with a prefix and with accents, and one
that begins with an underscore. -/
theorem prefixed_name_is_xml_name :
    let document : Document := .start {} (.xhtml .html5) .markup
    (∃ next final, (StartTag.add ⟨.p, .anything, []⟩ (.data "a·b" "")).run document =
        .ok next final ∧ Text.isXmlName "data-a·b" = true) ∧
    (let node := Node.element .p [("xml:lang", "fr"), ("été", "")] []
      ∃ final, (node.write .document).run document = .ok () final ∧
        Text.isXmlName "été" = true) ∧
    (Attribute.custom "_1" "").emission ⟨.p, .xml, .html5⟩ = .ok (.valued "_1" "") := by
  intro document
  obtain ⟨added, -, -⟩ := xml_attribute_names_are_names_or_stray "data-a·b"
  obtain ⟨-, placed, -⟩ := xml_attribute_names_are_names_or_stray "été"
  obtain ⟨-, -, taken⟩ := xml_attribute_names_are_names_or_stray "_1"
  refine ⟨⟨_, _, rfl, ?_⟩, ?_, taken (by decide +kernel) _ _⟩
  · rw [added ⟨.p, .anything, []⟩ _ (.data "a·b" "") document _ (some "") rfl rfl rfl]
    decide +kernel
  · intro node
    have succeeds : ((node.write .document).verdict document).toOption.isSome = true := by
      decide +kernel
    cases written : (node.write .document).run document with
    | error error final =>
      rw [verdict, written] at succeeds
      cases succeeds
    | ok value final =>
      refine ⟨final, rfl, ?_⟩
      rw [placed .document node document final rfl written (by decide +kernel)]
      decide +kernel

/-- A parenthesis is taken in the name of an attribute, alone and in a tree, and no name of XML has
one. -/
theorem parenthesis_is_written_in_xml_name :
    (Attribute.custom "a(b" "x").emission ⟨.p, .xml, .html5⟩ = .ok (.valued "a(b" "x") ∧
      ((Node.element .p [("a(b", "x")] []).render (.xhtml .html5)).toOption =
        some (utf8 "<p a(b=\"x\"></p>") ∧
      Text.isXmlName "a(b" = false := by
  refine ⟨rfl, ?_, ?_⟩
  · decide +kernel
  · decide +kernel

end HtmlWriter
