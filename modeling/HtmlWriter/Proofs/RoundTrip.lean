import HtmlWriter.Proofs.Reading

/-! Reading back what was rendered. Without gaps the markup of a tree is read as the tree,
up to what the markup cannot tell apart: texts side by side are one text, and an empty text
is none. -/

namespace HtmlWriter
namespace Node

def isComment : Node → Bool
  | comment _ => true
  | text _ | element .. => false

mutual

/-- Whether no raw content has a comment in it, which would be read as text. -/
def isQuiet (serialization : Serialization) : Node → Bool
  | .text _ | .comment _ => true
  | .element tag _ children =>
      !(tag.isRaw serialization && children.any isComment) && isQuietAll serialization children

def isQuietAll (serialization : Serialization) : List Node → Bool
  | [] => true
  | node :: rest => isQuiet serialization node && isQuietAll serialization rest

end

/-- The characters of pieces of markup without any gaps. -/
def writtenAll (serialization : Serialization) (parent : Option Tag) (nodes : List Node) : List Char :=
  ((tokensAll parent false nodes).map Placed.token).flatMap fun token =>
    (token.markup .markup serialization).toList

section
variable (serialization : Serialization) (parent : Option Tag) (rest : List Node)

private theorem writtenAll_nil : writtenAll serialization parent [] = [] := by
  rw [writtenAll, tokensAll]
  rfl

private theorem writtenAll_text (content : String) :
    writtenAll serialization parent (.text content :: rest) =
      ((Token.text parent content).markup .markup serialization).toList ++
        writtenAll serialization parent rest := by
  rw [writtenAll, tokensAll, tokens, List.map_append, List.flatMap_append, writtenAll]
  congr 1
  cases isEmpty : content.isEmpty with
  | true =>
    obtain rfl : content = "" := String.isEmpty_iff.mp isEmpty
    rw [Token.markup, show Encoder.markup.text serialization "" = "" from rfl, ite_self]
    rfl
  | false =>
    rw [if_neg Bool.false_ne_true, List.map_cons, List.map_nil, List.flatMap_cons, List.flatMap_nil,
      List.append_nil]

private theorem writtenAll_comment (content : String) :
    writtenAll serialization parent (.comment content :: rest) =
      ['<', '!', '-', '-'] ++ content.toList ++ ['-', '-', '>'] ++
        writtenAll serialization parent rest := by
  rw [writtenAll, tokensAll, tokens, List.map_append, List.flatMap_append, writtenAll]
  simp [Token.markup]

private theorem writtenAll_element (tag : Tag) (attributes : List (String × String))
    (children : List Node) :
    writtenAll serialization parent (.element tag attributes children :: rest) =
      (Encoder.markup.startTag serialization tag attributes).toList ++
        ((if tag.definition.isVoid then []
          else writtenAll serialization (some tag) children ++ tag.closing.toList) ++
        writtenAll serialization parent rest) := by
  rw [writtenAll, tokensAll, tokens, List.map_append, List.flatMap_append, ← List.append_assoc]
  congr 1
  rw [List.map_cons, List.flatMap_cons]
  congr 1
  cases tag.definition.isVoid with
  | true => rfl
  | false =>
    rw [if_neg Bool.false_ne_true, if_neg Bool.false_ne_true, List.map_append,
      map_token_tokensAll _ _ false, List.flatMap_append, writtenAll]
    simp [Token.markup]

end

end Node

namespace Reading
variable {serialization : Serialization} {chars rest : List Char} {nodes : List Node}

/-- Markup that is read as nodes, and a rest. -/
def ReadsAs (serialization : Serialization) (chars : List Char) (nodes : List Node)
    (rest : List Char) : Prop :=
  ∀ fuel, chars.length < fuel → nodes? serialization fuel chars = some (nodes, rest)

/-- Where pieces of markup end: at an end tag, or at the end. -/
def Ends (chars : List Char) : Prop := chars = [] ∨ ['<', '/'] <+: chars

theorem ReadsAs.ends (ends : Ends rest) : ReadsAs serialization rest [] rest := by
  intro fuel enough
  cases fuel with
  | zero => exact absurd enough (Nat.not_lt_zero _)
  | succ fuel =>
    unfold Ends at ends
    rw [← List.isPrefixOf_iff_prefix] at ends
    rw [nodes?, if_pos ends]

/-- Within a comment that may be written two hyphens stand nowhere in a row, and the one that ends
it makes no such pair with its last character. -/
theorem hyphens_absent {content : String} (whole : Node.isWholeComment content = true)
    {suffix : List Char} (filled : suffix ≠ []) (inside : suffix <:+ content.toList)
    (chars : List Char) : ['-', '-'].isPrefixOf (suffix ++ '-' :: chars) = false := by
  simp only [Node.isWholeComment, Bool.not_eq_true', Bool.or_eq_false_iff] at whole
  obtain ⟨⟨⟨hyphens, last⟩, -⟩, -⟩ := whole
  rw [Bool.eq_false_iff]
  intro found
  cases suffix with
  | nil => exact absurd rfl filled
  | cons c more =>
    cases more with
    | nil =>
      obtain ⟨before, ends⟩ := inside
      simp only [List.cons_append, List.nil_append, List.isPrefixOf, Bool.and_eq_true, beq_iff_eq]
        at found
      rw [← ends, ← found.1, List.getLast?_concat] at last
      cases last
    | cons d more =>
      simp only [List.cons_append, List.isPrefixOf, Bool.and_eq_true, beq_iff_eq] at found
      obtain ⟨rfl, rfl, -⟩ := found
      have here : ['-', '-'] <+: '-' :: '-' :: more := ⟨more, rfl⟩
      rw [Bool.eq_false_iff, ne_eq, Text.occursIn_iff_infix] at hyphens
      exact hyphens (here.isInfix.trans inside.isInfix)

/-- A comment is read up to its own end, as it holds nothing that could be taken for it. -/
private theorem before?_comment {content : String} (whole : Node.isWholeComment content = true)
    (chars : List Char) :
    before? id ['-', '-', '>'] (content.toList ++ '-' :: '-' :: '>' :: chars) =
      some (content.toList, '-' :: '-' :: '>' :: chars) := by
  refine before?_append (List.cons_ne_nil _ _) (by simp [List.isPrefixOf])
    fun suffix filled inside => ?_
  have absent := hyphens_absent whole filled inside ('-' :: '>' :: chars)
  rw [List.map_id]
  rw [Bool.eq_false_iff, ne_eq, List.isPrefixOf_iff_prefix] at absent ⊢
  exact fun found => absent ((List.prefix_append ['-', '-'] ['>']).trans found)

theorem ReadsAs.comment {content : String} (whole : Node.isWholeComment content = true)
    (reads : ReadsAs serialization chars nodes rest) :
    ReadsAs serialization ('<' :: '!' :: '-' :: '-' :: (content.toList ++ '-' :: '-' :: '>' :: chars))
      (.comment content :: nodes) rest := by
  intro fuel enough
  cases fuel with
  | zero => exact absurd enough (Nat.not_lt_zero _)
  | succ fuel =>
    have later := reads fuel (by simp at enough; omega)
    rw [nodes?_comment, before?_comment whole]
    simp only [Option.bind_eq_bind, Option.bind_some, List.drop_succ_cons, List.drop_zero, later,
      String.ofList_toList]
    rfl

def Bounded (chars : List Char) : Prop := ∀ c ∈ chars.head?, c = '<'

theorem Bounded.bracket (chars : List Char) : Bounded ('<' :: chars) :=
  fun _ first => (Option.some.inj first).symm

private theorem Bounded.of_ends (ends : Ends chars) : Bounded chars := by
  rcases ends with rfl | ⟨more, rfl⟩
  · exact nofun
  · exact .bracket _

theorem ReadsAs.text {content : String} (filled : content ≠ "") (bounded : Bounded chars)
    (reads : ReadsAs serialization chars nodes rest) :
    ReadsAs serialization ((Escape.text serialization content).toList ++ chars)
      (.text content :: nodes) rest := by
  have free := bracket_free serialization content
  have read := decode?_text serialization content
  generalize (Escape.text serialization content).toList = written at free read ⊢
  obtain ⟨c, more, rfl⟩ : ∃ c more, written = c :: more := by
    cases written with
    | nil => exact absurd (Option.some.inj read).symm filled
    | cons c more => exact ⟨c, more, rfl⟩
  have outside (d : Char) (member : d ∈ c :: more) : (d != '<') = true :=
    bne_iff_ne.mpr fun same => free (same ▸ member)
  have stop : chars.takeWhile (· != '<') = [] ∧ chars.dropWhile (· != '<') = chars := by
    cases chars with
    | nil => exact ⟨rfl, rfl⟩
    | cons d others =>
      obtain rfl : d = '<' := bounded d rfl
      exact ⟨rfl, rfl⟩
  have taken : ((c :: more) ++ chars).takeWhile (· != '<') = c :: more := by
    rw [List.takeWhile_append_of_pos outside, stop.1, List.append_nil]
  have dropped : ((c :: more) ++ chars).dropWhile (· != '<') = chars := by
    rw [List.dropWhile_append_of_pos outside, stop.2]
  intro fuel enough
  cases fuel with
  | zero => exact absurd enough (Nat.not_lt_zero _)
  | succ fuel =>
    have later := reads fuel (by simp at enough; omega)
    rw [List.cons_append] at taken dropped ⊢
    rw [nodes?_text _ _ _ (bne_iff_ne.mp (outside c (List.mem_cons_self ..))), taken, dropped, read]
    simp only [Option.bind_eq_bind, Option.bind_some, later]
    rfl

/-- Markup that is read, after a start tag, as the children and the end of the element. -/
def ReadsInside (serialization : Serialization) (tag : Tag) (chars : List Char)
    (children : List Node) (rest : List Char) : Prop :=
  ∀ fuel, chars.length < fuel →
    inside? (nodes? serialization fuel) serialization tag chars = some (children, rest)

private theorem startTag_spelled (serialization : Serialization) (tag : Tag)
    (attributes : List (String × String)) :
    ∃ c more, (Encoder.markup.startTag serialization tag attributes).toList = '<' :: c :: more ∧
      c ≠ '/' ∧ c ≠ '!' := by
  obtain ⟨c, more, spelled⟩ : ∃ c more, tag.name.toList = c :: more := by
    cases spelled : tag.name.toList with
    | nil => cases tag <;> cases spelled
    | cons c more => exact ⟨c, more, rfl⟩
  have letter : c.isAlphanum = true :=
    isAlphanum_of_mem_name (by rw [spelled]; exact List.mem_cons_self ..)
  refine ⟨c, _,
      by rw [startTag_eq, String.toList_append, String.toList_append, spelled]; rfl, ?_, ?_⟩ <;>
    rintro rfl <;> exact absurd letter (by decide)

theorem ReadsAs.element {tag : Tag} {attributes : List (String × String)} {inside : List Char}
    {children : List Node} (valid : Valid serialization attributes)
    (content : ReadsInside serialization tag inside children chars)
    (shorter : chars.length ≤ inside.length) (reads : ReadsAs serialization chars nodes rest) :
    ReadsAs serialization ((Encoder.markup.startTag serialization tag attributes).toList ++ inside)
      (.element tag (tag.ownAttributes serialization ++ attributes) children :: nodes) rest := by
  have start := startTag?_written tag valid inside
  obtain ⟨c, more, spelled, slash, mark⟩ := startTag_spelled serialization tag attributes
  intro fuel enough
  cases fuel with
  | zero => exact absurd enough (Nat.not_lt_zero _)
  | succ fuel =>
    rw [spelled] at start enough ⊢
    rw [List.cons_append, List.cons_append] at start ⊢
    rw [List.drop_succ_cons, List.drop_zero] at start
    rw [nodes?_element _ _ _ slash mark, start]
    simp only [List.length_cons, List.cons_append, List.length_append] at enough
    have here := content fuel (by omega)
    have later := reads fuel (by omega)
    simp only [Option.bind_eq_bind, Option.bind_some, here, later]
    rfl

theorem ReadsInside.void {tag : Tag} (isVoid : tag.definition.isVoid = true) (chars : List Char) :
    ReadsInside serialization tag chars [] chars := by
  intro fuel enough
  rw [inside?, if_pos isVoid]

theorem ReadsInside.encoded {tag : Tag} {inside : List Char} {children : List Node}
    (solid : tag.definition.isVoid = false) (encoded : tag.isRaw serialization = false)
    (reads : ReadsAs serialization inside children (tag.closing.toList ++ chars)) :
    ReadsInside serialization tag inside children chars := by
  intro fuel enough
  rw [inside?, if_neg (ne_true_of_eq_false solid),
    if_neg (ne_true_of_eq_false encoded), reads fuel enough]
  simp only [Option.bind_eq_bind, Option.bind_some, after?_append]
  rfl

/-- The end tag of raw content is the first that stands there: none stands in the content,
and none begins in the content, as an end tag has no second bracket at its beginning. -/
private theorem before?_raw {tag : Tag} (isRaw : tag.isRaw serialization) {content : String}
    (absent : Text.occursIn (Writing.endTagOpening tag) (Text.lowercase content) = false)
    (chars : List Char) :
    before? Char.toLower (Writing.endTagOpening tag)
        (content.toList ++ (tag.closing.toList ++ chars)) =
      some (content.toList, tag.closing.toList ++ chars) := by
  have closing : tag.closing.toList = Writing.endTagOpening tag ++ ['>'] := by
    simp [Tag.closing, Writing.endTagOpening]
  have folded : (Writing.endTagOpening tag).map Char.toLower = Writing.endTagOpening tag := by
    rcases Tag.script_or_style isRaw with rfl | rfl <;> decide
  have once : '<' ∉ (Writing.endTagOpening tag).tail := by
    rcases Tag.script_or_style isRaw with rfl | rfl <;> decide
  rw [closing, List.append_assoc]
  refine before?_append (List.cons_ne_nil _ _) ?_ fun suffix filled inside => ?_
  · rw [List.map_append, folded, List.isPrefixOf_iff_prefix]
    exact List.prefix_append _ _
  · rw [Bool.eq_false_iff, ne_eq, List.isPrefixOf_iff_prefix, List.map_append, List.map_append, folded]
    intro found
    have whole : suffix.map Char.toLower <+: suffix.map Char.toLower ++
        (Writing.endTagOpening tag ++ (['>'] ++ chars).map Char.toLower) := List.prefix_append _ _
    -- Found before its place, the end tag is in the content or overlaps the one in its place.
    by_cases short : (Writing.endTagOpening tag).length ≤ (suffix.map Char.toLower).length
    · have within := List.prefix_of_prefix_length_le found whole short
      rw [Bool.eq_false_iff, ne_eq, Text.occursIn_iff_infix] at absent
      exact absent (within.isInfix.trans (inside.map Char.toLower).isInfix)
    · obtain ⟨later, split⟩ := List.prefix_of_prefix_length_le whole found (by omega)
      cases suffix with
      | nil => exact filled rfl
      | cons c suffix =>
        have tail : (Writing.endTagOpening tag).tail = suffix.map Char.toLower ++ later := by
          rw [← split]
          rfl
        cases later with
        | nil => rw [← split, List.append_nil] at short; exact short (Nat.le_refl _)
        | cons d later =>
          conv at found => lhs; rw [← split]
          obtain ⟨more, same⟩ := (List.prefix_append_right_inj _).mp found
          obtain rfl : d = '<' := (List.cons.inj same).1
          exact once (tail ▸ List.mem_append_right _ (List.mem_cons_self ..))

theorem ReadsInside.raw {tag : Tag} (isRaw : tag.isRaw serialization) {content : String}
    (absent : Text.occursIn (Writing.endTagOpening tag) (Text.lowercase content) = false)
    (chars : List Char) :
    ReadsInside serialization tag (content.toList ++ (tag.closing.toList ++ chars))
      (joinText content []) chars := by
  have solid : tag.definition.isVoid = false := by
    rcases Tag.script_or_style isRaw with rfl | rfl <;> rfl
  have child : (if content.toList.isEmpty then [] else [.text (String.ofList content.toList)]) =
      joinText content [] := by
    by_cases isEmpty : content = ""
    · rw [isEmpty]
      rfl
    · simp [joinText, String.isEmpty_iff, isEmpty]
  intro fuel enough
  rw [inside?, if_neg (ne_true_of_eq_false solid), if_pos isRaw, rawText?,
    before?_raw isRaw absent]
  simp only [Option.bind_eq_bind, Option.bind_some, child]
  change (after? _ _ >>= _) = _
  rw [after?_append]
  rfl

theorem ReadsAs.pending (content : String) (bounded : Bounded chars)
    (reads : ReadsAs serialization chars nodes rest) (apart : nodes.head?.any Node.isText = false) :
    ReadsAs serialization ((Escape.text serialization content).toList ++ chars)
      (joinText content nodes) rest := by
  by_cases isEmpty : content = ""
  · rw [isEmpty, joinText_empty]
    exact reads
  · have filled : content.isEmpty = false := by simpa [String.isEmpty_iff] using isEmpty
    rw [Node.joinText_of_apart filled apart]
    exact ReadsAs.text isEmpty bounded reads

end Reading

open Reading

theorem Tag.valid_of_checkAttributes {tag : Tag} {serialization : Serialization}
    {used : List String}
    {attributes : List (String × String)}
    (checked : tag.checkAttributes serialization used attributes = .ok ()) :
    Valid serialization attributes := by
  induction attributes generalizing used with
  | nil => exact nofun
  | cons entry rest ih =>
    rw [checkAttributes, both_eq_ok, both_eq_ok, refuse_eq_ok, Bool.not_eq_false'] at checked
    intro other member
    rcases List.mem_cons.mp member with rfl | later
    · exact checked.1
    · exact ih checked.2.2 other later

private theorem Path.raw?_cons (serialization : Serialization) (tag : Tag) (around : Path) :
    Path.raw? serialization (tag :: around) = if tag.isRaw serialization then some tag else none := by
  rw [Path.raw?, List.head?_cons, Option.filter_some]

private theorem Path.checkRaw_of_isRaw {serialization : Serialization} {tag : Tag}
    (isRaw : tag.isRaw serialization) (around : Path) {before content : String} :
    Path.checkRaw serialization (tag :: around) before content = .ok () ↔
      Text.occursIn (Writing.endTagOpening tag) (Text.lowercase (before ++ content)) = false := by
  rw [Path.checkRaw, Path.raw?_cons, if_pos isRaw]
  exact refuse_eq_ok

/-- Raw content that passes the check is nothing but text, and holds no end tag. -/
private theorem Node.raw_children {serialization : Serialization} {doctype : Doctype} {tag : Tag}
    (isRaw : tag.isRaw serialization) (around : Path) {before : String} {children : List Node}
    (checked : checkAll serialization doctype (tag :: around) before children = .ok ())
    (quiet : children.any isComment = false)
    (absent : Text.occursIn (Writing.endTagOpening tag) (Text.lowercase before) = false) :
    ∃ content : String, writtenAll serialization (some tag) children = content.toList ∧
      normalAll serialization children = joinText content [] ∧
      Text.occursIn (Writing.endTagOpening tag) (Text.lowercase (before ++ content)) = false := by
  induction children generalizing before with
  | nil =>
    refine ⟨"", writtenAll_nil _ _, rfl, ?_⟩
    rwa [String.append_empty]
  | cons child rest ih =>
    rw [checkAll, both_eq_ok] at checked
    rw [List.any_cons, Bool.or_eq_false_iff] at quiet
    cases child with
    | text content =>
      have here := checked.1
      rw [check, Path.checkText, both_eq_ok, Path.checkRaw_of_isRaw isRaw] at here
      obtain ⟨more, written, normal, free⟩ := ih checked.2 quiet.2 here.2
      refine ⟨content ++ more, ?_, ?_, ?_⟩
      · rw [writtenAll_text, written, String.toList_append, Token.markup, Option.any_some, if_pos isRaw]
      · rw [normalAll, normal, Node.normal, join, joinText_joinText]
      · rw [← String.append_assoc]
        exact free
    | comment content => cases quiet.1
    | element inner attributes children =>
      have here := checked.1
      rw [check, both_eq_ok] at here
      have none := Path.raw?_of_check here.1 serialization
      rw [Path.raw?_cons, if_pos isRaw] at none
      cases none

private theorem ends_closing (tag : Tag) (after : List Char) :
    Ends (tag.closing.toList ++ after) := by
  refine .inr ⟨tag.name.toList ++ '>' :: after, ?_⟩
  simp [Tag.closing]

theorem Node.readsInside_children {serialization : Serialization} {doctype : Doctype} {path : Path}
    {tag : Tag} {children : List Node} {after : List Char}
    (empty : (tag.definition.isVoid && !children.isEmpty) = false)
    (checked : checkAll serialization doctype (tag :: path) "" children = .ok ())
    (quiet : (!(tag.isRaw serialization && children.any isComment)) = true)
    (content : Path.raw? serialization (tag :: path) = none →
      ReadsAs serialization (writtenAll serialization (some tag) children ++
        (tag.closing.toList ++ after)) (normalAll serialization children)
          (tag.closing.toList ++ after)) :
    ReadsInside serialization tag
      ((if tag.definition.isVoid then []
        else writtenAll serialization (some tag) children ++ tag.closing.toList) ++ after)
      (normalAll serialization children) after := by
  cases isVoid : tag.definition.isVoid with
  | true =>
    rw [isVoid, Bool.true_and, Bool.not_eq_false', List.isEmpty_iff] at empty
    rw [if_pos rfl, List.nil_append, empty, normalAll]
    exact .void isVoid after
  | false =>
    rw [if_neg Bool.false_ne_true, List.append_assoc]
    by_cases isRaw : tag.isRaw serialization
    · rw [isRaw, Bool.true_and, Bool.not_eq_true'] at quiet
      obtain ⟨text, written, normal, absent⟩ :=
        raw_children isRaw path checked quiet
          (by rcases Tag.script_or_style isRaw with rfl | rfl <;> rfl)
      rw [String.empty_append] at absent
      rw [written, normal]
      exact .raw isRaw absent after
    · rw [Bool.not_eq_true] at isRaw
      refine .encoded isVoid isRaw (content ?_)
      rw [Path.raw?_cons, isRaw]
      rfl

theorem Reading.ReadsAs.waiting {serialization : Serialization} {chars rest : List Char}
    {nodes : List Node}
    (reads : ReadsAs serialization ((Escape.text serialization "").toList ++ chars)
      (joinText "" nodes) rest) : ReadsAs serialization chars nodes rest := by
  rwa [joinText_empty] at reads

theorem Node.readsAs_written {serialization : Serialization} {doctype : Doctype} {path : Path}
    {before : String} (nodes : List Node)
    (checked : checkAll serialization doctype path before nodes = .ok ())
    (encoded : path.raw? serialization = none) (quiet : isQuietAll serialization nodes = true)
    (pending : String) {rest : List Char} (ends : Ends rest) :
    ReadsAs serialization ((Escape.text serialization pending).toList ++
        (writtenAll serialization path.head? nodes ++ rest))
      (joinText pending (normalAll serialization nodes)) rest :=
  -- A reader takes texts side by side at once, so a text is kept waiting in front of the rest.
  match nodes with
  | [] => by
    rw [writtenAll_nil, List.nil_append, normalAll]
    exact (ReadsAs.ends ends).pending pending (.of_ends ends) rfl
  | .text content :: others => by
    rw [checkAll, both_eq_ok] at checked
    rw [isQuietAll, Bool.and_eq_true] at quiet
    have later := readsAs_written others checked.2 encoded quiet.2 (pending ++ content) ends
    have joined : Escape.text serialization (pending ++ content) =
        Escape.text serialization pending ++ Escape.text serialization content :=
      Escape.escape_append _ _ _
    rw [joined, String.toList_append, ← joinText_joinText, List.append_assoc] at later
    rw [writtenAll_text, markup_text_of_raw?, encoded, List.append_assoc, normalAll, normal, join]
    exact later
  | .comment content :: others => by
    rw [checkAll, both_eq_ok, check, refuse_eq_ok, Bool.not_eq_false'] at checked
    rw [isQuietAll, Bool.and_eq_true] at quiet
    have later := (readsAs_written others checked.2 encoded quiet.2 "" ends).waiting
    have comment := ReadsAs.comment checked.1 later
    rw [writtenAll_comment]
    change ReadsAs _ _ (joinText pending (.comment content :: normalAll serialization others)) rest
    refine ReadsAs.pending pending (.bracket _) ?_ rfl
    simp only [List.append_assoc]
    exact comment
  | .element tag attributes children :: others => by
    rw [checkAll, both_eq_ok, check, both_eq_ok, both_eq_ok, both_eq_ok, refuse_eq_ok] at checked
    obtain ⟨⟨-, named, empty, inner⟩, outer⟩ := checked
    rw [isQuietAll, isQuiet, Bool.and_eq_true, Bool.and_eq_true] at quiet
    obtain ⟨⟨silent, within⟩, quiet⟩ := quiet
    have later := (readsAs_written others outer encoded quiet "" ends).waiting
    have valid := Tag.valid_of_checkAttributes named
    rw [writtenAll_element]
    change ReadsAs _ _ (joinText pending (.element tag
      (tag.ownAttributes serialization ++ attributes) (normalAll serialization children) ::
        normalAll serialization others)) rest
    refine ReadsAs.pending pending ?_ ?_ rfl
    · obtain ⟨c, more, spelled, -⟩ := startTag_spelled serialization tag attributes
      rw [spelled]
      exact .bracket _
    · rw [List.append_assoc, List.append_assoc]
      refine ReadsAs.element valid ?_ (by simp) later
      refine readsInside_children empty inner silent fun encoded => ?_
      exact (readsAs_written children inner encoded within "" (ends_closing tag _)).waiting
termination_by sizeOf nodes

theorem Node.read_of_render {parameters : Parameters} (plain : parameters.autoNewline = false)
    {node : Node} (quiet : node.isQuiet parameters.serialization = true) {bytes : List UInt8}
    (rendered : node.render parameters = .ok bytes) :
    ∃ text, bytes = utf8 text ∧
      read? parameters.serialization text = some (normalAll parameters.serialization [node]) := by
  rw [node.render_plain parameters plain] at rendered
  cases checked : node.check parameters.serialization parameters.doctype [] "" with
  | error error =>
    rw [checked] at rendered
    cases rendered
  | ok value =>
    rw [checked] at rendered
    refine ⟨_, (Except.ok.inj rendered).symm, ?_⟩
    have passed : checkAll parameters.serialization parameters.doctype [] "" [node] = .ok () := by
      rw [checkAll, checked]
      rfl
    have silent : isQuietAll parameters.serialization [node] = true := by
      rw [isQuietAll, quiet]
      rfl
    have reads : ReadsAs parameters.serialization
        (writtenAll parameters.serialization none [node] ++ [])
        (normalAll parameters.serialization [node]) [] :=
      (readsAs_written [node] passed rfl silent "" (.inl rfl)).waiting
    have written : (node.plain .markup parameters.serialization).toList =
        writtenAll parameters.serialization none [node] ++ [] := by
      rw [Node.plain, String.toList_join, writtenAll, tokensAll, tokensAll, List.append_nil,
        List.append_nil, List.flatMap_map, List.flatMap_map]
    rw [read?, written, reads _ (Nat.lt_succ_self _)]

/-- A tree that was rendered without automatic newlines is read back, in its normal form. So
trees that differ in their normal form are never rendered alike; nor are trees that differ,
if their texts are merged already. -/
theorem read_render (parameters : Parameters) (plain : parameters.autoNewline = false) (node : Node)
    (quiet : node.isQuiet parameters.serialization = true) (bytes : List UInt8)
    (rendered : node.render parameters = .ok bytes) :
    (∃ text, bytes = utf8 text ∧ read? parameters.serialization text =
      some (Node.normalAll parameters.serialization [node])) ∧
    ∀ (others : Parameters) (other : Node), others.serialization = parameters.serialization →
      others.autoNewline = false → other.isQuiet others.serialization = true →
      other.render others = .ok bytes →
        Node.normalAll parameters.serialization [other] =
          Node.normalAll parameters.serialization [node] ∧
        (node.isMerged = true → other.isMerged = true → other = node) := by
  obtain ⟨text, same, read⟩ := Node.read_of_render plain quiet rendered
  refine ⟨⟨text, same, read⟩, ?_⟩
  intro others other syntaxes unformatted silent alike
  obtain ⟨second, again, found⟩ := Node.read_of_render unformatted silent alike
  obtain rfl : second = text := utf8_injective (again.symm.trans same)
  rw [syntaxes] at found
  have normal := Option.some.inj (found.symm.trans read)
  refine ⟨normal, fun merged also => ?_⟩
  exact List.singleton_inj.mp
   
   
    (Node.eq_of_normalAll (Node.isMergedAll_singleton also) (Node.isMergedAll_singleton merged) normal)

/-- For instance, texts side by side, and a quote in a value. -/
theorem read_render_paragraph :
    let node := Node.element .p [("title", "\"")] [.text "a", .text "", .text "<b"]
    ∃ bytes text, node.render {} = .ok bytes ∧ bytes = utf8 text ∧
      read? .sgml text = some [.element .p [("title", "\"")] [.text "a<b"]] := by
  intro node
  have succeeds : (node.render {}).toOption.isSome = true := by decide +kernel
  cases rendered : node.render {} with
  | error error =>
    rw [rendered] at succeeds
    cases succeeds
  | ok bytes =>
    obtain ⟨text, same, read⟩ := (read_render {} rfl node (by decide +kernel) bytes rendered).1
    exact ⟨bytes, text, rfl, same, read⟩

end HtmlWriter
