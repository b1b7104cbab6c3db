import HtmlWriter.Proofs.Formatting
import HtmlWriter.Proofs.Normal
import Mathlib.Data.List.Nodup

/-! A reader of plain markup. It knows names, quotes, references, comments, which elements
are void and which have raw content, and nothing of content models or of how markup was
written. -/

namespace HtmlWriter

namespace Reading

/-- The character that a reference stands for. -/
def referred? : List Char → Option Char
  | ['a', 'm', 'p'] => some '&'
  | ['l', 't'] => some '<'
  | ['g', 't'] => some '>'
  | ['q', 'u', 'o', 't'] => some '"'
  | ['n', 'b', 's', 'p'] => some '\u00a0'
  | ['#', '9'] => some '\t'
  | ['#', '1', '0'] => some '\n'
  | _ => none

/-- Replace references by what they stand for. Inside of a reference, the first argument is
its name so far. -/
def decodeFrom : Option (List Char) → List Char → Option (List Char)
  | none, [] => some []
  | some _, [] => none
  | none, c :: rest =>
      if c = '&' then decodeFrom (some []) rest else (decodeFrom none rest).map (c :: ·)
  | some name, c :: rest =>
      if c = ';' then
        match referred? name with
        | some referred => (decodeFrom none rest).map (referred :: ·)
        | none => none
      else decodeFrom (some (name ++ [c])) rest

def decode? (chars : List Char) : Option String := (decodeFrom none chars).map String.ofList

def after? (pattern chars : List Char) : Option (List Char) :=
  if pattern.isPrefixOf chars then some (chars.drop pattern.length) else none

/-- The characters before the first place where a pattern stands, and those from there. The
case of letters is folded before they are compared. -/
def before? (fold : Char → Char) (pattern : List Char) : List Char → Option (List Char × List Char)
  | [] => none
  | c :: rest =>
      if pattern.isPrefixOf ((c :: rest).map fold) then some ([], c :: rest)
      else (before? fold pattern rest).map fun (found, rest) => (c :: found, rest)

/-- Read attributes, each a name and a value in double quotes, with a space before it. -/
def attributes? : Nat → List Char → Option (List (String × String) × List Char)
  | fuel + 1, ' ' :: chars => do
      let (name, chars) ← before? id ['='] chars
      let chars ← after? ['=', '"'] chars
      let (value, chars) ← before? id ['"'] chars
      let chars ← after? ['"'] chars
      let value ← decode? value
      let (attributes, chars) ← attributes? fuel chars
      return ((String.ofList name, value) :: attributes, chars)
  | _, chars => some ([], chars)

def inName (c : Char) : Bool := c != ' ' && c != '/' && c != '>'

/-- Read a start tag from its name on. -/
def startTag? (serialization : Serialization) (chars : List Char) :
    Option (Tag × List (String × String) × List Char) := do
  let tag ← Tag.all.find? fun tag => tag.name.toList == chars.takeWhile inName
  let (attributes, chars) ← attributes? chars.length (chars.dropWhile inName)
  let chars ← after? (if tag.definition.isVoid then serialization.selfClose.toList else ['>']) chars
  return (tag, attributes, chars)

/-- Read raw content, up to the first end tag of its element in any case. -/
def rawText? (tag : Tag) (chars : List Char) : Option (List Node × List Char) := do
  let (content, chars) ← before? Char.toLower (Writing.endTagOpening tag) chars
  return (if content.isEmpty then [] else [.text (String.ofList content)], chars)

/-- Read what follows a start tag up to the end of the element, given a reader of content. -/
def inside? (nodes : List Char → Option (List Node × List Char)) (serialization : Serialization)
    (tag : Tag) (chars : List Char) : Option (List Node × List Char) :=
  if tag.definition.isVoid then some ([], chars)
  else do
    let (children, chars) ← if tag.isRaw serialization then rawText? tag chars else nodes chars
    let chars ← after? tag.closing.toList chars
    return (children, chars)

/-- Read pieces of markup up to an end tag or the end. Each piece is at least one character,
so the length of the markup is fuel enough. -/
def nodes? (serialization : Serialization) : Nat → List Char → Option (List Node × List Char)
  | 0, _ => none
  | fuel + 1, chars =>
      if chars = [] ∨ ['<', '/'].isPrefixOf chars then some ([], chars)
      else if ['<', '!', '-', '-'].isPrefixOf chars then do
        let (content, chars) ← before? id ['-', '-', '>'] (chars.drop 4)
        let (nodes, chars) ← nodes? serialization fuel (chars.drop 3)
        return (.comment (String.ofList content) :: nodes, chars)
      else if ['<'].isPrefixOf chars then do
        let (tag, attributes, chars) ← startTag? serialization (chars.drop 1)
        let (children, chars) ← inside? (nodes? serialization fuel) serialization tag chars
        let (nodes, chars) ← nodes? serialization fuel chars
        return (.element tag attributes children :: nodes, chars)
      else do
        let content ← decode? (chars.takeWhile (· != '<'))
        let (nodes, chars) ← nodes? serialization fuel (chars.dropWhile (· != '<'))
        return (.text content :: nodes, chars)

def read? (serialization : Serialization) (text : String) : Option (List Node) :=
  match nodes? serialization (text.toList.length + 1) text.toList with
  | some (nodes, []) => some nodes
  | _ => none

/-- References that can be read back: each stands for its character, and the character that
begins a reference has one. -/
structure Refers (reference : Char → Option String) : Prop where
  known : ∀ c text, reference c = some text →
    ∃ name, text.toList = '&' :: name ++ [';'] ∧ ';' ∉ name ∧ referred? name = some c
  plain : reference '&' ≠ none

theorem textReference_refers (serialization : Serialization) :
    Refers (Escape.textReference serialization) := by
  refine ⟨fun c text found => ?_, nofun⟩
  unfold Escape.textReference at found
  split at found
  · cases found
    exact ⟨['a', 'm', 'p'], rfl, by decide, rfl⟩
  · cases found
    exact ⟨['l', 't'], rfl, by decide, rfl⟩
  · cases found
    exact ⟨['g', 't'], rfl, by decide, rfl⟩
  · split at found <;> cases found
    exact ⟨['n', 'b', 's', 'p'], rfl, by decide, rfl⟩
  · cases found

theorem valueReference_refers (serialization : Serialization) :
    Refers (Escape.valueReference serialization) := by
  refine ⟨fun c text found => ?_, nofun⟩
  unfold Escape.valueReference at found
  split at found
  · cases found
    exact ⟨['a', 'm', 'p'], rfl, by decide, rfl⟩
  · cases found
    exact ⟨['q', 'u', 'o', 't'], rfl, by decide, rfl⟩
  · split at found <;> cases found
    exact ⟨['l', 't'], rfl, by decide, rfl⟩
  · split at found <;> cases found
    exact ⟨['n', 'b', 's', 'p'], rfl, by decide, rfl⟩
  · split at found <;> cases found
    exact ⟨['#', '1', '0'], rfl, by decide, rfl⟩
  · split at found <;> cases found
    exact ⟨['#', '9'], rfl, by decide, rfl⟩
  · cases found

private theorem decodeFrom_name (known : List Char) {name : List Char} (free : ';' ∉ name)
    (rest : List Char) :
    decodeFrom (some known) (name ++ ';' :: rest) =
      match referred? (known ++ name) with
      | some referred => (decodeFrom none rest).map (referred :: ·)
      | none => none := by
  induction name generalizing known with
  | nil => rw [List.nil_append, List.append_nil, decodeFrom, if_pos rfl]
  | cons c name ih =>
    rw [List.mem_cons, not_or] at free
    rw [List.cons_append, decodeFrom, if_neg (Ne.symm free.1), ih _ free.2, List.append_assoc]
    rfl

theorem Refers.decodeFrom_expand {reference : Char → Option String} (refers : Refers reference)
    (c : Char) (rest : List Char) :
    decodeFrom none (Escape.expand reference c ++ rest) = (decodeFrom none rest).map (c :: ·) := by
  unfold Escape.expand
  cases found : reference c with
  | some text =>
    obtain ⟨name, spelled, free, known⟩ := refers.known c text found
    change decodeFrom none (text.toList ++ rest) = _
    rw [spelled, List.append_assoc, List.cons_append, decodeFrom, if_pos rfl]
    change decodeFrom (some []) (name ++ ';' :: rest) = _
    rw [decodeFrom_name [] free, List.nil_append, known]
  | none =>
    have plain : c ≠ '&' := fun same => refers.plain (same ▸ found)
    change decodeFrom none (c :: rest) = _
    rw [decodeFrom, if_neg plain]

theorem Refers.decode?_escape {reference : Char → Option String} (refers : Refers reference)
    (content : String) : decode? (Escape.escape reference content).toList = some content := by
  have chars (list : List Char) :
      decodeFrom none (list.flatMap (Escape.expand reference)) = some list := by
    induction list with
    | nil => rfl
    | cons c rest ih => rw [List.flatMap_cons, refers.decodeFrom_expand, ih, Option.map_some]
  rw [decode?, Escape.toList_escape, chars, Option.map_some, String.ofList_toList]

/-- The characters that references are spelled with. -/
def spellsReference (c : Char) : Bool := c.isAlphanum || ['&', '#', ';'].contains c

private theorem referred?_spells {name : List Char} {c : Char} (known : referred? name = some c) :
    name.all spellsReference = true := by
  unfold referred? at known
  split at known <;> cases known <;> decide

theorem Refers.spelled {reference : Char → Option String} (refers : Refers reference) {c : Char}
    {text : String} (found : reference c = some text) : text.toList.all spellsReference = true := by
  obtain ⟨name, spelled, -, known⟩ := refers.known c text found
  have ends : [';'].all spellsReference = true := by decide
  rw [spelled, List.all_append, List.all_cons, referred?_spells known, ends]
  decide

theorem Refers.free {reference : Char → Option String} (refers : Refers reference) {mark : Char}
    (marks : spellsReference mark = false) (escaped : reference mark ≠ none) (content : String) :
    mark ∉ (Escape.escape reference content).toList := by
  rw [Escape.toList_escape, List.mem_flatMap]
  rintro ⟨c, -, member⟩
  unfold Escape.expand at member
  cases found : reference c with
  | some text =>
    rw [found] at member
    have spells := List.all_eq_true.mp (refers.spelled found) mark member
    rw [marks] at spells
    cases spells
  | none =>
    rw [found] at member
    obtain rfl : mark = c := List.mem_singleton.mp member
    exact escaped found

theorem Refers.length_le {reference : Char → Option String} (refers : Refers reference)
    (chars : List Char) : chars.length ≤ (chars.flatMap (Escape.expand reference)).length := by
  induction chars with
  | nil => exact Nat.le_refl _
  | cons c rest ih =>
    have some : 1 ≤ (Escape.expand reference c).length := by
      unfold Escape.expand
      cases found : reference c with
      | some text =>
        obtain ⟨name, spelled, -⟩ := refers.known c text found
        change 1 ≤ text.toList.length
        rw [spelled]
        simp
      | none => exact Nat.le_refl _
    rw [List.flatMap_cons, List.length_append, List.length_cons]
    omega

theorem quote_free (serialization : Serialization) (value : String) :
    '"' ∉ (Escape.value serialization value).toList :=
  (valueReference_refers serialization).free rfl (by cases serialization <;> nofun) value

theorem bracket_free (serialization : Serialization) (content : String) :
    '<' ∉ (Escape.text serialization content).toList :=
  (textReference_refers serialization).free rfl (by cases serialization <;> nofun) content

theorem decode?_value (serialization : Serialization) (value : String) :
    decode? (Escape.value serialization value).toList = some value :=
  (valueReference_refers serialization).decode?_escape value

theorem decode?_text (serialization : Serialization) (content : String) :
    decode? (Escape.text serialization content).toList = some content :=
  (textReference_refers serialization).decode?_escape content

theorem after?_append (pattern rest : List Char) :
    after? pattern (pattern ++ rest) = some rest := by
  rw [after?, if_pos, List.drop_left]
  exact List.isPrefixOf_iff_prefix.mpr ⟨rest, rfl⟩

theorem after?_eq_none {pattern chars : List Char} :
    after? pattern chars = none ↔ ¬ pattern <+: chars := by
  rw [after?, ← List.isPrefixOf_iff_prefix]
  cases pattern.isPrefixOf chars <;> simp

theorem before?_append {fold : Char → Char} {pattern content rest : List Char}
    (nonempty : rest ≠ []) (found : pattern.isPrefixOf (rest.map fold) = true)
    (absent : ∀ suffix, suffix ≠ [] → suffix <:+ content →
      pattern.isPrefixOf ((suffix ++ rest).map fold) = false) :
    before? fold pattern (content ++ rest) = some (content, rest) := by
  induction content with
  | nil =>
    cases rest with
    | nil => exact absurd rfl nonempty
    | cons c rest => rw [List.nil_append, before?, if_pos found]
  | cons c content ih =>
    have here := absent (c :: content) (List.cons_ne_nil _ _) List.suffix_rfl
    rw [List.cons_append] at here
    rw [List.cons_append, before?, if_neg (ne_true_of_eq_false here),
      ih fun suffix filled inside => absent suffix filled (inside.trans (List.suffix_cons c content))]
    rfl

theorem before?_char {mark : Char} {content : List Char} (free : mark ∉ content)
    (rest : List Char) :
    before? id [mark] (content ++ mark :: rest) = some (content, mark :: rest) := by
  refine before?_append (List.cons_ne_nil _ _) (by simp) fun suffix filled inside => ?_
  cases suffix with
  | nil => exact absurd rfl filled
  | cons c suffix =>
    have member : c ∈ content := inside.subset (List.mem_cons_self ..)
    have apart : mark ≠ c := fun same => free (same ▸ member)
    simp [List.isPrefixOf, apart]

/-- A number for the characters of a name. Numbers are compared at once. -/
private def code (chars : List Char) : Nat := chars.foldl (fun code c => 128 * code + c.toNat) 0

private theorem eq_of_name {tag other : Tag} (same : other.name.toList = tag.name.toList) :
    other = tag := by
  have apart : (Tag.all.map fun tag => code tag.name.toList).Nodup := by decide +kernel
  exact List.inj_on_of_nodup_map apart (Tag.mem_all other) (Tag.mem_all tag) (congrArg code same)

private theorem find?_name (tag : Tag) :
    Tag.all.find? (fun other => other.name.toList == tag.name.toList) = some tag := by
  cases found : Tag.all.find? (fun other => other.name.toList == tag.name.toList) with
  | none => exact absurd BEq.rfl (List.find?_eq_none.mp found tag (Tag.mem_all tag))
  | some other =>
    have same := List.find?_some found
    rw [eq_of_name (eq_of_beq same)]

theorem isAlphanum_of_mem_name {tag : Tag} {c : Char} (member : c ∈ tag.name.toList) :
    c.isAlphanum = true := by
  have all : tag.name.toList.all Char.isAlphanum = true := by
    cases tag <;> decide +kernel
  exact List.all_eq_true.mp all c member

theorem continues_of_mem_name {serialization : Serialization} {name : String}
    (valid : AttributeName.isValid serialization name = true) {c : Char} (member : c ∈ name.toList) :
    AttributeName.continues c = true := by
  have continues (c : Char) (begins : AttributeName.begins serialization c = true) :
      AttributeName.continues c = true := by
    unfold AttributeName.begins at begins
    cases serialization with
    | sgml => exact begins
    | xml =>
      simp only [Bool.and_eq_true] at begins
      exact begins.1.1.1
  unfold AttributeName.isValid at valid
  split at valid
  · cases valid
  · rename_i first rest spelled
    rw [Bool.and_eq_true, List.all_eq_true] at valid
    rw [spelled, List.mem_cons] at member
    rcases member with rfl | member
    · exact continues _ valid.1
    · exact valid.2 _ member

private theorem equals_free {serialization : Serialization} {name : String}
    (valid : AttributeName.isValid serialization name = true) : '=' ∉ name.toList := by
  intro member
  have stops : AttributeName.continues '=' = false := by decide
  rw [continues_of_mem_name valid member] at stops
  cases stops

def Valid (serialization : Serialization) (attributes : List (String × String)) : Prop :=
  ∀ entry ∈ attributes, AttributeName.isValid serialization entry.1 = true

private theorem attributes?_written {serialization : Serialization}
    {attributes : List (String × String)}
    (valid : Valid serialization attributes) {rest : List Char} (ends : rest.head? ≠ some ' ')
    {fuel : Nat} (enough : attributes.length ≤ fuel) :
    attributes? fuel
        ((String.join (attributes.map (Encoder.markup.attribute serialization))).toList ++ rest) =
      some (attributes, rest) := by
  induction attributes generalizing fuel with
  | nil =>
    rw [List.map_nil, String.join_nil, String.toList_empty, List.nil_append]
    unfold attributes?
    split
    · exact absurd rfl ends
    · rfl
  | cons entry others ih =>
    obtain ⟨name, value⟩ := entry
    cases fuel with
    | zero => simp at enough
    | succ fuel =>
      have named := equals_free (valid _ (List.mem_cons_self ..))
      have quoted := quote_free serialization value
      have read := decode?_value serialization value
      have later := ih (fun entry member => valid entry (List.mem_cons_of_mem _ member))
        (Nat.le_of_succ_le_succ enough)
      rw [List.map_cons, String.join_cons, String.toList_append, List.append_assoc]
      generalize (String.join _).toList ++ rest = remaining at later ⊢
      have spelled : (Encoder.markup.attribute serialization (name, value)).toList ++ remaining =
          ' ' :: (name.toList ++ '=' :: '"' ::
            ((Escape.value serialization value).toList ++ '"' :: remaining)) := by
        simp [Encoder.attribute, Encoder.markup]
      have opened (tail : List Char) : after? ['=', '"'] ('=' :: '"' :: tail) = some tail :=
        after?_append ['=', '"'] tail
      have closed : after? ['"'] ('"' :: remaining) = some remaining := after?_append ['"'] remaining
      rw [spelled]
      simp only [attributes?, before?_char named, opened, before?_char quoted, closed, read, later,
        Option.bind_eq_bind, Option.bind_some, String.ofList_toList]
      rfl

theorem opening_eq (serialization : Serialization) (tag : Tag) :
    tag.opening serialization = "<" ++ tag.name ++
      String.join ((tag.ownAttributes serialization).map
        (Encoder.markup.attribute serialization)) := by
  unfold Tag.opening Tag.ownAttributes
  cases namespaced : tag.isNamespaced serialization with
  | false => rfl
  | true =>
    rw [Tag.isNamespaced, Bool.and_eq_true, decide_eq_true_eq, decide_eq_true_eq] at namespaced
    obtain ⟨rfl, rfl⟩ := namespaced
    decide +kernel

theorem startTag_eq (serialization : Serialization) (tag : Tag)
    (attributes : List (String × String)) :
    Encoder.markup.startTag serialization tag attributes =
      "<" ++ (tag.name ++ (String.join ((tag.ownAttributes serialization ++ attributes).map
        (Encoder.markup.attribute serialization)) ++
          if tag.definition.isVoid then serialization.selfClose else ">")) := by
  rw [Encoder.startTag, Encoder.unfinishedTag, opening_eq, List.map_append, String.join_append]
  simp only [String.append_assoc]

theorem length_le_join {α : Type} (markup : α → String)
    (spaced : ∀ entry, (markup entry).toList.head? = some ' ') (entries : List α) :
    entries.length ≤ (String.join (entries.map markup)).toList.length := by
  induction entries with
  | nil => exact Nat.zero_le _
  | cons entry rest ih =>
    rw [List.map_cons, String.join_cons, String.toList_append, List.length_append, List.length_cons]
    have some : (markup entry).toList ≠ [] := by
      intro none
      have space := spaced entry
      rw [none] at space
      cases space
    have counted := List.length_pos_iff.mpr some
    omega

private theorem Valid.withOwn {serialization : Serialization}
    {attributes : List (String × String)} (valid : Valid serialization attributes) (tag : Tag) :
    Valid serialization (tag.ownAttributes serialization ++ attributes) := by
  intro entry member
  rcases List.mem_append.mp member with first | later
  · unfold Tag.ownAttributes at first
    split at first
    · obtain rfl := List.mem_singleton.mp first
      cases serialization <;> decide +kernel
    · cases first
  · exact valid entry later

private theorem inName_of_mem_name {tag : Tag} {c : Char} (member : c ∈ tag.name.toList) :
    inName c = true := by
  have letter := isAlphanum_of_mem_name member
  unfold inName
  simp only [Bool.and_eq_true, bne_iff_ne, ne_eq]
  refine ⟨⟨?_, ?_⟩, ?_⟩ <;> rintro rfl <;> exact absurd letter (by decide)

theorem startTag?_written {serialization : Serialization} (tag : Tag)
    {attributes : List (String × String)} (valid : Valid serialization attributes)
    (rest : List Char) :
    startTag? serialization (((Encoder.markup.startTag serialization tag attributes).toList ++
        rest).drop 1) =
      some (tag, tag.ownAttributes serialization ++ attributes, rest) := by
  have own := valid.withOwn tag
  generalize ended : (if tag.definition.isVoid then serialization.selfClose.toList else ['>']) = mark
  have mark_eq : (if tag.definition.isVoid then serialization.selfClose else ">").toList = mark := by
    rw [← ended]
    split <;> rfl
  rw [startTag_eq, String.toList_append, String.toList_append, String.toList_append, mark_eq]
  generalize tag.ownAttributes serialization ++ attributes = all at own ⊢
  generalize written : (String.join (all.map (Encoder.markup.attribute serialization))).toList = text
  obtain ⟨sign, signs, rfl, past, solid⟩ :
      ∃ c more, mark = c :: more ∧ inName c = false ∧ c ≠ ' ' := by
    rw [← ended]
    cases tag.definition.isVoid <;> cases serialization <;>
      exact ⟨_, _, rfl, by decide, by decide⟩
  have read : attributes? (tag.name.toList ++ (text ++ (sign :: signs ++ rest))).length
      (text ++ (sign :: signs ++ rest)) = some (all, sign :: signs ++ rest) := by
    rw [← written]
    refine attributes?_written own (by simpa using solid) ?_
    have enough := length_le_join (Encoder.markup.attribute serialization)
      (fun entry => by simp [Encoder.attribute]) all
    simp only [List.length_append]
    omega
  have stops : ∃ c more, text ++ (sign :: signs ++ rest) = c :: more ∧ inName c = false := by
    rw [← written]
    cases all with
    | nil => exact ⟨sign, signs ++ rest, by simp, past⟩
    | cons entry others =>
      rw [List.map_cons, String.join_cons]
      exact ⟨' ', _, by simp [Encoder.attribute]; rfl, by decide⟩
  obtain ⟨c, more, next, outside⟩ := stops
  have chars : ("<".toList ++ (tag.name.toList ++ (text ++ (sign :: signs))) ++ rest).drop 1 =
      tag.name.toList ++ (text ++ (sign :: signs ++ rest)) := by
    simp
  have taken : (tag.name.toList ++ (text ++ (sign :: signs ++ rest))).takeWhile inName =
      tag.name.toList := by
    rw [List.takeWhile_append_of_pos fun _ => inName_of_mem_name, next, List.takeWhile_cons_of_neg (by simp [outside]),
      List.append_nil]
  have dropped : (tag.name.toList ++ (text ++ (sign :: signs ++ rest))).dropWhile inName =
      text ++ (sign :: signs ++ rest) := by
    rw [List.dropWhile_append_of_pos fun _ => inName_of_mem_name, next,
      List.dropWhile_cons_of_neg (by simp [outside])]
  rw [chars]
  unfold startTag?
  rw [taken, find?_name]
  simp only [Option.bind_eq_bind, Option.bind_some, dropped, read, ended, after?_append]
  rfl

section
variable (serialization : Serialization) (fuel : Nat) (chars : List Char)

theorem nodes?_comment :
    nodes? serialization (fuel + 1) ('<' :: '!' :: '-' :: '-' :: chars) = (do
      let (content, chars) ← before? id ['-', '-', '>'] chars
      let (nodes, chars) ← nodes? serialization fuel (chars.drop 3)
      return (.comment (String.ofList content) :: nodes, chars)) := by
  rw [nodes?, if_neg (by simp [List.isPrefixOf]), if_pos (by simp [List.isPrefixOf])]
  rfl

theorem nodes?_element {c : Char} (slash : c ≠ '/') (mark : c ≠ '!') :
    nodes? serialization (fuel + 1) ('<' :: c :: chars) = (do
      let (tag, attributes, chars) ← startTag? serialization (c :: chars)
      let (children, chars) ← inside? (nodes? serialization fuel) serialization tag chars
      let (nodes, chars) ← nodes? serialization fuel chars
      return (.element tag attributes children :: nodes, chars)) := by
  rw [nodes?, if_neg (by simp [List.isPrefixOf, slash.symm]),
    if_neg (by simp [List.isPrefixOf, mark.symm]), if_pos (by simp [List.isPrefixOf])]
  rfl

theorem nodes?_text {c : Char} (bracket : c ≠ '<') :
    nodes? serialization (fuel + 1) (c :: chars) = (do
      let content ← decode? ((c :: chars).takeWhile (· != '<'))
      let (nodes, chars) ← nodes? serialization fuel ((c :: chars).dropWhile (· != '<'))
      return (.text content :: nodes, chars)) := by
  have other (pattern : List Char) : ('<' :: pattern).isPrefixOf (c :: chars) = false := by
    simp [List.isPrefixOf, bracket.symm]
  rw [nodes?, if_neg (by simp [other]), if_neg (by simp [other]), if_neg (by simp [other])]

end

end Reading
end HtmlWriter
