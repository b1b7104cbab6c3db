import HtmlWriter.Proofs.Reading
import HtmlWriter.Proofs.Requests

/-! A scanner of start tags. Unlike the reader of markup it takes any names, attributes with and
without a value, and blanks wherever they may stand, so it shows that nothing in a start tag is
taken for anything but what was written there. -/

namespace HtmlWriter

/-- The value of an attribute as it is written behind the name, and nothing if there is none. -/
def valueMarkup (serialization : Serialization) : Option String → String
  | some value => "=\"" ++ Escape.value serialization value ++ "\""
  | none => ""

def entryMarkup (serialization : Serialization) (entry : String × Option String) : String :=
  " " ++ entry.1 ++ valueMarkup serialization entry.2

def entriesMarkup (serialization : Serialization) (entries : List (String × Option String)) :
    String :=
  String.join (entries.map (entryMarkup serialization))

/-- Markup that begins with an attribute begins with a space, and then has its name. -/
private theorem entriesMarkup_cons (serialization : Serialization) (entry : String × Option String)
    (entries : List (String × Option String)) (rest : List Char) :
    (entriesMarkup serialization (entry :: entries)).toList ++ rest =
      ' ' :: (entry.1.toList ++ ((valueMarkup serialization entry.2).toList ++
        ((entriesMarkup serialization entries).toList ++ rest))) := by
  rw [entriesMarkup, List.map_cons, String.join_cons]
  simp [entryMarkup, entriesMarkup]

theorem entriesMarkup_append (serialization : Serialization)
    (first second : List (String × Option String)) :
    entriesMarkup serialization (first ++ second) =
      entriesMarkup serialization first ++ entriesMarkup serialization second := by
  rw [entriesMarkup, List.map_append, String.join_append]
  rfl

namespace Reading

/-- Names end at a blank, an equals sign, a slash or a bracket. -/
def continuesName (c : Char) : Bool := !(Text.isBlank c || ['=', '/', '>'].contains c)

/-- Scan a name, which is at least a character long. -/
def scanName? (chars : List Char) : Option (String × List Char) :=
  let name := chars.takeWhile continuesName
  if name = [] then none else some (String.ofList name, chars.dropWhile continuesName)

def closed? (chars : List Char) : Option (List Char) :=
  after? ['>'] chars <|> after? ['/', '>'] chars

/-- Scan the value behind a name, in double quotes and after an equals sign, if there is one. -/
def scanValue? (chars : List Char) : Option (Option String × List Char) :=
  match after? ['='] (chars.dropWhile Text.isBlank) with
  | none => some (none, chars)
  | some chars => do
      let chars ← after? ['"'] (chars.dropWhile Text.isBlank)
      let (value, chars) ← before? id ['"'] chars
      let chars ← after? ['"'] chars
      let value ← decode? value
      return (some value, chars)

/-- Scan attributes up to the end of the start tag. -/
def scanAttributes? : Nat → List Char → Option (List (String × Option String) × List Char)
  | 0, _ => none
  | fuel + 1, chars =>
      let chars := chars.dropWhile Text.isBlank
      match closed? chars with
      | some chars => some ([], chars)
      | none => do
          let (name, chars) ← scanName? chars
          let (value, chars) ← scanValue? chars
          let (entries, chars) ← scanAttributes? fuel chars
          return ((name, value) :: entries, chars)

/-- Scan a start tag: the name of its element, and its attributes in order. Each of them has a name
of at least one character, so the length of the markup is fuel enough. -/
def scanTag? (chars : List Char) : Option (String × List (String × Option String) × List Char) := do
  let chars ← after? ['<'] chars
  let (name, chars) ← scanName? chars
  let (entries, chars) ← scanAttributes? chars.length chars
  return (name, entries, chars)

/-- A kind of characters that has none of the eight at which names end. -/
private theorem continuesName_of_kind {kind : Char → Bool}
    (apart : [' ', '\t', '\n', '\x0c', '\r', '=', '/', '>'].all (!kind ·) = true) {c : Char}
    (holds : kind c = true) : continuesName c = true := by
  have absent : c ∉ [' ', '\t', '\n', '\x0c', '\r', '=', '/', '>'] := by
    intro member
    have other := List.all_eq_true.mp apart c member
    rw [holds] at other
    cases other
  simpa [continuesName, Text.isBlank, and_assoc] using absent

theorem scanName?_written {name : String} {rest : List Char} (lettered : name.toList ≠ [])
    (continues : ∀ c ∈ name.toList, continuesName c = true)
    (stops : ∀ c ∈ rest.head?, continuesName c = false) :
    scanName? (name.toList ++ rest) = some (name, rest) := by
  have taken : (name.toList ++ rest).takeWhile continuesName = name.toList := by
    rw [List.takeWhile_append_of_pos continues]
    cases rest with
    | nil => rw [List.takeWhile_nil, List.append_nil]
    | cons c rest => rw [List.takeWhile_cons_of_neg (by simp [stops c rfl]), List.append_nil]
  have left : (name.toList ++ rest).dropWhile continuesName = rest := by
    rw [List.dropWhile_append_of_pos continues]
    cases rest with
    | nil => rfl
    | cons c rest => rw [List.dropWhile_cons_of_neg (by simp [stops c rfl])]
  unfold scanName?
  dsimp only
  rw [taken, left, if_neg lettered, String.ofList_toList]

/-- What may stand behind a whole attribute: it goes on neither with the name nor with a value. -/
structure Follows (chars : List Char) : Prop where
  stops : ∀ c ∈ chars.head?, continuesName c = false
  noValue : after? ['='] (chars.dropWhile Text.isBlank) = none

def closings : List (List Char) := [['>'], ['/', '>']]

variable {serialization : Serialization} {entries : List (String × Option String)}
  {closing : List Char}

private theorem eq_of_closing (closes : closing ∈ closings) :
    closing = ['>'] ∨ closing = ['/', '>'] := by
  simpa [closings] using closes

private theorem closed?_closing (closes : closing ∈ closings) (rest : List Char) :
    closed? ((closing ++ rest).dropWhile Text.isBlank) = some rest := by
  obtain rfl | rfl := eq_of_closing closes
  · rfl
  · rfl

def Named (serialization : Serialization) (entries : List (String × Option String)) : Prop :=
  ∀ entry ∈ entries, AttributeName.isValid serialization entry.1 = true

section
variable {name : String} (valid : AttributeName.isValid serialization name = true)
include valid

private theorem name_spelled :
    ∃ c more, name.toList = c :: more ∧ ∀ d ∈ c :: more, continuesName d = true := by
  have continues (d : Char) (member : d ∈ name.toList) :=
    continuesName_of_kind (by decide) (continues_of_mem_name valid member)
  cases spelled : name.toList with
  | nil =>
    rw [AttributeName.isValid, spelled] at valid
    cases valid
  | cons c more =>
    rw [spelled] at continues
    exact ⟨c, more, rfl, continues⟩

private theorem after?_name {mark : Char} (ends : continuesName mark = false)
    (pattern rest : List Char) :
    after? (mark :: pattern) (name.toList ++ rest) = none := by
  obtain ⟨c, more, spelled, continues⟩ := name_spelled valid
  rw [spelled, List.cons_append, after?_eq_none]
  intro found
  obtain rfl := (List.cons_prefix_cons.mp found).1
  rw [continues mark (List.mem_cons_self ..)] at ends
  cases ends

private theorem dropWhile_blank_name (rest : List Char) :
    (' ' :: (name.toList ++ rest)).dropWhile Text.isBlank = name.toList ++ rest := by
  obtain ⟨c, more, spelled, continues⟩ := name_spelled valid
  have solid := continues c (List.mem_cons_self ..)
  simp only [continuesName, Bool.not_eq_true', Bool.or_eq_false_iff] at solid
  rw [spelled, List.cons_append, List.dropWhile_cons_of_pos (by decide),
    List.dropWhile_cons_of_neg (ne_true_of_eq_false solid.1)]

end

private theorem follows_written (named : Named serialization entries) (closes : closing ∈ closings)
    (rest : List Char) :
    Follows ((entriesMarkup serialization entries).toList ++ (closing ++ rest)) := by
  cases entries with
  | nil =>
    obtain rfl | rfl := eq_of_closing closes
    · exact ⟨fun | _, rfl => rfl, rfl⟩
    · exact ⟨fun | _, rfl => rfl, rfl⟩
  | cons entry others =>
    have valid := named entry (List.mem_cons_self ..)
    rw [entriesMarkup_cons]
    refine ⟨fun | _, rfl => rfl, ?_⟩
    rw [dropWhile_blank_name valid, after?_name valid rfl]

theorem Follows.value {rest : List Char} (follows : Follows rest) (serialization : Serialization)
    (value : Option String) :
    ∀ c ∈ ((valueMarkup serialization value).toList ++ rest).head?, continuesName c = false := by
  cases value with
  | none => exact follows.stops
  | some value =>
    rw [valueMarkup, String.toList_append, String.toList_append]
    exact fun | _, rfl => rfl

private theorem scanValue?_written (value : Option String) {rest : List Char}
    (follows : Follows rest) :
    scanValue? ((valueMarkup serialization value).toList ++ rest) = some (value, rest) := by
  cases value with
  | none =>
    change scanValue? rest = _
    rw [scanValue?, follows.noValue]
  | some value =>
    have quoted := quote_free serialization value
    have read := decode?_value serialization value
    have spelled : (valueMarkup serialization (some value)).toList ++ rest =
        '=' :: '"' :: ((Escape.value serialization value).toList ++ '"' :: rest) := by
      simp [valueMarkup]
    have opened (mark : Char) (tail : List Char) : after? [mark] (mark :: tail) = some tail :=
      after?_append [mark] tail
    rw [spelled, scanValue?, List.dropWhile_cons_of_neg (by decide), opened]
    dsimp only
    rw [List.dropWhile_cons_of_neg (by decide), opened]
    simp only [Option.bind_eq_bind, Option.bind_some, before?_char quoted, opened, read]
    rfl

theorem scanAttributes?_written (named : Named serialization entries) (closes : closing ∈ closings)
    (rest : List Char) {fuel : Nat} (enough : entries.length < fuel) :
    scanAttributes? fuel
        ((entriesMarkup serialization entries).toList ++ (closing ++ rest)) =
      some (entries, rest) := by
  induction entries generalizing fuel with
  | nil =>
    cases fuel with
    | zero => simp at enough
    | succ fuel =>
      change scanAttributes? (fuel + 1) (closing ++ rest) = some ([], rest)
      rw [scanAttributes?]
      dsimp only
      rw [closed?_closing closes]
  | cons entry others ih =>
    cases fuel with
    | zero => simp at enough
    | succ fuel =>
      have valid := named entry (List.mem_cons_self ..)
      have others := fun entry member => named entry (List.mem_cons_of_mem _ member)
      have later := ih others (Nat.lt_of_succ_lt_succ enough)
      -- What stands behind the attribute neither goes on with its name nor gives it a value.
      have follows := follows_written others closes rest
      rw [entriesMarkup_cons]
      generalize (entriesMarkup serialization _).toList ++ (closing ++ rest) = remaining
        at later follows ⊢
      obtain ⟨c, more, spelled, continues⟩ := name_spelled valid
      have lettered : entry.1.toList ≠ [] := by
        rw [spelled]
        exact List.cons_ne_nil c more
      rw [← spelled] at continues
      have stops := follows.value serialization entry.2
      have opens : closed? (entry.1.toList ++
          ((valueMarkup serialization entry.2).toList ++ remaining)) = none := by
        rw [closed?, after?_name valid rfl, after?_name valid rfl]
        rfl
      rw [scanAttributes?, dropWhile_blank_name valid]
      dsimp only
      rw [opens]
      simp only [scanName?_written lettered continues stops, scanValue?_written entry.2 follows,
        later, Option.bind_eq_bind, Option.bind_some]
      rfl

/-- A start tag is scanned as it was written, up to the bracket that closes it. -/
theorem scanTag?_written (tag : Tag) (named : Named serialization entries)
    (closes : closing ∈ closings) (rest : List Char) :
    scanTag? (("<" ++ tag.name ++ entriesMarkup serialization entries).toList ++
        (closing ++ rest)) =
      some (tag.name, entries, rest) := by
  have continues (c : Char) (member : c ∈ tag.name.toList) : continuesName c = true :=
    continuesName_of_kind (by decide) (isAlphanum_of_mem_name member)
  have lettered : tag.name.toList ≠ [] := by cases tag <;> decide
  have follows := follows_written named closes rest
  have bracket : 0 < closing.length := by
    obtain rfl | rfl := eq_of_closing closes <;> decide
  have enough : entries.length <
      ((entriesMarkup serialization entries).toList ++ (closing ++ rest)).length := by
    have shorter : entries.length ≤ (entriesMarkup serialization entries).toList.length :=
      length_le_join (entryMarkup serialization) (fun entry => by simp [entryMarkup]) entries
    simp only [List.length_append]
    omega
  have read := scanAttributes?_written named closes rest enough
  have opened (tail : List Char) : after? ['<'] ("<".toList ++ tail) = some tail :=
    after?_append ['<'] tail
  simp only [String.toList_append, List.append_assoc] at follows read ⊢
  rw [scanTag?, opened]
  simp only [scanName?_written lettered continues follows.stops, read, Option.bind_eq_bind,
    Option.bind_some]
  rfl

end Reading
end HtmlWriter
