import HtmlWriter.Proofs.Reading

/-! Values of attributes as an XML reader takes them. It makes every line end a newline; then it
turns the blanks of a value into spaces, and references into what they stand for. A character that
the reader would change comes through only as a reference, and of these the carriage return has
none. -/

namespace HtmlWriter

namespace Reading

/-- Make every line end a newline: a carriage return, or the two together. -/
def unifyLineEnds : List Char → List Char
  | [] => []
  | c :: rest =>
      if c = '\r' then
        if rest.head? = some '\n' then unifyLineEnds rest else '\n' :: unifyLineEnds rest
      else c :: unifyLineEnds rest

def digit? (base : Nat) (c : Char) : Option Nat :=
  ("0123456789abcdef".toList.take base).findIdx? (· == c.toLower)

def numbered? (base : Nat) (digits : List Char) : Option Char := do
  guard (digits ≠ [])
  let n ← digits.foldlM (fun n c => (digit? base c).map (base * n + ·)) 0
  guard n.isValidChar
  return Char.ofNat n

/-- The character that a reference stands for in any XML document. -/
def xmlReferred? : List Char → Option Char
  | ['a', 'm', 'p'] => some '&'
  | ['l', 't'] => some '<'
  | ['g', 't'] => some '>'
  | ['q', 'u', 'o', 't'] => some '"'
  | ['a', 'p', 'o', 's'] => some '\''
  | '#' :: 'x' :: digits => numbered? 16 digits
  | '#' :: digits => numbered? 10 digits
  | _ => none

/-- Read a value up to its closing quote. Blanks are read as spaces, unless they are referred to. -/
def xmlValueFrom? : Nat → List Char → Option (List Char × List Char)
  | fuel + 1, c :: chars =>
      if c = '"' then some ([], chars)
      else if c = '<' then none
      else if c = '&' then do
        let (name, chars) ← before? id [';'] chars
        let referred ← xmlReferred? name
        let (value, chars) ← xmlValueFrom? fuel (chars.drop 1)
        return (referred :: value, chars)
      else do
        let (value, chars) ← xmlValueFrom? fuel chars
        return ((if ['\t', '\n', '\r'].contains c then ' ' else c) :: value, chars)
  | _, _ => none

def xmlValue? (chars : List Char) : Option (String × List Char) :=
  let chars := unifyLineEnds chars
  (xmlValueFrom? chars.length chars).map fun (value, chars) => (String.ofList value, chars)

def unified (c : Char) : Char := if c = '\r' then '\n' else c

private theorem unifyLineEnds_append {chars : List Char} (free : '\n' ∉ chars) {mark : Char}
    (apart : mark ≠ '\n') (solid : mark ≠ '\r') (rest : List Char) :
    unifyLineEnds (chars ++ mark :: rest) = chars.map unified ++ mark :: unifyLineEnds rest := by
  induction chars with
  | nil => rw [List.nil_append, unifyLineEnds, if_neg solid, List.map_nil, List.nil_append]
  | cons c chars ih =>
    rw [List.mem_cons, not_or] at free
    have next : (chars ++ mark :: rest).head? ≠ some '\n' := by
      cases chars with
      | nil => exact fun same => apart (Option.some.inj same)
      | cons d chars => exact fun same => free.2 (Option.some.inj same ▸ List.mem_cons_self ..)
    rw [List.cons_append, unifyLineEnds, if_neg next, ih free.2, List.map_cons, unified]
    split <;> rfl

/-- What an XML reader makes of a character of a value that was escaped. -/
def passedOn (c : Char) : Char := if c = '\r' then ' ' else c

private theorem xmlReferred?_of_reference {c : Char} {text : String}
    (found : Escape.valueReference .xml c = some text) :
    c ≠ '\r' ∧ ∃ name, text.toList.map unified = '&' :: (name ++ [';']) ∧ ';' ∉ name ∧
      xmlReferred? name = some c := by
  unfold Escape.valueReference at found
  split at found
  · cases found
    exact ⟨by decide, ['a', 'm', 'p'], by decide, by decide, rfl⟩
  · cases found
    exact ⟨by decide, ['q', 'u', 'o', 't'], by decide, by decide, rfl⟩
  · cases found
    exact ⟨by decide, ['l', 't'], by decide, by decide, rfl⟩
  · cases found
  · cases found
    exact ⟨by decide, ['#', '1', '0'], by decide, by decide, by decide⟩
  · cases found
    exact ⟨by decide, ['#', '9'], by decide, by decide, by decide⟩
  · cases found

/-- Characters without a reference are none of those that end a value, or that are read as
something else; but for the carriage return. -/
private theorem plain_of_reference {c : Char} (none : Escape.valueReference .xml c = none) :
    c ≠ '"' ∧ c ≠ '<' ∧ c ≠ '&' ∧ c ≠ '\n' ∧ c ≠ '\t' := by
  refine ⟨?_, ?_, ?_, ?_, ?_⟩ <;> rintro rfl <;> cases none

private theorem xmlValueFrom?_written (chars rest : List Char) {fuel : Nat}
    (enough : chars.length < fuel) :
    xmlValueFrom? fuel
        ((chars.flatMap (Escape.expand (Escape.valueReference .xml))).map unified ++ '"' :: rest) =
      some (chars.map passedOn, rest) := by
  induction chars generalizing fuel with
  | nil =>
    cases fuel with
    | zero => exact absurd enough (Nat.not_lt_zero _)
    | succ fuel => rfl
  | cons c chars ih =>
    cases fuel with
    | zero => exact absurd enough (Nat.not_lt_zero _)
    | succ fuel =>
      have later := ih (Nat.lt_of_succ_lt_succ enough)
      rw [List.flatMap_cons, List.map_append, List.append_assoc]
      generalize (chars.flatMap _).map unified ++ '"' :: rest = written at later ⊢
      unfold Escape.expand
      cases found : Escape.valueReference .xml c with
      | some text =>
        obtain ⟨kept, name, spelled, free, known⟩ := xmlReferred?_of_reference found
        dsimp only
        rw [spelled, List.cons_append, List.append_assoc, xmlValueFrom?, if_neg (by decide),
          if_neg (by decide), if_pos rfl, List.singleton_append, before?_char free]
        simp only [Option.bind_eq_bind, Option.bind_some, known, List.drop_succ_cons, List.drop_zero,
          later]
        rw [List.map_cons, passedOn, if_neg kept]
        rfl
      | none =>
        obtain ⟨quote, bracket, ampersand, newline, tab⟩ := plain_of_reference found
        change xmlValueFrom? (fuel + 1) (unified c :: written) = _
        by_cases returns : c = '\r'
        · subst returns
          change (xmlValueFrom? fuel written).bind _ = _
          rw [later]
          rfl
        · rw [unified, if_neg returns, xmlValueFrom?, if_neg quote, if_neg bracket, if_neg ampersand,
            later]
          simp [returns, newline, tab, passedOn]

private theorem map_passedOn_iff (chars : List Char) :
    chars.map passedOn = chars ↔ '\r' ∉ chars := by
  induction chars with
  | nil => exact ⟨fun _ => List.not_mem_nil, fun _ => rfl⟩
  | cons c chars ih =>
    rw [List.map_cons, List.cons.injEq, ih, List.mem_cons, not_or]
    refine and_congr_left fun _ => ⟨?_, fun kept => if_neg (Ne.symm kept)⟩
    rintro same rfl
    cases same

end Reading

open Reading

/-- In XML a value is read up to its closing quote, and every character of it as it was given but
the carriage returns, which are read as spaces. So what is read is the value exactly if it has no
carriage return. -/
theorem xml_value_survives_iff (value : String) (rest : List Char) :
    xmlValue? ((Encoder.markup.value .xml value).toList ++ '"' :: rest) =
      some (String.ofList (value.toList.map passedOn), unifyLineEnds rest) ∧
    (xmlValue? ((Encoder.markup.value .xml value).toList ++ '"' :: rest) =
      some (value, unifyLineEnds rest) ↔ '\r' ∉ value.toList) := by
  have read : xmlValue? ((Encoder.markup.value .xml value).toList ++ '"' :: rest) =
      some (String.ofList (value.toList.map passedOn), unifyLineEnds rest) := by
    have refers := valueReference_refers .xml
    have newlines : '\n' ∉ (Encoder.markup.value .xml value).toList :=
      refers.free rfl (by nofun) value
    have written : (Encoder.markup.value .xml value).toList =
        value.toList.flatMap (Escape.expand (Escape.valueReference .xml)) :=
      Escape.toList_escape _ value
    have shorter := refers.length_le value.toList
    rw [xmlValue?, unifyLineEnds_append newlines (by decide) (by decide), written]
    rw [xmlValueFrom?_written value.toList (unifyLineEnds rest)]
    · rfl
    · rw [List.length_append, List.length_map, List.length_cons]
      omega
  refine ⟨read, ?_⟩
  rw [read, ← map_passedOn_iff, Option.some.injEq, Prod.mk.injEq, ← String.toList_inj,
    String.toList_ofList]
  exact and_iff_left rfl

/-- A carriage return is not written as a reference, and is read as a space. -/
theorem carriage_return_is_lost :
    xmlValue? ((Encoder.markup.value .xml "\r").toList ++ ['"']) = some (" ", []) ∧
      " " ≠ "\r" := by
  decide +kernel

end HtmlWriter
