import HtmlWriter.Proofs.RoundTrip

/-! Lines of output. Tokens are written one after the other on a line, and the first token of each
line is indented: by a tab for each block in whose body it is. -/

namespace HtmlWriter
open Reading

namespace Text

/-- The lines of a text. A newline ends a line, and so does the end of the text. -/
def lines : List Char → List (List Char)
  | [] => []
  | c :: rest =>
      if c = '\n' then [] :: lines rest
      else match lines rest with
        | [] => [[c]]
        | line :: more => (c :: line) :: more

theorem lines_append {line : List Char} (unbroken : '\n' ∉ line) (rest : List Char) :
    lines (line ++ '\n' :: rest) = line :: lines rest := by
  induction line with
  | nil => rfl
  | cons c line ih =>
    obtain ⟨other, unbroken⟩ := not_or.mp (mt List.mem_cons.mpr unbroken)
    rw [List.cons_append, lines, if_neg fun same => other same.symm, ih unbroken]

theorem lines_unbroken {line : List Char} (unbroken : '\n' ∉ line) (filled : line ≠ []) :
    lines line = [line] := by
  induction line with
  | nil => exact (filled rfl).elim
  | cons c line ih =>
    obtain ⟨other, unbroken⟩ := not_or.mp (mt List.mem_cons.mpr unbroken)
    rw [lines, if_neg fun same => other same.symm]
    cases line with
    | nil => rfl
    | cons d rest => rw [ih unbroken (List.cons_ne_nil d rest)]

theorem lines_ended {full : List (List Char)} (unbroken : ∀ line ∈ full, '\n' ∉ line)
    (rest : List Char) : lines (full.flatMap (· ++ ['\n']) ++ rest) = full ++ lines rest := by
  induction full with
  | nil => rfl
  | cons line full ih =>
    have later := ih fun line member => unbroken line (.tail _ member)
    rw [List.flatMap_cons, List.append_assoc, List.append_assoc, List.singleton_append,
      lines_append (unbroken line (.head _)), later]
    rfl

/-- Neither a newline nor a tab is among characters. -/
def Unbroken (chars : List Char) : Prop := ∀ c ∈ chars, c ≠ '\n' ∧ c ≠ '\t'

instance (chars : List Char) : Decidable (Unbroken chars) := List.decidableBAll _ chars

end Text

namespace Path

/-- How many blocks there are among the elements of a path. -/
def blocks (path : Path) : Nat := path.countP fun tag => tag.definition.layout == .block

/-- Whether there is a verbatim element in a path. -/
def isVerbatim (path : Path) : Bool := path.any fun tag => tag.definition.layout == .verbatim

end Path

/-- A token where it stands in a tree. -/
structure Sited where
  token : Token
  /-- The elements in whose bodies it is, innermost first. The tags of an element are not in its
  own body. -/
  bodies : Path

namespace Sited

/-- Whether it comes after the start tag of a verbatim element, up to the end tag. -/
def isVerbatim (sited : Sited) : Bool :=
  sited.bodies.isVerbatim || match sited.token with
    | .endTag tag => tag.definition.layout == .verbatim
    | .startTag .. | .text .. | .comment .. => false

/-- Whether it is a start tag that has to begin a line. -/
def startsLine (sited : Sited) : Bool :=
  !sited.isVerbatim && match sited.token with
    | .startTag tag _ => tag.definition.layout != .inline && tag.definition.layout != .lineBreak
    | .endTag .. | .text .. | .comment .. => false

variable (bodies : Path)

theorem startsLine_endTag (tag : Tag) : startsLine ⟨.endTag tag, bodies⟩ = false :=
  Bool.and_false _

theorem startsLine_text (parent : Option Tag) (content : String) :
    startsLine ⟨.text parent content, bodies⟩ = false := Bool.and_false _

theorem startsLine_comment (content : String) : startsLine ⟨.comment content, bodies⟩ = false :=
  Bool.and_false _

/-- The indentation of a line that begins with it: a tab for each block in whose body it is. Depth
is counted in a machine word, which is enough for fewer than `2 ^ 64` blocks. -/
def tabs (sited : Sited) : Nat := min sited.bodies.blocks FormatSettings.largestDepth.toNat

end Sited

namespace Node

mutual

/-- The tokens of a piece of markup, which is in the bodies of these elements. -/
def sited (bodies : Path) : Node → List Sited
  | .text content => if content.isEmpty then [] else [⟨.text bodies.head? content, bodies⟩]
  | .comment content => [⟨.comment content, bodies⟩]
  | .element tag attributes children =>
      ⟨.startTag tag attributes, bodies⟩ ::
        if tag.definition.isVoid then []
        else sitedAll (tag :: bodies) children ++ [⟨.endTag tag, bodies⟩]

def sitedAll (bodies : Path) : List Node → List Sited
  | [] => []
  | node :: rest => sited bodies node ++ sitedAll bodies rest

end

end Node

section
variable (serialization : Serialization)

/-- A token that is something on a line, and neither ends the line nor is taken for indentation. -/
structure Token.IsSolid (token : Token) : Prop where
  filled : (token.markup .markup serialization).toList ≠ []
  unbroken : Text.Unbroken (token.markup .markup serialization).toList

/-- The tokens of a line, behind the indentation of the first. -/
def spellLine : List Sited → List Char
  | [] => []
  | first :: rest => List.replicate first.tabs '\t' ++
      (first :: rest).flatMap fun sited => (sited.token.markup .markup serialization).toList

/-- A line begins outside of verbatim elements, with as many tabs as its first token is to be
indented by, and goes on with something other than a tab. No start tag that has to begin a line is
further on in it. -/
def IsIndented (line : List Sited) : Prop :=
  ∃ first rest c more, line = first :: rest ∧ first.isVerbatim = false ∧
    (∀ sited ∈ rest, sited.startsLine = false) ∧ c ≠ '\t' ∧
      spellLine serialization line = List.replicate first.tabs '\t' ++ c :: more

/-- Text that is made of the lines of tokens, of which the last may be ended already. -/
inductive Lined : List Sited → Bool → String → Prop
  | nothing : Lined [] true ""
  /-- A token begins a line outside of verbatim elements only. -/
  | first {done : List Sited} {text : String} {sited : Sited} (before : Lined done true text)
      (solid : sited.token.IsSolid serialization) (outside : sited.isVerbatim = false) :
      Lined (done ++ [sited]) false (text ++
        (Gap.text ⟨false, sited.tabs⟩ ++ sited.token.markup .markup serialization))
  | next {done : List Sited} {text : String} {sited : Sited} (before : Lined done false text)
      (solid : sited.token.IsSolid serialization) (goesOn : sited.startsLine = false) :
      Lined (done ++ [sited]) false (text ++ sited.token.markup .markup serialization)
  | ended {done : List Sited} {text : String} (before : Lined done false text) :
      Lined done true (text ++ "\n")

/-- Tokens that make a line. -/
structure MakesLine (line : List Sited) : Prop where
  begins : ∃ first rest, line = first :: rest ∧ first.isVerbatim = false ∧
    ∀ sited ∈ rest, sited.startsLine = false
  solid : ∀ sited ∈ line, sited.token.IsSolid serialization

end

variable {serialization : Serialization} {content : String}

namespace Text.Unbroken
variable {chars more : List Char}

theorem append (first : Unbroken chars) (second : Unbroken more) : Unbroken (chars ++ more) := by
  intro c member
  exact (List.mem_append.mp member).elim (first c) (second c)

theorem flatMap {expand : Char → List Char} (all : ∀ c ∈ chars, Unbroken (expand c)) :
    Unbroken (chars.flatMap expand) := by
  intro d member
  obtain ⟨c, among, inside⟩ := List.mem_flatMap.mp member
  exact all c among d inside

private theorem of_forall {kind : Char → Bool} (all : ∀ c ∈ chars, kind c = true)
    (newline : kind '\n' = false) (tab : kind '\t' = false) : Unbroken chars := by
  intro c member
  have holds := all c member
  constructor
  · rintro rfl
    rw [newline] at holds
    cases holds
  · rintro rfl
    rw [tab] at holds
    cases holds

private theorem tagName (tag : Tag) : Unbroken tag.name.toList :=
  of_forall (fun _ member => isAlphanum_of_mem_name member) rfl rfl

theorem attributeName {name : String}
    (valid : AttributeName.isValid serialization name = true) : Unbroken name.toList :=
  of_forall (fun _ member => continues_of_mem_name valid member) (by decide) (by decide)

/-- References have neither newlines nor tabs, so escaping brings in none. -/
theorem escape {reference : Char → Option String}
    (references : ∀ c text, reference c = some text → Unbroken text.toList) {content : String}
    (plain : Unbroken content.toList) : Unbroken (Escape.escape reference content).toList := by
  rw [Escape.toList_escape]
  refine flatMap fun c member => ?_
  unfold Escape.expand
  cases found : reference c with
  | some text => exact references c text found
  | none =>
    intro d same
    rw [List.mem_singleton.mp same]
    exact plain c member

theorem textReference {c : Char} {reference : String}
    (found : Escape.textReference serialization c = some reference) :
    reference.toList ≠ [] ∧ Unbroken reference.toList := by
  unfold Escape.textReference at found
  split at found
  case h_4 =>
    split at found
    all_goals cases found
    decide
  all_goals cases found
  all_goals decide

theorem text (plain : Unbroken content.toList) :
    Unbroken (Escape.text serialization content).toList :=
  plain.escape fun _ _ found => (textReference found).2

theorem value (plain : Unbroken content.toList) :
    Unbroken (Escape.value serialization content).toList := by
  refine plain.escape fun c text found => ?_
  unfold Escape.valueReference at found
  split at found
  case h_1 | h_2 => cases found; decide
  case h_7 => cases found
  all_goals
    split at found
    all_goals cases found
    decide

theorem join {texts : List String} (all : ∀ text ∈ texts, Unbroken text.toList) :
    Unbroken (String.join texts).toList := by
  induction texts with
  | nil => nofun
  | cons text rest ih =>
    rw [String.join_cons, String.toList_append]
    exact (all text (.head _)).append (ih fun other member => all other (.tail _ member))

end Text.Unbroken

namespace Token.IsSolid
variable {tag : Tag} {parent : Option Tag} {content : String}

theorem startTag {attributes : List (String × String)} (valid : Valid serialization attributes)
    (plain : ∀ entry ∈ attributes, Text.Unbroken entry.2.toList) :
    (Token.startTag tag attributes).IsSolid serialization := by
  have opening : Text.Unbroken (tag.opening serialization).toList := by
    rw [Tag.opening, String.toList_append, String.toList_append]
    have bracketed : Text.Unbroken ("<".toList ++ tag.name.toList) :=
      .append (by decide) (.tagName tag)
    refine bracketed.append ?_
    split
    · decide
    · decide
  have attributed (entry : String × String) (member : entry ∈ attributes) :
      Text.Unbroken (Encoder.markup.attribute serialization entry).toList := by
    have named : Text.Unbroken (" ".toList ++ entry.1.toList) :=
      .append (by decide) (.attributeName (valid entry member))
    have value : Text.Unbroken (Escape.value serialization entry.2).toList :=
      (plain entry member).value
    have valued := (named.append (by decide : Text.Unbroken "=\"".toList)).append value
    rw [Encoder.attribute]
    simp only [String.toList_append]
    exact valued.append (by decide)
  have unfinished :
      Text.Unbroken (Encoder.markup.unfinishedTag serialization tag attributes).toList := by
    rw [Encoder.unfinishedTag, String.toList_append]
    refine opening.append (.join fun text member => ?_)
    obtain ⟨entry, among, rfl⟩ := List.mem_map.mp member
    exact attributed entry among
  constructor
  · simp [Token.markup, Encoder.startTag, Encoder.unfinishedTag, Tag.opening]
  · rw [Token.markup, Encoder.startTag, String.toList_append]
    refine unfinished.append ?_
    split
    · cases serialization <;> decide
    · decide

theorem endTag (tag : Tag) : (Token.endTag tag).IsSolid serialization := by
  constructor
  · simp [Token.markup, Tag.closing]
  · rw [Token.markup, Tag.closing, String.toList_append, String.toList_append]
    exact .append (.append (by decide) (.tagName tag)) (by decide)

theorem comment (plain : Text.Unbroken content.toList) :
    (Token.comment content).IsSolid serialization := by
  constructor
  · simp [Token.markup]
  · rw [Token.markup, String.toList_append, String.toList_append]
    exact .append (.append (by decide) plain) (by decide)

theorem text (parent : Option Tag) (plain : Text.Unbroken content.toList) (filled : content ≠ "") :
    (Token.text parent content).IsSolid serialization := by
  have some : content.toList ≠ [] := fun none => filled (String.toList_eq_nil_iff.mp none)
  constructor
  · rw [Token.markup]
    split
    · exact some
    · -- No character is encoded by nothing.
      obtain ⟨c, rest, spelled⟩ := List.exists_cons_of_ne_nil some
      have expanded : Escape.expand (Escape.textReference serialization) c ≠ [] := by
        unfold Escape.expand
        split
        · exact (Text.Unbroken.textReference ‹_›).1
        · exact List.cons_ne_nil c []
      change (Escape.text serialization content).toList ≠ []
      rw [Escape.text, Escape.toList_escape, spelled, List.flatMap_cons]
      exact List.append_ne_nil_of_left_ne_nil expanded _
  · rw [Token.markup]
    split
    · exact plain
    · exact plain.text

end Token.IsSolid

namespace MakesLine
variable {line : List Sited}

theorem unbroken (makes : MakesLine serialization line) : '\n' ∉ spellLine serialization line := by
  obtain ⟨first, rest, rfl, -, -⟩ := makes.begins
  intro member
  rcases List.mem_append.mp member with indented | written
  · cases List.eq_of_mem_replicate indented
  · obtain ⟨sited, among, inside⟩ := List.mem_flatMap.mp written
    exact ((makes.solid sited among).unbroken _ inside).1 rfl

theorem indented (makes : MakesLine serialization line) : IsIndented serialization line := by
  obtain ⟨first, rest, rfl, outside, goOn⟩ := makes.begins
  have solid := makes.solid first (.head _)
  obtain ⟨c, more, spelled⟩ := List.exists_cons_of_ne_nil solid.filled
  refine ⟨first, rest, c, more ++ rest.flatMap fun sited =>
    (sited.token.markup .markup serialization).toList, rfl, outside, goOn, ?_, ?_⟩
  · apply And.right
    apply solid.unbroken c
    rw [spelled]
    exact .head _
  · rw [spellLine, List.flatMap_cons, spelled]
    rfl

end MakesLine

/-- The lines that a text is made of: those that are ended, and then the current one, unless a line
has just ended. -/
theorem Lined.shape {done : List Sited} {fresh : Bool} {text : String}
    (lined : Lined serialization done fresh text) :
    ∃ (full : List (List Sited)) (current : List Sited),
      done = full.flatten ++ current ∧ (fresh = true ↔ current = []) ∧
      text.toList = full.flatMap (fun line => spellLine serialization line ++ ['\n']) ++
        spellLine serialization current ∧
      (∀ line ∈ full, MakesLine serialization line) ∧
      (current ≠ [] → MakesLine serialization current) := by
  induction lined with
  | nothing => exact ⟨[], [], rfl, iff_of_true rfl rfl, rfl, nofun, fun some => (some rfl).elim⟩
  | @first done text sited before solid outside ih =>
    obtain ⟨full, current, rfl, fresh, spelled, ended, -⟩ := ih
    obtain rfl := fresh.mp rfl
    refine ⟨full, [sited], by rw [List.append_nil], ?_, ?_, ended, fun _ => ?_⟩
    · exact iff_of_false Bool.false_ne_true (List.cons_ne_nil _ _)
    · rw [String.toList_append, spelled]
      simp [spellLine, Gap.text, Format.indentUnit]
    · refine ⟨⟨sited, [], rfl, outside, List.forall_mem_nil _⟩, fun other member => ?_⟩
      rw [List.mem_singleton.mp member]
      exact solid
  | @next done text sited before solid goesOn ih =>
    obtain ⟨full, current, rfl, fresh, spelled, ended, makes⟩ := ih
    have some : current ≠ [] := fun none => Bool.false_ne_true (fresh.mpr none)
    obtain ⟨first, rest, rfl, outside, goOn⟩ := (makes some).begins
    refine ⟨full, first :: rest ++ [sited], by rw [List.append_assoc], ?_, ?_, ended, fun _ => ?_⟩
    · exact iff_of_false Bool.false_ne_true (List.cons_ne_nil _ _)
    · rw [String.toList_append, spelled]
      simp [spellLine]
    · refine ⟨⟨first, rest ++ [sited], rfl, outside, fun other member => ?_⟩,
        fun other member => ?_⟩
      · rcases List.mem_append.mp member with among | last
        · exact goOn other among
        · rw [List.mem_singleton.mp last]
          exact goesOn
      · rcases List.mem_append.mp member with among | last
        · exact (makes some).solid other among
        · rw [List.mem_singleton.mp last]
          exact solid
  | @ended done text before ih =>
    obtain ⟨full, current, rfl, fresh, spelled, ended, makes⟩ := ih
    have some : current ≠ [] := fun none => Bool.false_ne_true (fresh.mpr none)
    refine ⟨full ++ [current], [], by simp, iff_of_true rfl rfl, ?_, fun line member => ?_,
      fun some => (some rfl).elim⟩
    · rw [String.toList_append, spelled]
      simp [spellLine]
    · rcases List.mem_append.mp member with among | last
      · exact ended line among
      · rw [List.mem_singleton.mp last]
        exact makes some

theorem Lined.lines_indented {done : List Sited} {fresh : Bool} {text : String}
    (lined : Lined serialization done fresh text) : ∃ lines : List (List Sited),
      lines.flatten = done ∧ Text.lines text.toList = lines.map (spellLine serialization) ∧
      ∀ line ∈ lines, IsIndented serialization line := by
  obtain ⟨full, current, rfl, -, spelled, ended, makes⟩ := lined.shape
  have unbroken : ∀ line ∈ full.map (spellLine serialization), '\n' ∉ line := by
    intro line member
    obtain ⟨tokens, among, rfl⟩ := List.mem_map.mp member
    exact (ended tokens among).unbroken
  rw [spelled, ← List.flatMap_map (spellLine serialization) (· ++ ['\n']), Text.lines_ended unbroken]
  cases current with
  | nil =>
    refine ⟨full, by rw [List.append_nil], ?_, fun line member => (ended line member).indented⟩
    rw [spellLine, Text.lines, List.append_nil]
  | cons first rest =>
    have makes := makes (List.cons_ne_nil first rest)
    refine ⟨full ++ [first :: rest], by simp, ?_, fun line member => ?_⟩
    · rw [Text.lines_unbroken makes.unbroken ?_, List.map_append]
      · rfl
      · obtain ⟨other, more, c, later, -, -, -, -, written⟩ := makes.indented
        rw [written]
        simp
    · rcases List.mem_append.mp member with among | last
      · exact (ended line among).indented
      · rw [List.mem_singleton.mp last]
        exact makes.indented

end HtmlWriter
