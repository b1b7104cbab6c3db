import HtmlWriter.Proofs.Rejections
import HtmlWriter.Proofs.RoundTrip

/-! Comments as HTML and XML read them. HTML ends a comment at the first end there is, which may be
right at its beginning; XML wants the first two hyphens in a row to be that end. A comment is
written exactly if both read it as it was given, and up to its last character. -/

namespace HtmlWriter
open Writing

namespace Reading

/-- Read up to the first end of a comment. HTML takes one with an exclamation mark for an end
too. -/
def htmlContent? : List Char → Option (List Char × List Char)
  | [] => none
  | c :: rest =>
      match after? ['-', '-', '>'] (c :: rest) <|> after? ['-', '-', '!', '>'] (c :: rest) with
      | some later => some ([], later)
      | none => (htmlContent? rest).map fun (content, later) => (c :: content, later)

/-- Read a comment as in HTML, where it may end at once. -/
def htmlComment? (chars : List Char) : Option (List Char × List Char) := do
  let chars ← after? ['<', '!', '-', '-'] chars
  match after? ['>'] chars <|> after? ['-', '>'] chars with
  | some later => return ([], later)
  | none => htmlContent? chars

/-- Read a comment as in XML, where two hyphens in a row have to be its end. -/
def xmlComment? (chars : List Char) : Option (List Char × List Char) := do
  let chars ← after? ['<', '!', '-', '-'] chars
  let (content, chars) ← before? id ['-', '-'] chars
  let later ← after? ['-', '-', '>'] chars
  return (content, later)

private theorem before?_eq_some {pattern chars found rest : List Char}
    (read : before? id pattern chars = some (found, rest)) :
    chars = found ++ rest ∧
      ∀ suffix, suffix ≠ [] → suffix <:+ found → ¬ pattern <+: suffix ++ rest := by
  induction chars generalizing found with
  | nil => cases read
  | cons c chars ih =>
    rw [before?] at read
    split at read
    case isTrue here =>
      cases read
      exact ⟨rfl, fun suffix filled inside => absurd (List.suffix_nil.mp inside) filled⟩
    case isFalse absent =>
      obtain ⟨⟨later, rest⟩, before, same⟩ := Option.map_eq_some_iff.mp read
      cases same
      obtain ⟨rfl, nowhere⟩ := ih before
      refine ⟨rfl, fun suffix filled inside => ?_⟩
      rcases List.suffix_cons_iff.mp inside with rfl | within
      · rwa [List.isPrefixOf_iff_prefix, List.map_id] at absent
      · exact nowhere suffix filled within

private theorem htmlContent?_append {content later : List Char}
    (absent : ∀ suffix, suffix ≠ [] → suffix <:+ content →
      ¬ ['-', '-'] <+: suffix ++ '-' :: '-' :: '>' :: later) :
    htmlContent? (content ++ '-' :: '-' :: '>' :: later) = some (content, later) := by
  induction content with
  | nil => rfl
  | cons c content ih =>
    have here := absent (c :: content) (List.cons_ne_nil _ _) List.suffix_rfl
    have past (more : List Char) : after? ('-' :: '-' :: more)
        (c :: (content ++ '-' :: '-' :: '>' :: later)) = none :=
      after?_eq_none.mpr fun found => here ((List.prefix_append ['-', '-'] more).trans found)
    rw [List.cons_append, htmlContent?, past, past, ih fun suffix filled inside =>
      absent suffix filled (inside.trans (List.suffix_cons c content))]
    rfl

end Reading

open Reading

def commentMarkup (content : String) : String := "<!--" ++ content ++ "-->"

/-- Whatever comes after it, the comment is read as it was given and up to its end, by HTML and by
XML. -/
def StaysOneComment (content : String) : Prop :=
  ∀ later, htmlComment? ((commentMarkup content).toList ++ later) = some (content.toList, later) ∧
    xmlComment? ((commentMarkup content).toList ++ later) = some (content.toList, later)

private theorem after?_opening (content : String) (later : List Char) :
    after? ['<', '!', '-', '-'] ((commentMarkup content).toList ++ later) =
      some (content.toList ++ '-' :: '-' :: '>' :: later) := by
  have spelled : (commentMarkup content).toList ++ later =
      ['<', '!', '-', '-'] ++ (content.toList ++ '-' :: '-' :: '>' :: later) := by
    simp [commentMarkup]
  rw [spelled, after?_append]

private theorem not_ended_at_once {content : String} (whole : Node.isWholeComment content = true)
    (later : List Char) :
    after? ['>'] (content.toList ++ '-' :: '-' :: later) = none ∧
      after? ['-', '>'] (content.toList ++ '-' :: '-' :: later) = none := by
  simp only [Node.isWholeComment, Bool.not_eq_true', Bool.or_eq_false_iff] at whole
  obtain ⟨⟨-, bracket⟩, arrow⟩ := whole
  rw [after?_eq_none, after?_eq_none]
  cases chars : content.toList with
  | nil => simp
  | cons c more =>
    rw [chars, List.head?_cons, beq_eq_false_iff_ne, ne_eq, Option.some.injEq] at bracket
    refine ⟨fun found => bracket (List.cons_prefix_cons.mp found).1.symm, fun found => ?_⟩
    obtain ⟨hyphen, rest⟩ := List.cons_prefix_cons.mp found
    cases more with
    | nil => exact absurd (List.cons_prefix_cons.mp rest).1 (by decide)
    | cons d more =>
      rw [chars, List.take_succ_cons, List.take_succ_cons, List.take_zero, ← hyphen,
        ← (List.cons_prefix_cons.mp rest).1] at arrow
      cases arrow

private theorem staysOneComment_of_whole {content : String}
    (whole : Node.isWholeComment content = true) : StaysOneComment content := by
  intro later
  have absent (suffix : List Char) (filled : suffix ≠ []) (inside : suffix <:+ content.toList) :
      ¬ ['-', '-'] <+: suffix ++ '-' :: '-' :: '>' :: later := by
    rw [← List.isPrefixOf_iff_prefix, Bool.not_eq_true]
    exact hyphens_absent whole filled inside _
  obtain ⟨bracket, arrow⟩ := not_ended_at_once whole ('>' :: later)
  constructor
  · rw [htmlComment?, after?_opening]
    change (match after? ['>'] _ <|> after? ['-', '>'] _ with
      | some later => some ([], later)
      | none => htmlContent? _) = _
    rw [bracket, arrow]
    exact htmlContent?_append absent
  · have read : before? id ['-', '-'] (content.toList ++ '-' :: '-' :: '>' :: later) =
        some (content.toList, '-' :: '-' :: '>' :: later) := by
      refine before?_append (List.cons_ne_nil _ _) (by simp) fun suffix filled inside => ?_
      rw [List.map_id, Bool.eq_false_iff, ne_eq, List.isPrefixOf_iff_prefix]
      exact absent suffix filled inside
    rw [xmlComment?, after?_opening]
    simp only [Option.bind_eq_bind, Option.bind_some, read]
    rfl

/-- Of a comment that is read as it was given, XML shows that two hyphens stand nowhere in a row
and none at its end, and HTML that it does not begin as an end. -/
private theorem whole_of_staysOneComment {content : String} (stays : StaysOneComment content) :
    Node.isWholeComment content = true := by
  obtain ⟨html, xml⟩ := stays []
  rw [htmlComment?, after?_opening] at html
  rw [xmlComment?, after?_opening, Option.bind_eq_bind, Option.bind_some] at xml
  obtain ⟨⟨found, chars⟩, read, ended⟩ := Option.bind_eq_some_iff.mp xml
  obtain ⟨later, -, same⟩ := Option.bind_eq_some_iff.mp ended
  cases same
  obtain ⟨split, nowhere⟩ := before?_eq_some read
  obtain rfl := List.append_cancel_left split
  simp only [Node.isWholeComment, Bool.not_eq_true', Bool.or_eq_false_iff, beq_eq_false_iff_ne]
  refine ⟨⟨⟨?_, fun last => ?_⟩, fun first => ?_⟩, fun first => ?_⟩
  · rw [Bool.eq_false_iff, ne_eq, Text.occursIn_iff_infix]
    rintro ⟨before, after, spelled⟩
    rw [List.append_assoc] at spelled
    exact nowhere _ (by simp) ⟨before, spelled⟩ ⟨_, (List.append_assoc ..).symm⟩
  · obtain ⟨before, spelled⟩ := List.getLast?_eq_some_iff.mp last
    exact nowhere ['-'] (List.cons_ne_nil _ _) ⟨before, spelled.symm⟩ ⟨_, rfl⟩
  · obtain ⟨more, spelled⟩ := List.head?_eq_some_iff.mp first
    rw [spelled] at html
    cases html
  · obtain ⟨more, spelled⟩ : ∃ more, content.toList = '-' :: '>' :: more :=
      ⟨content.toList.drop 2, by rw [← List.take_append_drop 2 content.toList, first]; simp⟩
    rw [spelled] at html
    cases html

theorem staysOneComment_iff (content : String) :
    StaysOneComment content ↔ isComment content = true := by
  rw [Node.isComment_eq_isWholeComment]
  exact ⟨whole_of_staysOneComment, staysOneComment_of_whole⟩

theorem run_comment {document : Document} (idle : document.unfinished = none) (content : String) :
    (comment content).run document =
      if isComment content then (do indentFresh 0; write (commentMarkup content)).run document
      else .error (.invalidComment content) document := by
  rw [comment, run_refuseInTag_bind idle]
  cases isComment content <;> rfl

private theorem comment_ok {document final : Document} {content : String}
    (ran : (comment content).run document = .ok () final) :
    isComment content = true ∧ final.bytes = document.bytes ++
      utf8 (document.format.indentGap.text ++ commentMarkup content) := by
  cases waiting : document.unfinished with
  | some pending =>
    rw [comment, Action.run_bind, run_refuseInTag_waiting waiting] at ran
    cases ran
  | none =>
    rw [run_comment waiting] at ran
    cases fits : isComment content with
    | false =>
      rw [fits] at ran
      cases ran
    | true =>
      rw [fits] at ran
      obtain ⟨⟨⟩, indented, gap, written⟩ := ok_of_bind ran
      refine ⟨rfl, ?_⟩
      rw [write_ok written, (indentFresh_ok gap).1, utf8_append, List.append_assoc]

/-- A comment that is written stays one comment to every reader, and stands right behind the
indentation of its line. One that is rejected leaves the document as it was; and only those are
rejected that would not stay one comment. -/
theorem comment_stays_one (document : Document) (content : String) :
    (∀ final, (comment content).run document = .ok () final → StaysOneComment content ∧
      final.bytes = document.bytes ++
        utf8 (document.format.indentGap.text ++ commentMarkup content)) ∧
    (∀ final, (comment content).run document = .error (.invalidComment content) final →
      final = document) ∧
    (document.unfinished = none →
      ((∃ final, (comment content).run document = .error (.invalidComment content) final) ↔
        ¬ StaysOneComment content)) := by
  refine ⟨fun final ran => ?_, fun final failed => ?_, fun idle => ?_⟩
  · obtain ⟨fits, bytes⟩ := comment_ok ran
    exact ⟨(staysOneComment_iff content).mpr fits, bytes⟩
  · exact comment_rejectsAtOnce content failed rfl
  · rw [staysOneComment_iff, run_comment idle]
    cases fits : isComment content with
    | false => exact iff_of_true ⟨document, rfl⟩ Bool.false_ne_true
    | true =>
      refine iff_of_false ?_ (not_not_intro rfl)
      rintro ⟨final, failed⟩
      have throws : Throws Error.Accepts (do indentFresh 0; write (commentMarkup content)) :=
        .bind (indentFresh_prints 0).throws fun _ => (Prints.any _).throws
      cases throws failed

/-- For instance, two levels deep: a comment in which an arrow could be taken for its end, and one
in which there are two hyphens. -/
theorem indented_comment_stays_one :
    let document : Document :=
      { Document.start {} .pretty .markup with format := ⟨⟨true, true, 2⟩, true⟩ }
    (∃ final, (comment "a -> b").run document = .ok () final ∧ StaysOneComment "a -> b" ∧
      final.bytes = utf8 "\t\t<!--a -> b-->") ∧
    (∃ final, (comment "a--b").run document = .error (.invalidComment "a--b") final ∧
      final = document ∧ ¬ StaysOneComment "a--b") := by
  intro document
  obtain ⟨written, -, -⟩ := comment_stays_one document "a -> b"
  obtain ⟨-, left, rejected⟩ := comment_stays_one document "a--b"
  have refused : (comment "a--b").run document = .error (.invalidComment "a--b") document := rfl
  refine ⟨?_, document, refused, left document refused, (rejected rfl).mp ⟨document, refused⟩⟩
  have unlimited : document.Unlimited := ⟨{}, rfl, .default⟩
  obtain ⟨final, ran⟩ : ∃ final, (comment "a -> b").run document = .ok () final :=
    ⟨_, (run_comment rfl _).trans ((run_bind_ok (run_indentFresh unlimited rfl) _).trans
      (run_write (unlimited.wrote _) _))⟩
  obtain ⟨stays, bytes⟩ := written final ran
  exact ⟨final, ran, stays, bytes⟩

end HtmlWriter
