import HtmlWriter.Proofs.Scanning
import HtmlWriter.Proofs.Underway
import Mathlib.Data.List.TakeWhile

/-! Start tags with the attributes that were asked for, whichever these are. A start tag remembers
the names that it has taken, so no two of them are the same, and these are names that a scanner of
the tag gives back. -/

namespace HtmlWriter
open Script Writing Reading

private theorem Escape.escape_of_plain {reference : Char → Option String} {content : String}
    (plain : ∀ c ∈ content.toList, reference c = none) : escape reference content = content := by
  have none : content.toList.dropWhile (fun c => (reference c).isNone) = [] :=
    List.dropWhile_eq_nil_iff.mpr fun c member => by rw [plain c member]; rfl
  unfold escape
  dsimp only
  rw [none]

private theorem value_of_isValid {name : String} (valid : AttributeName.isValid .xml name = true) :
    Escape.value .xml name = name := by
  refine Escape.escape_of_plain fun c member => ?_
  have continues := continues_of_mem_name valid member
  unfold Escape.valueReference
  split
  all_goals first | rfl | exact absurd continues (by decide)

def Tag.ownEntries (tag : Tag) (serialization : Serialization) : List (String × Option String) :=
  (tag.ownAttributes serialization).map fun entry => (entry.1, some entry.2)

/-- The attributes of a start tag to which these were added: its own, and then what was asked for,
without what is absent or off. -/
def Tag.entries (tag : Tag) (serialization : Serialization) (requested : List Attribute) :
    List (String × Option String) :=
  tag.ownEntries serialization ++
    requested.filterMap fun wanted => (wanted.asked tag).written? serialization

/-- A name that some attribute has, in this case or another. -/
def NameTaken (entries : List (String × Option String)) (name : String) : Prop :=
  ∃ entry ∈ entries, Text.lowercase entry.1 = Text.lowercase name

/-- A start tag of an element that was begun in one document and is still unfinished in another,
where it has the attributes that were written into it. -/
structure StartTag.Carries (before : Document) (tag : Tag) (entries : List (String × Option String))
    (start : StartTag) (now : Document) : Prop where
  same : start.tag = tag
  names : start.names = (entries.map fun entry => Text.toLowercase entry.1).reverse
  apart : (entries.map fun entry => Text.lowercase entry.1).Nodup
  named : Named before.serialization entries
  written : now = before.begun tag
    ("<" ++ tag.name ++ entriesMarkup before.serialization entries)

section
variable {document : Document} (unlimited : document.Unlimited)
  (encoded : document.encoder = .markup)
include unlimited encoded

private theorem StartTag.run_emit (start : StartTag) (emission : Emission)
    (valid : ∀ entry ∈ emission.written? document.serialization,
      AttributeName.isValid document.serialization entry.1 = true) :
    (start.emit emission).run document =
      match emission.written? document.serialization with
      | none => .ok start document
      | some entry =>
          match start.claimName entry.1 with
          | .ok claimed => .ok claimed (document.wrote (entryMarkup document.serialization entry))
          | .error error => .error error document := by
  cases emission with
  | nothing => rfl
  | valued name value =>
    change (MonadExcept.ofExcept (start.claimName name) >>= _ : Writing StartTag).run document = _
    rw [Emission.written?]
    dsimp only
    cases start.claimName name with
    | error error => rfl
    | ok claimed =>
      change (do
        write " "
        write name
        write "=\""
        write (document.encoder.value document.serialization value)
        write "\""
        pure claimed : Writing StartTag).run document = _
      simp only [run_write_write unlimited, run_write_bind unlimited, encoded]
      simp only [entryMarkup, valueMarkup, Encoder.markup, String.append_assoc]
      rfl
  | flag name =>
    have named := valid _ rfl
    change (MonadExcept.ofExcept (start.claimName name) >>= _ : Writing StartTag).run document = _
    rw [Emission.written?]
    dsimp only at named ⊢
    cases start.claimName name with
    | error error => rfl
    | ok claimed =>
      change (do
        write " "
        write name
        let document ← get
        if document.serialization = .xml then
          write "=\""
          write name
          write "\""
        pure claimed : Writing StartTag).run document = _
      rw [run_write_write unlimited, run_write_bind unlimited]
      change (if document.serialization = .xml then _ else _ : Writing StartTag).run
        (document.wrote (" " ++ name)) = _
      cases kind : document.serialization with
      | sgml =>
        rw [if_neg (by decide), if_neg (by decide), entryMarkup, valueMarkup, String.append_empty]
        rfl
      | xml =>
        rw [kind] at named
        have still := unlimited.wrote (" " ++ name)
        rw [if_pos rfl, if_pos rfl, entryMarkup, valueMarkup, value_of_isValid named]
        simp only [run_write_write still, run_write_bind still, Document.wrote_wrote,
          String.append_assoc]
        rfl

theorem StartTag.run_add (start : StartTag) {requested : Attribute} {emission : Emission}
    (passed : requested.emission ⟨start.tag, document.serialization, document.doctype⟩ =
      .ok emission) :
    (start.add requested).run document =
      match (requested.asked start.tag).written? document.serialization with
      | none => .ok start document
      | some entry =>
          match start.claimName entry.1 with
          | .ok claimed => .ok claimed (document.wrote (entryMarkup document.serialization entry))
          | .error error => .error error document := by
  obtain ⟨rfl, valid⟩ := emission_answers _ _ passed
  rw [StartTag.run_add_eq, passed]
  exact start.run_emit unlimited encoded _ valid

end

section
variable {before now : Document} {tag : Tag} {entries : List (String × Option String)}
  {start : StartTag}

private theorem NameTaken.iff_mem {name : String} : NameTaken entries name ↔
    Text.lowercase name ∈ entries.map fun entry => Text.lowercase entry.1 :=
  List.mem_map.symm

namespace StartTag.Carries

theorem contains (carries : start.Carries before tag entries now) (name : String) :
    start.names.contains (Text.toLowercase name) = true ↔ NameTaken entries name := by
  rw [carries.names, List.contains_iff_mem, List.mem_reverse, List.mem_map, NameTaken]
  simp only [Text.toLowercase, String.ofList_inj]

theorem settings (carries : start.Carries before tag entries now) :
    now.encoder = before.encoder ∧ now.serialization = before.serialization ∧
      now.doctype = before.doctype := by
  rw [carries.written]
  exact ⟨rfl, rfl, rfl⟩

theorem unlimited (carries : start.Carries before tag entries now) (takes : before.Unlimited) :
    now.Unlimited := by
  rw [carries.written]
  exact (takes.wrote _).of_sink rfl

end StartTag.Carries

theorem Tag.opening_eq (tag : Tag) (serialization : Serialization) :
    tag.opening serialization = "<" ++ tag.name ++
      entriesMarkup serialization (tag.ownEntries serialization) := by
  have same (entry : String × String) : entryMarkup serialization (entry.1, some entry.2) =
      Encoder.markup.attribute serialization entry := by
    simp only [entryMarkup, valueMarkup, Encoder.attribute, Encoder.markup, String.append_assoc]
  rw [Reading.opening_eq, entriesMarkup, ownEntries, List.map_map]
  simp only [Function.comp_def, same]

theorem Place.element_carries (unlimited : before.Unlimited) {place : Place}
    (started : (place.element tag).run before = .ok start now) :
    start.Carries before tag (tag.ownEntries before.serialization) now := by
  have idle := (Place.element_begins started).2.1
  rw [run_element unlimited idle] at started
  split at started
  · cases started
    rw [Tag.opening_eq]
    unfold Tag.ownEntries Tag.ownAttributes
    cases tag.isNamespaced before.serialization with
    | false => exact ⟨rfl, rfl, .nil, nofun, rfl⟩
    | true =>
      refine ⟨rfl, ?_, List.nodup_singleton _, ?_, rfl⟩
      · change ["xmlns"] = [Text.toLowercase "xmlns"]
        decide
      · rintro entry (_ | ⟨_, ⟨⟩⟩)
        exact AttributeName.isValid_of_xml (by decide)
  · cases started

theorem StartTag.Carries.snoc (carries : start.Carries before tag entries now)
    {entry : String × Option String}
    (valid : AttributeName.isValid before.serialization entry.1 = true)
    (free : ¬NameTaken entries entry.1) :
    Carries before tag (entries ++ [entry])
      { start with names := Text.toLowercase entry.1 :: start.names }
      (now.wrote (entryMarkup before.serialization entry)) := by
  obtain ⟨same, names, apart, named, rfl⟩ := carries
  refine ⟨same, ?_, ?_, ?_, ?_⟩
  · rw [List.map_append, List.reverse_append, names]
    rfl
  · rw [List.map_append, List.nodup_append]
    refine ⟨apart, List.nodup_singleton _, ?_⟩
    rintro taken member last (_ | ⟨_, ⟨⟩⟩) rfl
    exact free (NameTaken.iff_mem.mpr member)
  · intro other member
    rcases List.mem_append.mp member with earlier | last
    · exact named other earlier
    · rw [List.mem_singleton.mp last]
      exact valid
  · change { (before.wrote _).wrote _ with unfinished := some tag } = _
    have last : entriesMarkup before.serialization [entry] =
        entryMarkup before.serialization entry := by
      rw [entriesMarkup, List.map_cons, List.map_nil, String.join_cons, String.join_nil,
        String.append_empty]
    rw [Document.wrote_wrote, entriesMarkup_append, last]
    simp only [Document.begun, String.append_assoc]

section
variable (unlimited : before.Unlimited) (encoded : before.encoder = .markup)
  (carries : start.Carries before tag entries now) {requested : Attribute}
include unlimited encoded carries

theorem StartTag.Carries.add {emission : Emission}
    (passed : requested.emission ⟨tag, before.serialization, before.doctype⟩ = .ok emission) :
    match (requested.asked tag).written? before.serialization with
    | none => (start.add requested).run now = .ok start now
    | some entry =>
        (NameTaken entries entry.1 ∧
          (start.add requested).run now = .error (.duplicateAttribute entry.1 tag) now) ∨
        (¬NameTaken entries entry.1 ∧ ∃ next later, (start.add requested).run now = .ok next later ∧
          next.Carries before tag (entries ++ [entry]) later) := by
  have takes := carries.unlimited unlimited
  obtain ⟨coding, syntactic, kind⟩ := carries.settings
  obtain ⟨rfl, valid⟩ := emission_answers _ _ passed
  rw [← carries.same, ← syntactic, ← kind] at passed
  have ran := start.run_add takes (coding.trans encoded) passed
  rw [carries.same, syntactic] at ran
  rw [ran]
  cases wanted : (requested.asked tag).written? before.serialization with
  | none => rfl
  | some entry =>
    have taken := carries.contains entry.1
    dsimp only
    rw [claimName]
    cases repeated : start.names.contains (Text.toLowercase entry.1) with
    | true =>
      refine .inl ⟨taken.mp repeated, ?_⟩
      rw [if_pos rfl, carries.same]
    | false =>
      have free : ¬NameTaken entries entry.1 := fun has => by
        rw [taken.mpr has] at repeated
        cases repeated
      exact .inr ⟨free, _, _, rfl, carries.snoc (valid entry wanted) free⟩

omit unlimited encoded in
theorem StartTag.Carries.passed {next : StartTag} {later : Document}
    (ran : (start.add requested).run now = .ok next later) :
    ∃ emission, requested.emission ⟨tag, before.serialization, before.doctype⟩ = .ok emission := by
  obtain ⟨-, syntactic, kind⟩ := carries.settings
  rw [StartTag.run_add_eq, carries.same, syntactic, kind] at ran
  cases passed : requested.emission ⟨tag, before.serialization, before.doctype⟩ with
  | ok emission => exact ⟨emission, rfl⟩
  | error error =>
    rw [passed] at ran
    cases ran

theorem StartTag.Carries.step {next : StartTag} {later : Document}
    (ran : (start.add requested).run now = .ok next later) :
    next.Carries before tag
      (entries ++ ((requested.asked tag).written? before.serialization).toList) later := by
  obtain ⟨emission, passed⟩ := carries.passed ran
  have added := carries.add unlimited encoded passed
  rw [ran] at added
  cases wanted : (requested.asked tag).written? before.serialization with
  | none =>
    rw [wanted] at added
    cases added
    rwa [Option.toList_none, List.append_nil]
  | some entry =>
    rw [wanted] at added
    obtain ⟨-, ⟨⟩⟩ | ⟨-, _, _, ⟨⟩, carried⟩ := added
    exact carried

theorem StartTag.Carries.run {requested : List Attribute} {finished : StartTag} {final : Document}
    (added : (start.addAll requested).run now = .ok finished final) :
    finished.Carries before tag
      (entries ++ requested.filterMap fun wanted =>
        (wanted.asked tag).written? before.serialization) final := by
  -- The induction is on what is asked for: once the first is added, the start tag carries it too.
  induction requested generalizing start now entries with
  | nil =>
    cases added
    rwa [List.filterMap_nil, List.append_nil]
  | cons first rest ih =>
    change ((start.add first >>= fun start => start.addAll rest).run now) = _ at added
    obtain ⟨next, later, ran, added⟩ := ok_of_bind added
    have carried := ih (carries.step unlimited encoded ran) added
    rw [List.append_assoc] at carried
    rw [List.filterMap_cons]
    cases wanted : (first.asked tag).written? before.serialization with
    | none =>
      rw [wanted] at carried
      exact carried
    | some entry =>
      rw [wanted] at carried
      exact carried

end

end

/-- A start tag was finished in one document, which became another: without content, with a text,
or with a body. -/
def StartTag.Completes (start : StartTag) (before after : Document) : Prop :=
  (∃ ending : Ending, ending ≠ .giveUp ∧ (ending.finish start).run before = .ok () after) ∨
    ∃ body, start.openBody.run before = .ok body after

theorem StartTag.Completes.idle {start : StartTag} {before after : Document}
    (unlimited : before.Unlimited) (completes : start.Completes before after) :
    after.unfinished = none := by
  have closed (ran : start.close.run before = .ok () after) : after.unfinished = none := by
    obtain ⟨final, ended, idle, -⟩ := start.close_adds unlimited 0
    rw [ended] at ran
    cases ran
    exact idle
  have told (content : String) (ran : (start.text content).run before = .ok () after) :
      after.unfinished = none := by
    obtain ⟨-, final, ended, idle, -⟩ | ⟨error, refused, -⟩ | ⟨-, tag, refused, -⟩ :=
      start.text_adds unlimited 0 content
    · rw [ended] at ran
      cases ran
      exact idle
    · rw [refused] at ran
      cases ran
    · rw [refused] at ran
      cases ran
  rcases completes with ⟨ending, kept, ran⟩ | ⟨body, ran⟩
  · match ending with
    | .close | .textOption none => exact closed ran
    | .text content | .textOption (some content) => exact told content ran
    | .giveUp => exact absurd rfl kept
  · have opened := start.openBody_adds unlimited 0
    rw [ran] at opened
    exact opened.2.1

/-- Whichever way a start tag is finished, its closing bracket is written first. -/
theorem StartTag.Completes.marked {start : StartTag} {before after : Document}
    (unlimited : before.Unlimited) (waits : before.unfinished ≠ none)
    (completes : start.Completes before after) :
    ∃ bytes, after.bytes = before.bytes ++ (utf8 (start.mark before.serialization) ++ bytes) := by
  have idle := completes.idle unlimited
  obtain ⟨completed, bytes, grown⟩ :
      before.CompletedBy (start.mark before.serialization) after ∧
        ∃ bytes, after.bytes = before.bytes ++ bytes := by
    rcases completes with ⟨ending, -, ran⟩ | ⟨body, ran⟩
    · have completed := ending.finish_completes start before
      rw [finalState, ran] at completed
      exact ⟨completed, (ending.finish_streams start).extends_of_ok ran⟩
    · have completed := start.openBody_completes before
      rw [finalState, ran] at completed
      exact ⟨completed, start.openBody_streams.extends_of_ok ran⟩
  have gained : before.gained after = bytes := by rw [Document.gained, grown, List.drop_left]
  -- Had the bracket not been taken whole, the start tag would still wait.
  obtain ⟨taken, -⟩ | ⟨-, same⟩ := completed
  · obtain ⟨rest, split⟩ := taken
    exact ⟨rest, by rw [grown, split, gained]⟩
  · exact absurd (same.symm.trans idle) waits

private theorem StartTag.mark_closes (start : StartTag) (serialization : Serialization) :
    (start.mark serialization).toList ∈ closings := by
  unfold mark
  split
  · cases serialization <;> decide
  · decide

/-- Start tags say what was asked for. Where a start tag was begun in a working document and all its
attributes could be added, it is scanned as its element and these attributes, in the order in which
they were asked for, and nothing else. No two of them have the same name, in any case; and another
that has passed all other checks is refused exactly if it would be written under one of these
names. -/
theorem start_tag_says_what_was_asked {document begun final : Document} {place : Place} {tag : Tag}
    {start filled : StartTag} {requested : List Attribute}
    (unlimited : document.Unlimited) (encoded : document.encoder = .markup)
    (started : (place.element tag).run document = .ok start begun)
    (added : (start.addAll requested).run begun = .ok filled final) :
    let entries := tag.entries document.serialization requested
    (∃ text,
      final.bytes = document.bytes ++ utf8 ((document.format.leadGap tag).text ++ text) ∧
      (∀ last, filled.Completes final last → ∃ bytes,
        last.bytes = final.bytes ++ (utf8 (filled.mark document.serialization) ++ bytes)) ∧
      ∀ rest, scanTag? ((text ++ filled.mark document.serialization).toList ++ rest) =
        some (tag.name, entries, rest)) ∧
    (entries.map fun entry => Text.lowercase entry.1).Nodup ∧
    ∀ (more : Attribute) (emission : Emission),
      more.emission ⟨tag, document.serialization, document.doctype⟩ = .ok emission →
      match (more.asked tag).written? document.serialization with
      | none => (filled.add more).run final = .ok filled final
      | some (name, _) =>
          ((filled.add more).run final = .error (.duplicateAttribute name tag) final ↔
            NameTaken entries name) ∧
          (¬NameTaken entries name →
            ∃ next later, (filled.add more).run final = .ok next later) := by
  have carries := (Place.element_carries unlimited started).run unlimited encoded added
  refine ⟨⟨"<" ++ tag.name ++ entriesMarkup document.serialization
    (tag.entries document.serialization requested), ?_, ?_, ?_⟩, carries.apart, ?_⟩
  · rw [carries.written]
    exact unlimited.bytes_wrote _
  · intro last completes
    have waits : final.unfinished ≠ none := by
      rw [carries.written]
      exact Option.some_ne_none tag
    rw [← carries.settings.2.1]
    exact completes.marked (carries.unlimited unlimited) waits
  · intro rest
    rw [String.toList_append, List.append_assoc]
    exact scanTag?_written tag carries.named (filled.mark_closes _) rest
  · intro more emission passed
    have tried := carries.add unlimited encoded passed
    cases wanted : (more.asked tag).written? document.serialization with
    | none =>
      rw [wanted] at tried
      exact tried
    | some entry =>
      rw [wanted] at tried
      obtain ⟨taken, refused⟩ | ⟨free, next, later, ran, -⟩ := tried
      · exact ⟨iff_of_true refused taken, fun free => absurd taken free⟩
      · refine ⟨iff_of_false (fun refused => ?_) free, fun _ => ⟨next, later, ran⟩⟩
        rw [ran] at refused
        cases refused

/-- For instance, with a namespace, a value that is escaped, a flag, a keyword in capitals and a
value that is absent. -/
theorem namespaced_tag_says_what_was_asked :
    let document : Document := .start {} (.xhtml .html5) .markup
    ∃ (filled : StartTag) (final : Document) (text : String),
      (do
        let start ← Place.document.element .html
        start.addAll [.global .lang "a<\"", .customFlag "x" true, .dir "LTR",
          .customOption "y" none]).run document = .ok filled final ∧
      final.bytes = utf8 text ∧
      scanTag? (text ++ filled.mark .xml).toList =
        some ("html", [("xmlns", some xhtmlNamespace), ("lang", some "a<\""), ("x", some "x"),
          ("dir", some "ltr")], []) ∧
      (filled.add (.custom "XMLNS" "")).run final =
        .error (.duplicateAttribute "XMLNS" .html) final := by
  intro document
  have good : (do
      let start ← Place.document.element .html
      start.addAll [.global .lang "a<\"", .customFlag "x" true, .dir "LTR",
        .customOption "y" none] : Writing StartTag).verdict document = .ok () := by decide +kernel
  obtain ⟨filled, final, ran⟩ := ok_of_verdict good
  obtain ⟨start, begun, started, added⟩ := ok_of_bind ran
  have unlimited : document.Unlimited := ⟨{}, rfl, .default⟩
  obtain ⟨⟨text, bytes, -, scanned⟩, -, refused⟩ :=
    start_tag_says_what_was_asked unlimited rfl started added
  have read := scanned []
  rw [List.append_nil] at read
  have taken : NameTaken (Tag.entries .html .xml [.global .lang "a<\"", .customFlag "x" true,
      .dir "LTR", .customOption "y" none]) "XMLNS" :=
    ⟨("xmlns", some xhtmlNamespace), by decide, by decide⟩
  exact ⟨filled, final, text, ran, bytes, read, (refused (.custom "XMLNS" "") _ rfl).1.mpr taken⟩

/-- Not all is read back as it was given, and not every name that is there already is refused: a
keyword is written in lower case, and a flag that is off is taken although the tag has its name. -/
theorem capitals_are_lost_and_off_flag_is_taken :
    let document : Document := .start {} {} .markup
    let fill : Writing StartTag := do
      let start ← Place.document.element .input
      start.addAll [.type "TEXT", .flag .checked true]
    fill.verdict document = .ok () ∧
      (finalState fill document).bytes = utf8 "<input type=\"text\" checked" ∧
      scanTag? "<input type=\"text\" checked>".toList =
        some ("input", [("type", some "text"), ("checked", none)], []) ∧
      "text" ≠ "TEXT" ∧
      (fill >>= fun filled => filled.add (.flag .checked false)).verdict document = .ok () := by
  decide +kernel

end HtmlWriter
