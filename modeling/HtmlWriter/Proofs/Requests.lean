import HtmlWriter.StartTag

/-! What attributes ask for. Which name and which value an attribute has is decided by the request
and the element alone; the checks only say whether it may be written. A name that has passed them
is one that can be written, in whichever way it was made up. -/

namespace HtmlWriter

/-- What an attribute puts into the start tag of an element if it is permitted. Keywords are put
there in lower case, numbers in decimal digits, and everything else as it was given. -/
def Attribute.asked (element : Tag) : Attribute → Emission
  | custom name value | customOption name (some value) => .valued name value
  | customOption _ none | customFlag _ false | flag _ false => .nothing
  | customFlag name true => .flag name
  | flag which true => .flag which.rule.name
  | .id value => .valued "id" value
  | global which value => .valued which.name value
  | dir keyword => .valued "dir" (Text.toLowercase keyword)
  | tabindex index => .valued "tabindex" (toString index.toInt)
  | data name value => .valued ("data-" ++ name) value
  | handler event script => .valued ("on" ++ event) script
  | text which value => .valued which.rule.name value
  | number which value => .valued which.rule.name (toString value.toNat)
  | type value => .valued "type" (if element = .input then Text.toLowercase value else value)
  | inputType keyword => .valued "type" (Text.toLowercase keyword)
  | charset value => .valued "charset" value
  | method keyword => .valued "method" (Text.toLowercase keyword)
  | autocomplete keyword => .valued "autocomplete" (Text.toLowercase keyword)
  | labelled target => .valued "for" target

theorem Keyword.word_of_parse {κ : Type} [Keyword κ] {value : String} {keyword : κ}
    (read : Keyword.parse κ value = .ok keyword) :
    Keyword.word keyword = Text.toLowercase value := by
  unfold parse at read
  dsimp only at read
  cases found : (all : List κ).find? fun keyword =>
      (word keyword).toList == Text.lowercase value with
  | none =>
    rw [found] at read
    cases read
  | some first =>
    rw [found] at read
    cases read
    have same : (word keyword).toList = Text.lowercase value := eq_of_beq (List.find?_some found :)
    rw [Text.toLowercase, ← same, String.ofList_toList]

/-- A verdict that lets nothing pass but what has a property. -/
def Passes (property : Emission → Prop) (verdict : Except Error Emission) : Prop :=
  ∀ ⦃emission⦄, verdict = .ok emission → property emission

namespace Passes
variable {α : Type} {property : Emission → Prop}

theorem pure {emission : Emission} (holds : property emission) :
    Passes property (.ok emission) := by
  rintro given ⟨⟩
  exact holds

theorem throw (error : Error) : Passes property (.error error) := nofun

theorem bind {check : Except Error α} {next : α → Except Error Emission}
    (rest : ∀ value, check = .ok value → Passes property (next value)) :
    Passes property (check >>= next) := by
  cases check with
  | error error => exact .throw error
  | ok value => exact rest value rfl

theorem guarded {refused : Bool} {error : Error} {rest : Except Error Emission}
    (passes : refused = false → Passes property rest) :
    Passes property (do
      if refused then
        MonadExcept.throw error
      rest) := by
  cases refused with
  | true => exact .throw error
  | false => exact passes rfl

theorem permitted {context : TagContext} {rule : AttributeRule} {value : String}
    (holds : property (.valued rule.name value)) : Passes property (context.permitted rule value) :=
  .bind fun _ _ => .pure holds

theorem inputType {context : TagContext} {keyword : String}
    (holds : property (.valued "type" (Text.toLowercase keyword))) :
    Passes property (Attribute.emission context (.inputType keyword)) := by
  refine .bind fun read found => .guarded fun _ => .bind fun _ _ => .permitted ?_
  rw [Keyword.word_of_parse found]
  exact holds

end Passes

/-- An attribute in a start tag as a reader of the tag takes it: a name, and a value unless it has
none. In XML a flag has its name as its value. -/
def Emission.written? (serialization : Serialization) : Emission → Option (String × Option String)
  | nothing => none
  | valued name value => some (name, some value)
  | flag name => some (name, if serialization = .xml then some name else none)

namespace AttributeName
variable {serialization : Serialization}

/-- XML is the stricter of the two. -/
theorem isValid_of_xml {name : String} (valid : isValid .xml name = true) :
    isValid serialization name = true := by
  cases serialization with
  | xml => exact valid
  | sgml =>
    unfold isValid at valid ⊢
    split at valid
    · cases valid
    · simp only [begins, Bool.and_eq_true] at valid ⊢
      exact ⟨valid.1.1.1.1, valid.2⟩

private theorem isValid_append {first rest : String} (valid : isValid serialization first = true)
    (continued : ∀ c ∈ rest.toList, continues c = true) :
    isValid serialization (first ++ rest) = true := by
  unfold isValid at valid ⊢
  rw [String.toList_append]
  split at valid
  · cases valid
  · rename_i c more spelled
    rw [spelled, List.cons_append]
    dsimp only
    rw [Bool.and_eq_true, List.all_eq_true] at valid ⊢
    exact ⟨valid.1, List.forall_mem_append.mpr ⟨valid.2, continued⟩⟩

private theorem isValid_data {name : String} (valid : isValidData name = true) :
    isValid serialization ("data-" ++ name) = true := by
  refine isValid_append (isValid_of_xml (by decide)) fun c member => ?_
  simp only [isValidData, Bool.and_eq_true, List.all_eq_true] at valid
  exact (valid.1.2 c member).1.1

private theorem continues_of_isLower {c : Char} (small : c.isLower = true) :
    continues c = true := by
  have bounds : 97 ≤ c.toNat ∧ c.toNat ≤ 122 := by
    obtain ⟨low, high⟩ := Bool.and_eq_true_iff.mp small
    exact ⟨UInt32.le_iff_toNat_le.mp (of_decide_eq_true low),
      UInt32.le_iff_toNat_le.mp (of_decide_eq_true high)⟩
  have control : Text.isControl c = false := by
    simp only [Text.isControl, Bool.or_eq_false_iff, Bool.and_eq_false_imp, decide_eq_false_iff_not,
      decide_eq_true_eq]
    omega
  have other {mark : Char} (apart : mark.isLower = false) : c ≠ mark := by
    rintro rfl
    rw [small] at apart
    cases apart
  simp [continues, Text.isBlank, control, other]

private theorem isValid_handler {event : String} (valid : isValidEvent event = true) :
    isValid serialization ("on" ++ event) = true := by
  refine isValid_append (isValid_of_xml (by decide)) fun c member => ?_
  simp only [isValidEvent, Bool.and_eq_true, List.all_eq_true] at valid
  exact continues_of_isLower (valid.2 c member)

end AttributeName

private theorem TagContext.isValid_of_checkName {context : TagContext} {name : String}
    (checked : context.checkName name = .ok ()) :
    AttributeName.isValid context.serialization name = true := by
  unfold checkName at checked
  split at checked
  · assumption
  · cases checked

/-- What may be put into a start tag at a request: what was asked for, under a name that can be
written. -/
structure Emission.Answers (context : TagContext) (requested : Attribute) (emission : Emission) :
    Prop where
  asked : emission = requested.asked context.element
  valid : ∀ entry ∈ emission.written? context.serialization,
    AttributeName.isValid context.serialization entry.1 = true

namespace Emission.Answers
variable {context : TagContext} {requested : Attribute} {name value : String}

theorem nothing (asked : requested.asked context.element = .nothing) :
    Answers context requested .nothing :=
  ⟨asked.symm, nofun⟩

theorem valued (asked : requested.asked context.element = .valued name value)
    (valid : AttributeName.isValid context.serialization name = true) :
    Answers context requested (.valued name value) := by
  refine ⟨asked.symm, ?_⟩
  rintro entry ⟨⟩
  exact valid

theorem flag (asked : requested.asked context.element = .flag name)
    (valid : AttributeName.isValid context.serialization name = true) :
    Answers context requested (.flag name) := by
  refine ⟨asked.symm, ?_⟩
  rintro entry ⟨⟩
  exact valid

end Emission.Answers

/-- The attributes that have a name of their own have one that can be written. -/
private theorem isValid_ownName (serialization : Serialization) :
    (∀ which : GlobalAttribute, AttributeName.isValid serialization which.name = true) ∧
    (∀ which : TextAttribute, AttributeName.isValid serialization which.rule.name = true) ∧
    (∀ which : FlagAttribute, AttributeName.isValid serialization which.rule.name = true) ∧
    ∀ which : NumberAttribute, AttributeName.isValid serialization which.rule.name = true := by
  refine ⟨?_, ?_, ?_, ?_⟩ <;> intro which <;> refine AttributeName.isValid_of_xml ?_ <;>
    cases which <;> decide

open AttributeName Emission.Answers in
theorem emission_answers (context : TagContext) (requested : Attribute) :
    Passes (·.Answers context requested) (requested.emission context) := by
  obtain ⟨globals, texts, flags, numbers⟩ := isValid_ownName context.serialization
  cases requested with
  | custom name value =>
    exact .bind fun _ checked => .pure (valued rfl (context.isValid_of_checkName checked))
  | customOption name value =>
    refine .bind fun _ checked => .pure ?_
    cases value with
    | none => exact nothing rfl
    | some value => exact valued rfl (context.isValid_of_checkName checked)
  | customFlag name on =>
    refine .bind fun _ checked => .pure ?_
    cases on with
    | false => exact nothing rfl
    | true => exact flag rfl (context.isValid_of_checkName checked)
  | id value => exact .bind fun _ _ => .pure (valued rfl (isValid_of_xml (by decide)))
  | global which value => exact .pure (valued rfl (globals which))
  | dir keyword =>
    refine .bind fun read found => .bind fun _ _ => .pure ?_
    exact valued (by rw [Keyword.word_of_parse found]; rfl) (isValid_of_xml (by decide))
  | tabindex index => exact .pure (valued rfl (isValid_of_xml (by decide)))
  | data name value =>
    exact .bind fun _ _ => .guarded fun judged =>
      .pure (valued rfl (isValid_data (by simpa using judged)))
  | handler event script =>
    exact .guarded fun judged => .pure (valued rfl (isValid_handler (by simpa using judged)))
  | text which value => exact .permitted (valued rfl (texts which))
  | flag which on =>
    refine .bind fun _ _ => .pure ?_
    cases on with
    | false => exact nothing rfl
    | true => exact flag rfl (flags which)
  | number which value => exact .guarded fun _ => .permitted (valued rfl (numbers which))
  | type value =>
    change Passes _ (if context.element == .input then Attribute.emission context (.inputType value)
      else context.permitted .kind value)
    cases isInput : context.element == .input with
    | true =>
      refine .inputType (valued ?_ (isValid_of_xml (by decide)))
      rw [Attribute.asked, if_pos (eq_of_beq isInput)]
    | false =>
      refine .permitted (valued ?_ (isValid_of_xml (by decide)))
      rw [Attribute.asked, if_neg (ne_of_beq_false isInput)]
      rfl
  | inputType keyword => exact .inputType (valued rfl (isValid_of_xml (by decide)))
  | charset value => exact .guarded fun _ => .permitted (valued rfl (isValid_of_xml (by decide)))
  | method keyword =>
    refine .bind fun read found => .bind fun _ _ => .permitted ?_
    exact valued (by rw [Keyword.word_of_parse found]; rfl) (isValid_of_xml (by decide))
  | autocomplete keyword =>
    refine .bind fun read found => .guarded fun _ => .permitted ?_
    exact valued (by rw [Keyword.word_of_parse found]; rfl) (isValid_of_xml (by decide))
  | labelled target => exact .bind fun _ _ => .permitted (valued rfl (isValid_of_xml (by decide)))

/-- All checks but the one for repetition are made before anything else is done. -/
theorem StartTag.run_add_eq (start : StartTag) (requested : Attribute) (document : Document) :
    (start.add requested).run document =
      match requested.emission ⟨start.tag, document.serialization, document.doctype⟩ with
      | .ok emission => (start.emit emission).run document
      | .error error => .error error document := by
  change (MonadExcept.ofExcept (requested.emission ⟨start.tag, document.serialization,
    document.doctype⟩) >>= start.emit : Writing StartTag).run document = _
  cases requested.emission ⟨start.tag, document.serialization, document.doctype⟩ <;> rfl

end HtmlWriter
