import HtmlWriter.Proofs.OpenElements
import HtmlWriter.Proofs.Requests

/-! Attributes of particular elements, asked for on other elements. They are refused wherever they
are asked for, but three kinds of values are judged before the element is, and hide from a caller
that the attribute has no place there. -/

namespace HtmlWriter

/-- Where an attribute belongs that belongs to particular elements. A keyword for the type of a
control belongs to `input` alone, of the elements that have a type. -/
def Attribute.rule? : Attribute → Option AttributeRule
  | text which _ => some which.rule
  | flag which _ => some which.rule
  | number which _ => some which.rule
  | type _ => some .kind
  | inputType _ => some { AttributeRule.kind with elements := some [.input] }
  | charset _ => some .charset
  | method _ => some .method
  | autocomplete _ => some .autocomplete
  | labelled _ => some .labelled
  | custom _ _ | customOption _ _ | customFlag _ _ | .id _ | global _ _ | dir _ | tabindex _
  | data _ _ | handler _ _ => none

/-- Whether a keyword that is asked for is one of the keywords of its attribute. -/
def Attribute.Readable : Attribute → Prop
  | inputType keyword => ∃ read, Keyword.parse InputType keyword = .ok read
  | method keyword => ∃ read, Keyword.parse Method keyword = .ok read
  | autocomplete keyword => ∃ read, Keyword.parse Autocomplete keyword = .ok read
  | _ => True

/-- What is wrong with the value of an attribute whether or not the element has the attribute: less
than one of something that has to be there, a target that identifies nothing, a method that the
document type lacks. -/
def Attribute.valueFault? (element : Tag) (doctype : Doctype) : Attribute → Option Error
  | number which value =>
      if which.atLeastOne ∧ value = 0 then
        some (.invalidAttributeValue which.rule.name "0" .belowOne)
      else none
  | labelled target =>
      if target.isEmpty || target.toList.any Text.isBlank then
        some (.invalidAttributeValue "id" target .notIdentifier)
      else none
  | method keyword =>
      if Text.toLowercase keyword = "dialog" ∧ ¬Support.html5Only.allows doctype then
        some (.unsupportedAttribute "method" (some "dialog") element doctype)
      else none
  | _ => none

private theorem Attribute.valueFault?_ne {element : Tag} {doctype : Doctype} {requested : Attribute}
    {name : String} :
    requested.valueFault? element doctype ≠ some (.attributeNotAllowed name element) := by
  cases requested with
  | number | labelled | method =>
    rw [valueFault?]
    split <;> simp
  | _ => nofun

theorem checkIdentifier_eq (target : String) :
    checkIdentifier target =
      if target.isEmpty || target.toList.any Text.isBlank then
        .error (.invalidAttributeValue "id" target .notIdentifier)
      else .ok () := by
  rw [checkIdentifier, AttributeName.isIdentifier, ← List.not_any_eq_all_not]
  cases target.isEmpty <;> cases target.toList.any Text.isBlank <;> rfl

private theorem AttributeRule.apart_of_foreign {rule : AttributeRule} {element tag : Tag}
    (foreign : rule.isFor element = false) (own : rule.isFor tag = true) : element ≠ tag := by
  rintro rfl
  rw [own] at foreign
  cases foreign

namespace TagContext
variable (context : TagContext) {rule : AttributeRule}

theorem permitted_foreign (foreign : rule.isFor context.element = false) (value : String) :
    context.permitted rule value = .error (.attributeNotAllowed rule.name context.element) := by
  rw [permitted, checkRule, foreign]
  rfl

private theorem checkKeyword_method {keyword : String} {read : Method}
    (parsed : Keyword.parse Method keyword = .ok read) :
    context.checkKeyword read =
      if Text.toLowercase keyword = "dialog" ∧ ¬Support.html5Only.allows context.doctype then
        .error (.unsupportedAttribute "method" (some "dialog") context.element context.doctype)
      else .ok () := by
  rw [← Keyword.word_of_parse parsed, checkKeyword]
  cases read with
  | get | post =>
    rw [if_neg (c := _ ∧ _) fun wanted => absurd wanted.1 (by decide)]
    cases context.doctype <;> rfl
  | dialog => cases context.doctype <;> rfl

end TagContext

theorem Attribute.emission_foreign (context : TagContext) {requested : Attribute}
    {rule : AttributeRule} (belongs : requested.rule? = some rule)
    (foreign : rule.isFor context.element = false) (readable : requested.Readable) :
    requested.emission context =
      .error ((requested.valueFault? context.element context.doctype).getD
        (.attributeNotAllowed rule.name context.element)) := by
  have refused := context.permitted_foreign foreign
  cases requested with
  | text which value =>
    cases belongs
    exact refused value
  | flag which on =>
    cases belongs
    change (context.checkRule which.rule >>= _) = _
    rw [TagContext.checkRule, foreign]
    rfl
  | number which value =>
    cases belongs
    rw [emission, refused, valueFault?]
    by_cases none : which.atLeastOne ∧ value = 0
    · obtain ⟨counts, rfl⟩ := none
      simp only [counts]
      rfl
    · have passes : (which.atLeastOne && value == 0) = false := by simpa using none
      rw [passes, if_neg none]
      rfl
  | type value =>
    cases belongs
    have other : (context.element == .input) = false :=
      beq_false_of_ne (AttributeRule.apart_of_foreign foreign rfl)
    rw [emission, other]
    exact refused value
  | inputType keyword =>
    cases belongs
    obtain ⟨read, parsed⟩ := readable
    change (Keyword.parse InputType keyword >>= _) = _
    rw [parsed]
    have other : (context.element != .input) = true :=
      bne_iff_ne.mpr (AttributeRule.apart_of_foreign foreign rfl)
    change ((if context.element != .input then _ else _) : Except Error Emission) = _
    rw [other]
    rfl
  | charset value =>
    cases belongs
    have other : (context.element == .metaTag) = false :=
      beq_false_of_ne (AttributeRule.apart_of_foreign foreign rfl)
    rw [emission, other]
    exact refused value
  | method keyword =>
    cases belongs
    obtain ⟨read, parsed⟩ := readable
    rw [emission, parsed]
    change (context.checkKeyword read >>= _) = _
    rw [context.checkKeyword_method parsed, valueFault?]
    split
    · rfl
    · exact refused _
  | autocomplete keyword =>
    cases belongs
    obtain ⟨read, parsed⟩ := readable
    have other : (context.element == .form) = false :=
      beq_false_of_ne (AttributeRule.apart_of_foreign foreign rfl)
    rw [emission, parsed]
    change (if context.element == .form && _ then _ else _ : Except Error Emission) = _
    rw [other]
    exact refused _
  | labelled target =>
    cases belongs
    rw [emission, checkIdentifier_eq, valueFault?]
    split
    · rfl
    · exact refused target
  | _ => cases belongs

/-- An attribute of particular elements is refused on any other, whatever was written before, and
nothing is written. It is refused as an attribute of other elements unless its value is at fault. -/
theorem StartTag.foreign_attribute_is_refused (start : StartTag) (document : Document)
    {requested : Attribute} {rule : AttributeRule} (belongs : requested.rule? = some rule)
    (foreign : rule.isFor start.tag = false) (readable : requested.Readable) :
    ∃ error, (start.add requested).run document = .error error document ∧
      (error = .attributeNotAllowed rule.name start.tag ↔
        requested.valueFault? start.tag document.doctype = none) ∧
      ∀ fault, requested.valueFault? start.tag document.doctype = some fault → error = fault := by
  have judged := Attribute.emission_foreign ⟨start.tag, document.serialization, document.doctype⟩
    belongs foreign readable
  dsimp only at judged
  rw [start.run_add_eq, judged]
  cases found : requested.valueFault? start.tag document.doctype with
  | none =>
    refine ⟨_, rfl, iff_of_true rfl rfl, ?_⟩
    rintro fault ⟨⟩
  | some fault =>
    refine ⟨fault, rfl, iff_of_false (fun hidden => ?_) nofun, ?_⟩
    · rw [hidden] at found
      exact Attribute.valueFault?_ne found
    · rintro other ⟨⟩
      rfl

/-- For instance, a method in capitals on an element that has an identifier. -/
theorem StartTag.method_refused_on_paragraph :
    let document : Document := .start {} (.xhtml .strict) .markup
    let start : StartTag := ⟨.p, .anything, ["id"]⟩
    Attribute.rule? (.method "GET") = some .method ∧ AttributeRule.method.isFor .p = false ∧
      (Attribute.method "GET").Readable ∧
      ∃ error, (start.add (.method "GET")).run document = .error error document ∧
        error = .attributeNotAllowed "method" .p := by
  intro document start
  have belongs : Attribute.rule? (.method "GET") = some .method := rfl
  have readable : (Attribute.method "GET").Readable := ⟨.get, rfl⟩
  obtain ⟨error, ran, asForeign, -⟩ :=
    start.foreign_attribute_is_refused document belongs rfl readable
  exact ⟨belongs, rfl, readable, error, ran, asForeign.mpr (by decide)⟩

/-- The span of a cell that covers no column is refused for its value even where there are no
cells. -/
theorem StartTag.empty_span_hides_foreign_element :
    Attribute.rule? (.number .colspan 0) = some .colspan ∧
      AttributeRule.colspan.isFor .div = false ∧ (Attribute.number .colspan 0).Readable ∧
      (do
        let start ← Place.document.element .div
        start.add (.number .colspan 0)).verdict (.start {} {} .markup) =
          .error (.invalidAttributeValue "colspan" "0" .belowOne) ∧
      Error.invalidAttributeValue "colspan" "0" .belowOne ≠ .attributeNotAllowed "colspan" .div :=
  ⟨rfl, rfl, trivial, rfl, by decide⟩

end HtmlWriter
