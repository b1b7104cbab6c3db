import HtmlWriter.Proofs.Calls
import HtmlWriter.Proofs.Requests

/-! Values that attributes are refused for. A few checks find fault with values, each for several
attributes, and each report has to tell the caller which of the attributes it is about, and what was
wrong there. All reports show the value as it was given. All but one name the attribute as it would
have been written: what a label or an output is for is checked as an identifier, and reported as the
identifier of the element. -/

namespace HtmlWriter

/-- How a keyword is displayed that was asked for in any case: by its word. What is no keyword stays
as it was given. -/
def Keyword.displayed (κ : Type) [Keyword κ] (given : String) : String :=
  match parse κ given with
  | .ok keyword => word keyword
  | .error _ => given

/-- The value that an attribute is given, as it is displayed. -/
def Attribute.given? : Attribute → Option String
  | custom _ value | .id value | global _ value | data _ value | handler _ value | text _ value
  | type value | charset value | labelled value => some value
  | customOption _ value => value
  | customFlag _ on | flag _ on => some (toString on)
  | tabindex index => some (toString index.toInt)
  | number _ value => some (toString value.toNat)
  | dir keyword => some (Keyword.displayed Direction keyword)
  | inputType keyword => some (Keyword.displayed InputType keyword)
  | method keyword => some (Keyword.displayed Method keyword)
  | autocomplete keyword => some (Keyword.displayed Autocomplete keyword)

/-- What is reported of a rejected value: the value that was given, under the name that the
attribute has in the start tag unless it is the target of a label. -/
structure Attribute.Reported (element : Tag) (requested : Attribute) (name value : String) :
    Prop where
  given : requested.given? = some value
  named : ∃ markup put, requested.asked element = .valued markup put ∧
    (name = markup ↔ ∀ target, requested ≠ .labelled target)
  target : ∀ target, requested = .labelled target → name = "id"

theorem Attribute.Reported.own {element : Tag} {requested : Attribute} {name value put : String}
    (given : requested.given? = some value) (asked : requested.asked element = .valued name put)
    (other : ∀ target, requested ≠ .labelled target) : requested.Reported element name value :=
  ⟨given, ⟨name, put, asked, iff_of_true rfl other⟩, fun target same => (other target same).elim⟩

/-- A verdict that rejects no value but with a report of a property. -/
def Reports {α : Type} (property : String → String → Prop) (verdict : Except Error α) : Prop :=
  ∀ ⦃name value fault⦄, verdict = .error (.invalidAttributeValue name value fault) →
    property name value

namespace Reports
variable {α β : Type} {property : String → String → Prop}

theorem pure (value : α) : Reports property (.ok value) := nofun

theorem bind {check : Except Error α} {next : α → Except Error β}
    (first : Reports property check)
    (rest : ∀ value, check = .ok value → Reports property (next value)) :
    Reports property (check >>= next) := by
  cases check with
  | error error =>
    rintro name value fault ⟨⟩
    exact first rfl
  | ok value => exact rest value rfl

/-- A check may throw what is not about a value, or what is reported rightly. -/
theorem guarded {refused : Bool} {error : Error} {rest : Except Error α}
    (thrown : refused = true → Reports property (.error error : Except Error Unit))
    (continues : Reports property rest) :
    Reports property (do
      if refused then
        MonadExcept.throw error
      rest) := by
  cases refused with
  | true =>
    rintro name value fault ⟨⟩
    exact thrown rfl rfl
  | false => exact continues

variable (context : TagContext)

theorem checkRule (rule : AttributeRule) : Reports property (context.checkRule rule) := by
  intro name value fault failed
  unfold TagContext.checkRule at failed
  split at failed
  · cases failed
  · split at failed <;> cases failed

theorem checkKeyword {κ : Type} [Keyword κ] (keyword : κ) :
    Reports property (context.checkKeyword keyword) := by
  intro name value fault failed
  unfold TagContext.checkKeyword at failed
  split at failed <;> cases failed

theorem checkName (name : String) : Reports property (context.checkName name) := by
  intro reported value fault failed
  unfold TagContext.checkName at failed
  split at failed <;> cases failed

theorem permitted (rule : AttributeRule) (value : String) :
    Reports property (context.permitted rule value) :=
  .bind (checkRule context rule) fun _ _ => .pure _

theorem checkIdentifier {given : String} (holds : property "id" given) :
    Reports property (HtmlWriter.checkIdentifier given) := by
  intro name value fault failed
  unfold HtmlWriter.checkIdentifier at failed
  split at failed
  · cases failed
  · cases failed
    exact holds

theorem parse {κ : Type} [Keyword κ] {given : String}
    (holds : Keyword.displayed κ given = given → property (Keyword.attributeName κ) given) :
    Reports property (Keyword.parse κ given) := by
  intro name value fault failed
  have plain : Keyword.displayed κ given = given := by rw [Keyword.displayed, failed]
  unfold Keyword.parse at failed
  dsimp only at failed
  split at failed
  · cases failed
  · cases failed
    exact holds plain

theorem inputType {keyword : String}
    (holds : Keyword.displayed InputType keyword = keyword → property "type" keyword) :
    Reports property (Attribute.emission context (.inputType keyword)) :=
  .bind (.parse holds) fun _ _ => .guarded (fun _ => nofun) <|
    .bind (checkKeyword context _) fun _ _ => .permitted context _ _

end Reports

private theorem Keyword.displayed_of_parse {κ : Type} [Keyword κ] {given : String} {keyword : κ}
    (read : parse κ given = .ok keyword) : displayed κ given = word keyword := by
  rw [displayed, read]

open Attribute in
private theorem emission_reports (context : TagContext) (requested : Attribute) :
    Reports (requested.Reported context.element) (requested.emission context) := by
  cases requested with
  | custom name value | customOption name value | customFlag name value =>
    exact .bind (.checkName context name) fun _ _ => .pure _
  | id value => exact .bind (.checkIdentifier (.own rfl rfl nofun)) fun _ _ => .pure _
  | global which value | tabindex index => exact .pure _
  | dir keyword =>
    exact .bind (.parse fun plain => .own (congrArg some plain) rfl nofun) fun _ _ =>
      .bind (.checkKeyword context _) fun _ _ => .pure _
  | data name value =>
    exact .bind (.checkRule context _) fun _ _ => .guarded (fun _ => nofun) (.pure _)
  | handler event script => exact .guarded (fun _ => nofun) (.pure _)
  | text which value => exact .permitted context _ _
  | flag which on => exact .bind (.checkRule context _) fun _ _ => .pure _
  | number which value =>
    refine .guarded (fun _ => ?_) (.permitted context _ _)
    rintro name shown fault ⟨⟩
    exact .own rfl rfl nofun
  | type value =>
    change Reports _ (if context.element == .input then emission context (.inputType value)
      else context.permitted .kind value)
    split
    · exact .inputType context fun _ => .own rfl rfl nofun
    · exact .permitted context _ _
  | inputType keyword =>
    exact .inputType context fun plain => .own (congrArg some plain) rfl nofun
  | charset value => exact .guarded (fun _ => nofun) (.permitted context _ _)
  | method keyword =>
    exact .bind (.parse fun plain => .own (congrArg some plain) rfl nofun) fun _ _ =>
      .bind (.checkKeyword context _) fun _ _ => .permitted context _ _
  | autocomplete keyword =>
    refine .bind (.parse fun plain => .own (congrArg some plain) rfl nofun) fun read found =>
      .guarded (fun _ => ?_) (.permitted context _ _)
    rintro name shown fault ⟨⟩
    refine .own ?_ rfl nofun
    rw [given?, Keyword.displayed_of_parse found]
  | labelled target =>
    refine .bind (.checkIdentifier ?_) fun _ _ => .permitted context _ _
    exact ⟨rfl, ⟨"for", target, rfl, iff_of_false (by decide) fun apart => apart target rfl⟩,
      fun _ _ => rfl⟩

namespace StartTag

/-- Of an attribute that was let through, no value is rejected any more. -/
private theorem emit_reports {start : StartTag} {emission : Emission} {document final : Document}
    {name value : String} {fault : ValueFault} :
    (start.emit emission).run document ≠
      .error (.invalidAttributeValue name value fault) final := by
  intro failed
  obtain ⟨claimed, next, duplicate, same, prints⟩ := start.emit_eq emission
  rw [same] at failed
  cases claimed with
  | error error =>
    obtain ⟨repeated, rfl⟩ := duplicate error rfl
    cases failed
  | ok claimed => cases (prints claimed).throws failed

/-- Whatever was written before, an attribute whose value is rejected is reported with the value
that was given, and under the name that it would have in the start tag. Only if it is what a label
or an output is for, it is called an identifier. -/
theorem rejected_value_is_reported (start : StartTag) {requested : Attribute}
    {document final : Document} {name value : String} {fault : ValueFault}
    (rejected : (start.add requested).run document =
      .error (.invalidAttributeValue name value fault) final) :
    requested.Reported start.tag name value := by
  rw [start.run_add_eq] at rejected
  have reports := emission_reports ⟨start.tag, document.serialization, document.doctype⟩ requested
  cases judged : requested.emission ⟨start.tag, document.serialization, document.doctype⟩ with
  | ok emission =>
    rw [judged] at rejected
    exact (emit_reports rejected).elim
  | error error =>
    rw [judged] at rejected
    cases rejected
    exact reports judged

/-- A form is not filled in by a kind of address, in whatever case it is asked to. -/
theorem form_reports_address :
    let document : Document := .start {} {} .markup
    let start : StartTag := ⟨.form, .anything, []⟩
    (start.add (.autocomplete "Email")).run document =
        .error (.invalidAttributeValue "autocomplete" "email" .notToggle) document ∧
      (Attribute.autocomplete "Email").Reported .form "autocomplete" "email" := by
  intro document start
  have rejected : (start.add (.autocomplete "Email")).run document =
      .error (.invalidAttributeValue "autocomplete" "email" .notToggle) document := rfl
  exact ⟨rejected, start.rejected_value_is_reported rejected⟩

/-- A label that is for nothing is told that its identifier is at fault. -/
theorem label_reports_identifier :
    (do
      let start ← Place.document.element .label
      start.add (.labelled "")).verdict (.start {} {} .markup) =
        .error (.invalidAttributeValue "id" "" .notIdentifier) ∧
      Attribute.asked .label (.labelled "") = .valued "for" "" ∧ "id" ≠ "for" :=
  ⟨rfl, rfl, by decide⟩

end StartTag
end HtmlWriter
