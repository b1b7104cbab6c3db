import HtmlWriter.Proofs.Bodies

/-! Paths of open elements. What may stand at the end of a path is read off the element
table; the model and the exclusions that writing carries along say the same. -/

namespace HtmlWriter

/-- The open elements around a place, innermost first. -/
abbrev Path := List Tag

namespace Path

/-- Whether an element may be the next child. A transparent element takes some elements
of its own, and otherwise asks the element around it. -/
def accepts : Path → Tag → Bool
  | [], _ => true
  | parent :: around, tag =>
      if parent.definition.content.transparent then
        parent.definition.content.tags.contains tag || accepts around tag
      else parent.definition.content.allows tag tag.categories

def acceptsText : Path → Bool
  | [] => true
  | parent :: around =>
      if parent.definition.content.transparent then acceptsText around
      else parent.definition.content.allowsText

/-- The innermost element of the path that forbids a descendant. -/
def forbidding? (path : Path) (tag : Tag) : Option Tag :=
  path.find? fun ancestor => ancestor.definition.exclusion.forbids tag tag.categories

/-- Whether an element may start at the end of the path, for a document type. -/
def check (doctype : Doctype) (path : Path) (tag : Tag) : Except Error Unit :=
  if !tag.definition.support.allows doctype then .error (.unsupportedElement tag doctype)
  else if !path.accepts tag then .error (.illegalNesting path.head? (.element tag))
  else match path.forbidding? tag with
    | some ancestor => .error (.forbiddenDescendant ancestor tag)
    | none => .ok ()

def model : Path → ContentModel
  | [] => .anything
  | parent :: around => parent.definition.content.inside (model around)

def place (path : Path) : Place := ⟨path.head?, path.model⟩

/-- The exclusions that the elements of the path add. -/
def exclusions (path : Path) : List (Tag × Exclusion) := path.flatMap Tag.ownExclusions

@[simp] theorem place_nil : place [] = .document := rfl

@[simp] theorem exclusions_cons (tag : Tag) (path : Path) :
    exclusions (tag :: path) = tag.ownExclusions ++ path.exclusions := rfl

theorem model_allows (path : Path) (tag : Tag) :
    path.model.allows tag tag.categories = path.accepts tag := by
  induction path with
  | nil =>
    have member : (BitSet.ofList Tag.all : TagSet).contains tag = true := by
      rw [BitSet.contains_ofList, decide_eq_true (Tag.mem_all tag)]
    simp only [model, ContentModel.allows, ContentModel.anything, member, Bool.or_true, accepts]
  | cons parent around ih =>
    rw [model, ContentModel.inside, accepts]
    split
    · rw [← ih]
      simp only [ContentModel.allows, BitSet.contains_union]
      ac_rfl
    · rfl

theorem model_allowsText (path : Path) : path.model.allowsText = path.acceptsText := by
  induction path with
  | nil => decide
  | cons parent around ih =>
    rw [model, ContentModel.inside, acceptsText]
    split
    · exact ih
    · rfl

private theorem forbids_of_isEmpty {exclusion : Exclusion} (isEmpty : exclusion.isEmpty)
    (tag : Tag) (categories : Categories) : exclusion.forbids tag categories = false := by
  obtain ⟨⟨categoryBits⟩, ⟨tagBits⟩⟩ := exclusion
  simp only [Exclusion.isEmpty, BitSet.isEmpty, Bool.and_eq_true, beq_iff_eq] at isEmpty
  obtain ⟨rfl, rfl⟩ := isEmpty
  simp [Exclusion.forbids, BitSet.intersects, BitSet.contains]

/-- An element that forbids nothing is not among the exclusions, and would not be found
there. -/
theorem find?_exclusions (path : Path) (tag : Tag) :
    (path.exclusions.find? fun entry => entry.2.forbids tag tag.categories).map Prod.fst =
      path.forbidding? tag := by
  induction path with
  | nil => rfl
  | cons ancestor around ih =>
    rw [exclusions_cons, List.find?_append, forbidding?, List.find?_cons, Tag.ownExclusions]
    by_cases isEmpty : ancestor.definition.exclusion.isEmpty
    · simp only [isEmpty, forbids_of_isEmpty isEmpty, if_true]
      exact ih
    · rw [if_neg isEmpty, List.find?_singleton]
      cases ancestor.definition.exclusion.forbids tag tag.categories with
      | true => rfl
      | false => exact ih

theorem place_check {document : Document} {path : Path}
    (excluded : document.exclusions = path.exclusions) (tag : Tag) :
    path.place.check document tag = path.check document.doctype tag := by
  have found := path.find?_exclusions tag
  simp only [Place.check, check, place, path.model_allows, excluded, ← found]
  cases path.exclusions.find? fun entry => entry.2.forbids tag tag.categories <;> rfl

end Path
end HtmlWriter
