import HtmlWriter.Category
import HtmlWriter.Tag

/-! What may stand inside an element. A content model decides about children, and an
exclusion about descendants at any depth. A transparent element has no model of its
own: it accepts what its parent accepts, and some elements besides. -/

namespace HtmlWriter

/-- What an element accepts as children: those of certain categories, and certain
elements whatever their categories. -/
structure ContentModel where
  categories : Categories
  tags : TagSet
  transparent : Bool
deriving DecidableEq, Repr, Inhabited

namespace ContentModel

def nothing : ContentModel := ⟨.empty, .empty, false⟩

/-- Accepts every element and text, as the top level of a document does. -/
def anything : ContentModel := ⟨.everything, .ofList Tag.all, false⟩

def ofCategories (categories : Categories) : ContentModel := ⟨categories, .empty, false⟩

/-- Accepts these elements, and script-supporting ones, which may stand almost
anywhere. -/
def only (tags : List Tag) : ContentModel := ⟨.ofList [.scriptSupporting], .ofList tags, false⟩

/-- Accepts what the parent accepts. -/
def inherited : ContentModel := ⟨.empty, .empty, true⟩

def accepting (model : ContentModel) (tags : List Tag) : ContentModel :=
  { model with tags := model.tags ∪ .ofList tags }

/-- Whether a child is accepted, given the categories it is taken to belong to. -/
def allows (model : ContentModel) (tag : Tag) (categories : Categories) : Bool :=
  categories.intersects model.categories || model.tags.contains tag

def allowsText (model : ContentModel) : Bool := Categories.textRun.intersects model.categories

/-- The model in effect for an element's children, given the one in effect for its
siblings. The parent's model is in effect there only after its own resolution, so
nothing transparent is left over. -/
def inside (model parent : ContentModel) : ContentModel :=
  if model.transparent then ⟨parent.categories, parent.tags ∪ model.tags, false⟩ else model

end ContentModel

/-- The elements that an element forbids among its descendants, however deep. -/
structure Exclusion where
  categories : Categories
  tags : TagSet
deriving DecidableEq, Repr, Inhabited

namespace Exclusion

def nothing : Exclusion := ⟨.empty, .empty⟩

def isEmpty (exclusion : Exclusion) : Bool :=
  exclusion.categories.isEmpty && exclusion.tags.isEmpty

/-- Whether a descendant is forbidden, given the categories it is taken to belong
to. -/
def forbids (exclusion : Exclusion) (tag : Tag) (categories : Categories) : Bool :=
  categories.intersects exclusion.categories || exclusion.tags.contains tag

end Exclusion
end HtmlWriter
