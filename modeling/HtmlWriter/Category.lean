import HtmlWriter.BitSet

/-! Content categories: the kinds of element that content models speak of. -/

namespace HtmlWriter

/-- A kind of content. An element belongs to any number of them, text to the last. -/
inductive Category
  | flow
  | phrasing
  | palpable
  | metadata
  | embedded
  | interactive
  | scriptSupporting
  | sectioning
  | heading
  | text
deriving DecidableEq, Repr, Inhabited

namespace Category

def name : Category → String
  | flow => "flow"
  | phrasing => "phrasing"
  | palpable => "palpable"
  | metadata => "metadata"
  | embedded => "embedded"
  | interactive => "interactive"
  | scriptSupporting => "script-supporting"
  | sectioning => "sectioning"
  | heading => "heading"
  | text => "text"

/-- Every category once, in the order of reports. -/
def all : List Category :=
  [flow, phrasing, palpable, metadata, embedded, interactive, scriptSupporting, sectioning,
   heading, text]

/-- No category is missing from the list of all categories. -/
theorem mem_all (category : Category) : category ∈ all := by
  cases category <;> decide

private theorem ctorIdx_lt (category : Category) : category.ctorIdx < 10 := by
  cases category <;> decide

instance : Indexed Category 10 where
  index category := ⟨category.ctorIdx, ctorIdx_lt category⟩
  index_injective first second same := by
    have places : first.ctorIdx = second.ctorIdx := congrArg Fin.val same
    rw [← Category.ofNat_ctorIdx first, ← Category.ofNat_ctorIdx second, places]

end Category

/-- A set of content categories. -/
abbrev Categories := BitSet Category 10

namespace Categories

def everything : Categories := BitSet.ofList Category.all

/-- The categories that make a place accept text: text flows and is phrasing, besides
being its own kind. -/
def textRun : Categories := BitSet.ofList [.flow, .phrasing, .text]

/-- The members of a set of categories, in the order of reports. -/
def toList (categories : Categories) : List Category := Category.all.filter categories.contains

/-- How reports show a set of categories: quoted names between braces. -/
def describe (categories : Categories) : String :=
  "\x7b" ++ ", ".intercalate (categories.toList.map (fun c => "\"" ++ c.name ++ "\"")) ++ "\x7d"

end Categories
end HtmlWriter
