import HtmlWriter.ContentModel
import HtmlWriter.Doctype

/-! The element table: for every tag its categories, what may stand inside it, how it
is laid out, and which document types know it. -/

namespace HtmlWriter

/-- How an element is laid out where automatic newlines are on. -/
inductive Layout
  /-- Starts on its own line; its body is indented one level deeper. -/
  | block
  /-- Starts on its own line; its body stays at the same depth. -/
  | root
  /-- Stays on the current line. -/
  | inline
  /-- Stays on the current line and ends it. -/
  | lineBreak
  /-- Starts on its own line; nothing is formatted inside. -/
  | verbatim
deriving DecidableEq, Repr, Inhabited

structure ElementDefinition where
  tag : Tag
  categories : Categories
  content : ContentModel
  layout : Layout
  /-- A void element has neither content nor an end tag. -/
  isVoid : Bool := false
  support : Support := .all
  exclusion : Exclusion := .nothing
  /-- Whether SGML reads the content raw, up to the first end tag of this name. -/
  rawText : Bool := false
deriving Repr

namespace ElementDefinition

private def flow : List Category := [.flow, .palpable]
private def phrasing : List Category := [.flow, .phrasing, .palpable]
private def interactive : List Category := .interactive :: phrasing
private def sectioning : List Category := .sectioning :: flow
private def heading : List Category := .heading :: flow
private def embedded : List Category := .embedded :: phrasing
private def media : List Category := .interactive :: embedded
private def scripting : List Category := [.metadata, .flow, .phrasing, .scriptSupporting]

private def flowContent : ContentModel := .ofCategories (.ofList [.flow])
private def phrasingContent : ContentModel := .ofCategories (.ofList [.phrasing])
private def textContent : ContentModel := .ofCategories (.ofList [.text])

private def block (tag : Tag) (categories : List Category) (content : ContentModel) :
    ElementDefinition :=
  { tag, categories := .ofList categories, content, layout := .block }

private def inline (tag : Tag) (categories : List Category) (content : ContentModel) :
    ElementDefinition :=
  { tag, categories := .ofList categories, content, layout := .inline }

private def root (tag : Tag) (content : ContentModel) : ElementDefinition :=
  { tag, categories := .empty, content, layout := .root }

private def verbatim (tag : Tag) (categories : List Category) (content : ContentModel) :
    ElementDefinition :=
  { tag, categories := .ofList categories, content, layout := .verbatim }

private def void (tag : Tag) (categories : List Category) (layout : Layout) :
    ElementDefinition :=
  { tag, categories := .ofList categories, content := .nothing, layout, isVoid := true }

private def html5 (definition : ElementDefinition) : ElementDefinition :=
  { definition with support := .html5Only }

private def html4 (definition : ElementDefinition) : ElementDefinition :=
  { definition with support := .html4Only }

private def notStrict (definition : ElementDefinition) : ElementDefinition :=
  { definition with support := .notStrict }

private def raw (definition : ElementDefinition) : ElementDefinition :=
  { definition with rawText := true }

private def excluding (definition : ElementDefinition) (categories : List Category)
    (tags : List Tag) : ElementDefinition :=
  { definition with exclusion := ⟨.ofList categories, .ofList tags⟩ }

end ElementDefinition

open ElementDefinition in
def Tag.definition : Tag → ElementDefinition
  | html => root html (ContentModel.nothing.accepting [head, body])
  | head => root head (.ofCategories (.ofList [.metadata]))
  | body => root body flowContent
  | title => block title [.metadata] textContent
  | base => void base [.metadata] .block
  | link => void link [.metadata] .block
  | metaTag => void metaTag [.metadata] .block
  | style => raw (verbatim style [.metadata] textContent)
  | script => raw (verbatim script scripting textContent)
  | noscript => block noscript [.metadata, .flow, .phrasing] .inherited
  | template => html5 (block template scripting (.ofCategories (.ofList [.flow, .metadata])))
  | article => html5 (block article sectioning flowContent)
  | aside => html5 (block aside sectioning flowContent)
  | nav => html5 (block nav sectioning flowContent)
  | sectionTag => html5 (block sectionTag sectioning flowContent)
  | header => html5 ((block header flow flowContent).excluding [] [header, footer, main])
  | footer => html5 ((block footer flow flowContent).excluding [] [header, footer, main])
  | main => html5 (block main flow flowContent)
  | address =>
      (block address flow flowContent).excluding [.heading, .sectioning] [header, footer, address]
  | h1 => block h1 heading phrasingContent
  | h2 => block h2 heading phrasingContent
  | h3 => block h3 heading phrasingContent
  | h4 => block h4 heading phrasingContent
  | h5 => block h5 heading phrasingContent
  | h6 => block h6 heading phrasingContent
  | hgroup => html5 (block hgroup heading (.only [h1, h2, h3, h4, h5, h6, p]))
  | p => block p flow phrasingContent
  | hr => void hr [.flow] .block
  | pre => verbatim pre flow phrasingContent
  | blockquote => block blockquote flow flowContent
  | ol => block ol flow (.only [li])
  | ul => block ul flow (.only [li])
  | menu => block menu flow (.only [li])
  | li => block li [] flowContent
  | dl => block dl flow (.only [dt, dd, div])
  | dt => (block dt [] flowContent).excluding [.heading, .sectioning] [header, footer]
  | dd => block dd [] flowContent
  | figure => html5 (block figure flow (flowContent.accepting [figcaption]))
  | figcaption => html5 (block figcaption [] flowContent)
  | div => block div flow flowContent
  | a => (inline a interactive .inherited).excluding [.interactive] []
  | em => inline em phrasing phrasingContent
  | strong => inline strong phrasing phrasingContent
  | small => inline small phrasing phrasingContent
  | s => notStrict (inline s phrasing phrasingContent)
  | cite => inline cite phrasing phrasingContent
  | q => inline q phrasing phrasingContent
  | dfn => (inline dfn phrasing phrasingContent).excluding [] [dfn]
  | abbr => inline abbr phrasing phrasingContent
  | ruby => html5 (inline ruby phrasing (phrasingContent.accepting [rt, rp]))
  | rt => html5 (inline rt [] phrasingContent)
  | rp => html5 (inline rp [] textContent)
  | data => html5 (inline data phrasing phrasingContent)
  | time => html5 (inline time phrasing phrasingContent)
  | code => inline code phrasing phrasingContent
  | var => inline var phrasing phrasingContent
  | samp => inline samp phrasing phrasingContent
  | kbd => inline kbd phrasing phrasingContent
  | sub => inline sub phrasing phrasingContent
  | sup => inline sup phrasing phrasingContent
  | i => inline i phrasing phrasingContent
  | b => inline b phrasing phrasingContent
  | u => notStrict (inline u phrasing phrasingContent)
  | mark => html5 (inline mark phrasing phrasingContent)
  | bdi => html5 (inline bdi phrasing phrasingContent)
  | bdo => inline bdo phrasing phrasingContent
  | span => inline span phrasing phrasingContent
  | br => void br [.flow, .phrasing] .lineBreak
  | wbr => html5 (void wbr [.flow, .phrasing] .inline)
  | ins => inline ins phrasing .inherited
  | del => inline del phrasing .inherited
  | picture => html5 (inline picture [.flow, .phrasing, .embedded] (.only [source, img]))
  | source => html5 (void source [] .block)
  | img => void img embedded .inline
  | iframe => notStrict (inline iframe media .nothing)
  | embed => html5 (void embed media .inline)
  | object => inline object embedded (ContentModel.inherited.accepting [param])
  | param => void param [] .block
  | video =>
      html5 ((block video media (ContentModel.inherited.accepting [source, track])).excluding []
        [video, audio])
  | audio =>
      html5 ((block audio media (ContentModel.inherited.accepting [source, track])).excluding []
        [video, audio])
  | track => html5 (void track [] .block)
  | map => block map phrasing (ContentModel.inherited.accepting [area])
  | area => void area [.flow, .phrasing] .block
  | table => block table flow (.only [caption, colgroup, thead, tbody, tfoot, tr])
  | caption => (block caption [] flowContent).excluding [] [table]
  | colgroup => block colgroup [] (.only [col])
  | col => void col [] .block
  | tbody => block tbody [] (.only [tr])
  | thead => block thead [] (.only [tr])
  | tfoot => block tfoot [] (.only [tr])
  | tr => block tr [] (.only [td, th])
  | td => block td [] flowContent
  | th => (block th [] flowContent).excluding [.heading, .sectioning] [header, footer]
  | form => (block form flow flowContent).excluding [] [form]
  | label => (inline label interactive phrasingContent).excluding [] [label]
  | input => void input interactive .inline
  | button => (inline button interactive phrasingContent).excluding [.interactive] []
  | select => block select interactive (.only [option, optgroup])
  | datalist => html5 (block datalist [.flow, .phrasing] (phrasingContent.accepting [option]))
  | optgroup => block optgroup [] (.only [option])
  | option => block option [] textContent
  | textarea => verbatim textarea interactive textContent
  | output => html5 (inline output phrasing phrasingContent)
  | progress => html5 ((inline progress phrasing phrasingContent).excluding [] [progress])
  | meter => html5 ((inline meter phrasing phrasingContent).excluding [] [meter])
  | fieldset => block fieldset flow (flowContent.accepting [legend])
  | legend => block legend [] phrasingContent
  | details => html5 (block details (.interactive :: flow) (flowContent.accepting [summary]))
  | summary => html5 (block summary [] (.ofCategories (.ofList [.phrasing, .heading])))
  | dialog => html5 (block dialog [.flow] flowContent)
  | canvas => html5 (inline canvas embedded .inherited)
  | acronym => html4 (inline acronym phrasing phrasingContent)
  | big => html4 (inline big phrasing phrasingContent)
  | tt => html4 (inline tt phrasing phrasingContent)

namespace Tag

abbrev categories (tag : Tag) : Categories := tag.definition.categories

/-- A tag's entry in the table is about that tag. -/
@[simp] theorem tag_definition (tag : Tag) : tag.definition.tag = tag := by
  cases tag <;> rfl

end Tag
end HtmlWriter
