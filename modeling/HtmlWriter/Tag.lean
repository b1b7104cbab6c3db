import HtmlWriter.BitSet
import HtmlWriter.Text.Ascii

/-! The element names this library writes. A tag is known by its lower-case name;
looking a name up ignores the case of ASCII letters and nothing else. -/

namespace HtmlWriter

/-- An element type. The order is the order of the element table, and every list of
tags that the library reports keeps it. -/
inductive Tag
  | html | head | body | title | base | link | metaTag | style | script | noscript | template
  | article | aside | nav | sectionTag | header | footer | main | address
  | h1 | h2 | h3 | h4 | h5 | h6 | hgroup
  | p | hr | pre | blockquote | ol | ul | menu | li | dl | dt | dd | figure | figcaption | div
  | a | em | strong | small | s | cite | q | dfn | abbr | ruby | rt | rp | data | time | code
  | var | samp | kbd | sub | sup | i | b | u | mark | bdi | bdo | span | br | wbr
  | ins | del
  | picture | source | img | iframe | embed | object | param | video | audio | track | map | area
  | table | caption | colgroup | col | tbody | thead | tfoot | tr | td | th
  | form | label | input | button | select | datalist | optgroup | option | textarea | output
  | progress | meter | fieldset | legend
  | details | summary | dialog | canvas
  | acronym | big | tt
deriving DecidableEq, Repr, Inhabited

namespace Tag

def name : Tag → String
  | html => "html" | head => "head" | body => "body" | title => "title" | base => "base"
  | link => "link" | metaTag => "meta" | style => "style" | script => "script"
  | noscript => "noscript" | template => "template" | article => "article" | aside => "aside"
  | nav => "nav" | sectionTag => "section" | header => "header" | footer => "footer"
  | main => "main" | address => "address" | h1 => "h1" | h2 => "h2" | h3 => "h3" | h4 => "h4"
  | h5 => "h5" | h6 => "h6" | hgroup => "hgroup" | p => "p" | hr => "hr" | pre => "pre"
  | blockquote => "blockquote" | ol => "ol" | ul => "ul" | menu => "menu" | li => "li"
  | dl => "dl" | dt => "dt" | dd => "dd" | figure => "figure" | figcaption => "figcaption"
  | div => "div" | a => "a" | em => "em" | strong => "strong" | small => "small" | s => "s"
  | cite => "cite" | q => "q" | dfn => "dfn" | abbr => "abbr" | ruby => "ruby" | rt => "rt"
  | rp => "rp" | data => "data" | time => "time" | code => "code" | var => "var"
  | samp => "samp" | kbd => "kbd" | sub => "sub" | sup => "sup" | i => "i" | b => "b"
  | u => "u" | mark => "mark" | bdi => "bdi" | bdo => "bdo" | span => "span" | br => "br"
  | wbr => "wbr" | ins => "ins" | del => "del" | picture => "picture" | source => "source"
  | img => "img" | iframe => "iframe" | embed => "embed" | object => "object"
  | param => "param" | video => "video" | audio => "audio" | track => "track" | map => "map"
  | area => "area" | table => "table" | caption => "caption" | colgroup => "colgroup"
  | col => "col" | tbody => "tbody" | thead => "thead" | tfoot => "tfoot" | tr => "tr"
  | td => "td" | th => "th" | form => "form" | label => "label" | input => "input"
  | button => "button" | select => "select" | datalist => "datalist" | optgroup => "optgroup"
  | option => "option" | textarea => "textarea" | output => "output" | progress => "progress"
  | meter => "meter" | fieldset => "fieldset" | legend => "legend" | details => "details"
  | summary => "summary" | dialog => "dialog" | canvas => "canvas" | acronym => "acronym"
  | big => "big" | tt => "tt"

/-- Every tag once, in table order. -/
def all : List Tag :=
  [html, head, body, title, base, link, metaTag, style, script, noscript, template,
   article, aside, nav, sectionTag, header, footer, main, address,
   h1, h2, h3, h4, h5, h6, hgroup,
   p, hr, pre, blockquote, ol, ul, menu, li, dl, dt, dd, figure, figcaption, div,
   a, em, strong, small, s, cite, q, dfn, abbr, ruby, rt, rp, data, time, code,
   var, samp, kbd, sub, sup, i, b, u, mark, bdi, bdo, span, br, wbr,
   ins, del,
   picture, source, img, iframe, embed, object, param, video, audio, track, map, area,
   table, caption, colgroup, col, tbody, thead, tfoot, tr, td, th,
   form, label, input, button, select, datalist, optgroup, option, textarea, output,
   progress, meter, fieldset, legend,
   details, summary, dialog, canvas,
   acronym, big, tt]

/-- The tag of a name, ignoring the case of ASCII letters. -/
def ofName? (name : String) : Option Tag :=
  let lower := Text.lowercase name
  all.find? (fun tag => tag.name.toList == lower)

/-- No tag is missing from the list of all tags. -/
theorem mem_all (tag : Tag) : tag ∈ all := by
  cases tag <;> decide

private theorem ctorIdx_lt (tag : Tag) : tag.ctorIdx < 128 := by
  cases tag <;> decide

/-- A tag's position is its place in the table. 117 tags fit into 128 positions, and
a tag is recovered from its place, so the places differ. -/
instance : Indexed Tag 128 where
  index tag := ⟨tag.ctorIdx, ctorIdx_lt tag⟩
  index_injective first second same := by
    have places : first.ctorIdx = second.ctorIdx := congrArg Fin.val same
    rw [← Tag.ofNat_ctorIdx first, ← Tag.ofNat_ctorIdx second, places]

end Tag

abbrev TagSet := BitSet Tag 128

/-- The members of a set of tags, in table order. -/
def TagSet.toList (tags : TagSet) : List Tag := Tag.all.filter tags.contains

end HtmlWriter
