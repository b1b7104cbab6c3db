import HtmlWriter.Doctype
import HtmlWriter.Tag

/-! Attributes that belong to particular elements or document types. -/

namespace HtmlWriter

/-- Where an attribute may be written: the elements that have it, or all of them, and
the document types that know it. -/
structure AttributeRule where
  name : String
  elements : Option (List Tag) := none
  support : Support := .all
deriving DecidableEq, Repr

namespace AttributeRule

def isFor (rule : AttributeRule) (element : Tag) : Bool :=
  match rule.elements with
  | some elements => elements.contains element
  | none => true

private def on (name : String) (elements : List Tag) : AttributeRule :=
  { name, elements := some elements }

private def onHtml5 (name : String) (elements : List Tag) : AttributeRule :=
  { name, elements := some elements, support := .html5Only }

private def sized : List Tag := [.canvas, .embed, .iframe, .img, .input, .object, .video]

def hidden : AttributeRule := { name := "hidden", support := .html5Only }
def data : AttributeRule := { name := "data-*", support := .html5Only }
def href : AttributeRule := on "href" [.a, .area, .base, .link]
def src : AttributeRule :=
  on "src" [.audio, .embed, .iframe, .img, .input, .script, .source, .track, .video]
def alt : AttributeRule := on "alt" [.area, .img, .input]
def controlName : AttributeRule :=
  on "name" [.a, .button, .fieldset, .form, .iframe, .input, .map, .metaTag, .object, .output,
    .param, .select, .textarea]
def value : AttributeRule :=
  on "value" [.button, .data, .input, .li, .meter, .option, .param, .progress]
def kind : AttributeRule :=
  on "type" [.a, .button, .embed, .input, .link, .object, .ol, .script, .source, .style]
def rel : AttributeRule := on "rel" [.a, .area, .link]
def target : AttributeRule :=
  { name := "target", elements := some [.a, .area, .base, .form], support := .notStrict }
def charset : AttributeRule := on "charset" [.metaTag, .script]
def content : AttributeRule := on "content" [.metaTag]
def httpEquiv : AttributeRule := on "http-equiv" [.metaTag]
def action : AttributeRule := on "action" [.form]
def method : AttributeRule := on "method" [.form]
def autocomplete : AttributeRule :=
  onHtml5 "autocomplete" [.form, .input, .select, .textarea]
def checked : AttributeRule := on "checked" [.input]
def selected : AttributeRule := on "selected" [.option]
def disabled : AttributeRule :=
  on "disabled" [.button, .fieldset, .input, .optgroup, .option, .select, .textarea]
def required : AttributeRule := onHtml5 "required" [.input, .select, .textarea]
def readonly : AttributeRule := on "readonly" [.input, .textarea]
def multiple : AttributeRule := on "multiple" [.input, .select]
def placeholder : AttributeRule := onHtml5 "placeholder" [.input, .textarea]
def width : AttributeRule := on "width" sized
def height : AttributeRule := on "height" sized
def colspan : AttributeRule := on "colspan" [.td, .th]
def rowspan : AttributeRule := on "rowspan" [.td, .th]
def labelled : AttributeRule := on "for" [.label, .output]
def download : AttributeRule := onHtml5 "download" [.a, .area]
def rows : AttributeRule := on "rows" [.textarea]
def cols : AttributeRule := on "cols" [.textarea]

end AttributeRule
end HtmlWriter
