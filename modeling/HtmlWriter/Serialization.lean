/-! The two syntaxes of markup. They differ in how a void element's start tag ends,
in how a boolean attribute is spelled, in which characters are escaped, and in whether
the text of scripts and style sheets is written raw. -/

namespace HtmlWriter

/-- The syntax markup is written in. -/
inductive Serialization
  | sgml
  | xml
deriving DecidableEq, Repr, Inhabited

namespace Serialization

def all : List Serialization := [sgml, xml]

/-- The word that names a syntax in parameters and reports. -/
def label : Serialization → String
  | sgml => "Sgml"
  | xml => "Xml"

/-- The text that ends the start tag of a void element. XML has no element without
an end, so there the tag closes itself. -/
def selfClose : Serialization → String
  | sgml => ">"
  | xml => "/>"

end Serialization
end HtmlWriter
