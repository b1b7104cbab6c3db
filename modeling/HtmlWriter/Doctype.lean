import HtmlWriter.Serialization

/-! Document types, and which of them an element or attribute exists in. Without a
document type nothing is declared and nothing is refused. -/

namespace HtmlWriter

/-- The document type a document is written for. `absent` declares none, and so
accepts what any of them knows. -/
inductive Doctype
  | html5
  | strict
  | transitional
  | frameset
  | absent
deriving DecidableEq, Repr, Inhabited

namespace Doctype

def all : List Doctype := [html5, strict, transitional, frameset, absent]

/-- The word that names a document type in parameters and reports. -/
def label : Doctype → String
  | html5 => "Html5"
  | strict => "Strict"
  | transitional => "Transitional"
  | frameset => "Frameset"
  | absent => "None"

def description : Doctype → String
  | html5 => "HTML 5"
  | strict => "HTML 4.01 Strict"
  | transitional => "HTML 4.01 Transitional"
  | frameset => "HTML 4.01 Frameset"
  | absent => "no doctype"

/-- Whether this is one of the HTML 4.01 and XHTML 1.0 types. -/
def isHtml4 : Doctype → Bool
  | strict | transitional | frameset => true
  | html5 | absent => false

/-- A declaration by public and system identifier. The root element's name is written
in the case that its syntax uses. -/
private def publicDeclaration (root identifier address : String) : String :=
  "<!DOCTYPE " ++ root ++ " PUBLIC \"" ++ identifier ++ "\" \"" ++ address ++ "\">"

/-- The declaration that opens a document of this type. The older types have one for
HTML 4.01 and one for XHTML 1.0; HTML 5 has the same for both syntaxes. -/
def declaration : Doctype → Serialization → Option String
  | html5, _ => some "<!DOCTYPE html>"
  | strict, .sgml => some <|
      publicDeclaration "HTML" "-//W3C//DTD HTML 4.01//EN"
        "http://www.w3.org/TR/html4/strict.dtd"
  | strict, .xml => some <|
      publicDeclaration "html" "-//W3C//DTD XHTML 1.0 Strict//EN"
        "http://www.w3.org/TR/xhtml1/DTD/xhtml1-strict.dtd"
  | transitional, .sgml => some <|
      publicDeclaration "HTML" "-//W3C//DTD HTML 4.01 Transitional//EN"
        "http://www.w3.org/TR/html4/loose.dtd"
  | transitional, .xml => some <|
      publicDeclaration "html" "-//W3C//DTD XHTML 1.0 Transitional//EN"
        "http://www.w3.org/TR/xhtml1/DTD/xhtml1-transitional.dtd"
  | frameset, .sgml => some <|
      publicDeclaration "HTML" "-//W3C//DTD HTML 4.01 Frameset//EN"
        "http://www.w3.org/TR/html4/frameset.dtd"
  | frameset, .xml => some <|
      publicDeclaration "html" "-//W3C//DTD XHTML 1.0 Frameset//EN"
        "http://www.w3.org/TR/xhtml1/DTD/xhtml1-frameset.dtd"
  | absent, _ => none

end Doctype

/-- The document types that an element, an attribute or an attribute's value exists
in. -/
inductive Support
  | all
  | html5Only
  | html4Only
  | notStrict
deriving DecidableEq, Repr, Inhabited

/-- Whether a document of this type may use it. Where no type is declared there is
nothing to violate. -/
def Support.allows : Support → Doctype → Bool
  | _, .absent => true
  | .all, _ => true
  | .html5Only, doctype => doctype == .html5
  | .html4Only, doctype => doctype.isHtml4
  | .notStrict, doctype => doctype != .strict

end HtmlWriter
