import HtmlWriter.Doctype

/-! The parameters of a document, and how they are read from named settings. -/

namespace HtmlWriter

structure Parameters where
  serialization : Serialization := .sgml
  doctype : Doctype := .html5
  /-- Put newlines around elements that stand on their own lines. -/
  autoNewline : Bool := false
  /-- Indent after automatic newlines. -/
  indent : Bool := false
deriving DecidableEq, Repr, Inhabited

inductive Setting
  | text (text : String)
  | switch (on : Bool)
  /-- A value of a kind that no parameter has. -/
  | other
deriving DecidableEq, Repr

namespace Parameters

def pretty : Parameters := { autoNewline := true, indent := true }

def xhtml (doctype : Doctype) : Parameters := { serialization := .xml, doctype }

/-- Change the parameter that a setting names. A name that no parameter has is ignored;
a value that the parameter cannot have is an error. -/
def set? (parameters : Parameters) (name : String) (setting : Setting) : Option Parameters :=
  match name, setting with
  | "serialization", .text word =>
      (Serialization.all.find? (fun serialization => serialization.label == word)).map
        (fun serialization => { parameters with serialization })
  | "doctype", .text word =>
      (Doctype.all.find? (fun doctype => doctype.label == word)).map
        (fun doctype => { parameters with doctype })
  | "auto_newline", .switch on => some { parameters with autoNewline := on }
  | "indent", .switch on => some { parameters with indent := on }
  | name, _ =>
      if ["serialization", "doctype", "auto_newline", "indent"].contains name then none
      else some parameters

/-- Read parameters from settings, starting from the defaults. -/
def ofSettings? (settings : List (String × Setting)) : Option Parameters :=
  settings.foldlM (fun parameters entry => parameters.set? entry.1 entry.2) {}

end Parameters
end HtmlWriter
