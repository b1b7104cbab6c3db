import HtmlWriter.Serialization
import HtmlWriter.Text.Ascii

/-! Which names may be written into a start tag, and which values identify an element.
A name is refused where a reader of the tag would end it early or read on past it. -/

namespace HtmlWriter.AttributeName

/-- The characters of attribute names: all but blanks, controls, and the marks that
delimit names and values. -/
def continues (c : Char) : Bool :=
  !(Text.isBlank c || Text.isControl c || ['"', '\'', '>', '<', '/', '=', '&'].contains c)

/-- The characters a name begins with. XML gives digits, the hyphen and the full stop no
place there. -/
def begins (serialization : Serialization) (c : Char) : Bool :=
  match serialization with
  | .sgml => continues c
  | .xml => continues c && !c.isDigit && c != '-' && c != '.'

/-- Whether an attribute of this name can be written. -/
def isValid (serialization : Serialization) (name : String) : Bool :=
  match name.toList with
  | [] => false
  | first :: rest => begins serialization first && rest.all continues

/-- Names beginning so, in any case, are reserved for XML itself. -/
def isReserved (name : String) : Bool := "xml".toList.isPrefixOf (Text.lowercase name)

/-- Whether this can follow `data-` in the name of a custom attribute. -/
def isValidData (name : String) : Bool :=
  !name.isEmpty && name.toList.all (fun c => continues c && !c.isUpper && c != ':') &&
    !isReserved name

/-- Whether this can follow `on` in the name of a handler: ASCII letters in lower case. -/
def isValidEvent (event : String) : Bool := !event.isEmpty && event.toList.all Char.isLower

def isIdentifier (id : String) : Bool :=
  !id.isEmpty && id.toList.all (fun c => !Text.isBlank c)

end HtmlWriter.AttributeName
