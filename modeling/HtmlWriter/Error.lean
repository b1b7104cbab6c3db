import HtmlWriter.Doctype
import HtmlWriter.Tag
import HtmlWriter.Text.Quoted

/-! Why writing fails. Each cause carries the elements and names it is about; its
wording is in one place, `Error.message`. -/

namespace HtmlWriter

inductive Child
  | element (tag : Tag)
  | text
deriving DecidableEq, Repr

def Child.name : Child → String
  | element tag => tag.name
  | text => "#text"

/-- How messages speak of the element around a place, if there is one. -/
def parentName : Option Tag → String
  | some tag => tag.name
  | none => "#document"

/-- What was attempted while a start tag was unfinished. -/
inductive Attempt
  | element (tag : Tag)
  | text
  | newline
  | indentation
  | space
  | rawMarkup
  | comment
  | xmlDeclaration
  | doctype
  | endTag
  | endOfDocument
deriving DecidableEq, Repr

def Attempt.phrase : Attempt → String
  | element tag => tag.name
  | text => "text"
  | newline => "a newline"
  | indentation => "indentation"
  | space => "a space"
  | rawMarkup => "raw markup"
  | comment => "a comment"
  | xmlDeclaration => "the XML declaration"
  | doctype => "the doctype"
  | endTag => "an end tag"
  | endOfDocument => "the end of the document"

/-- What an attribute's value violates. -/
inductive ValueFault
  | notKeyword
  /-- It counts something of which there is at least one. -/
  | belowOne
  /-- It is to identify an element. -/
  | notIdentifier
  /-- It is to switch something on or off. -/
  | notToggle
deriving DecidableEq, Repr

/-- The explanation of a fault in a value of the attribute of this name. -/
def ValueFault.reason (name : String) : ValueFault → String
  | notKeyword => "not a " ++ name ++ " keyword"
  | belowOne => "must be at least 1"
  | notIdentifier => "must be non-empty and contain no whitespace"
  | notToggle => "a form only accepts \"on\" or \"off\""

inductive SinkFault
  | full
  /-- It took nothing, and so would never take the rest. -/
  | wroteNothing
  /-- It could not pass on what it had taken. -/
  | flushFailed
  /-- Any other failure, told in its own words. -/
  | other (message : String)
deriving DecidableEq, Repr

def SinkFault.message : SinkFault → String
  | full => "full"
  | wroteNothing => "write zero"
  | flushFailed => "flush failed"
  | other message => message

inductive Error
  /-- The content model in effect does not accept the child. -/
  | illegalNesting (parent : Option Tag) (child : Child)
  /-- An enclosing element forbids the child at any depth. -/
  | forbiddenDescendant (ancestor child : Tag)
  | unsupportedElement (element : Tag) (doctype : Doctype)
  /-- The document type does not know the attribute, or this value of it. -/
  | unsupportedAttribute (name : String) (value : Option String) (element : Tag)
      (doctype : Doctype)
  | attributeNotAllowed (name : String) (element : Tag)
  | invalidAttributeValue (name value : String) (fault : ValueFault)
  /-- The name cannot be written into a start tag. -/
  | invalidAttributeName (name : String)
  /-- The start tag has the attribute already. -/
  | duplicateAttribute (name : String) (element : Tag)
  /-- A start tag is still waiting for its attributes to end. -/
  | tagInProgress (pending : Tag) (attempted : Attempt)
  /-- Raw text would end its element early. -/
  | invalidRawText (element : Tag)
  | voidElement (element : Tag)
  /-- The comment would end early, or run on. -/
  | invalidComment (comment : String)
  | sinkDetached
  | sink (fault : SinkFault)
deriving DecidableEq, Repr

namespace Error

/-- What a rejected attribute is called in messages: its name, with the value where
only the value is at fault. -/
def attributeText (name : String) : Option String → String
  | none => name
  | some value => name ++ "=\"" ++ value ++ "\""

def message : Error → String
  | illegalNesting parent child =>
      "<" ++ child.name ++ "> is not allowed inside <" ++ parentName parent ++ ">"
  | forbiddenDescendant ancestor child =>
      "<" ++ child.name ++ "> may not appear anywhere inside <" ++ ancestor.name ++ ">"
  | unsupportedElement element doctype =>
      "<" ++ element.name ++ "> is not supported in " ++ doctype.description
  | unsupportedAttribute name value element doctype =>
      "attribute " ++ attributeText name value ++ " on <" ++ element.name ++
        "> is not supported in " ++ doctype.description
  | attributeNotAllowed name element =>
      "attribute " ++ name ++ " is not allowed on <" ++ element.name ++ ">"
  | invalidAttributeValue name value fault =>
      "invalid value " ++ Text.quote value ++ " for attribute " ++ name ++ ": " ++
        fault.reason name
  | invalidAttributeName name => "invalid attribute name " ++ Text.quote name
  | duplicateAttribute name element =>
      "duplicate attribute " ++ name ++ " on <" ++ element.name ++ ">"
  | tagInProgress pending attempted =>
      "cannot write " ++ attempted.phrase ++ " while the start tag <" ++ pending.name ++
        "> is unfinished"
  | invalidRawText element =>
      "raw text of <" ++ element.name ++ "> must not contain \"</" ++ element.name ++ "\""
  | voidElement element =>
      "<" ++ element.name ++ "> is a void element and cannot have content"
  | invalidComment comment =>
      "comment text would not survive serialization: " ++ Text.quote comment
  | sinkDetached => "the output sink has been detached"
  | sink fault => fault.message

end Error
end HtmlWriter
