import HtmlWriter.Attribute.Keyword
import HtmlWriter.Attribute.Name
import HtmlWriter.Attribute.Rule

/-! Attributes as they are asked for, and what each puts into a start tag. All checks
but the one for repetition depend only on the element, the syntax and the document type,
so they are a function of these, and are made before a single character is written. -/

namespace HtmlWriter

/-- Attributes of every element that take any text. -/
inductive GlobalAttribute
  | cssClass
  | style
  | title
  | lang
deriving DecidableEq, Repr

def GlobalAttribute.name : GlobalAttribute → String
  | cssClass => "class"
  | style => "style"
  | title => "title"
  | lang => "lang"

/-- Attributes of particular elements that take any text. -/
inductive TextAttribute
  | href | src | alt | name | value | rel | target | content | httpEquiv | action
  | placeholder | download
deriving DecidableEq, Repr

/-- Where an attribute with a text may be written. -/
def TextAttribute.rule : TextAttribute → AttributeRule
  | href => .href
  | src => .src
  | alt => .alt
  | name => .controlName
  | value => .value
  | rel => .rel
  | target => .target
  | content => .content
  | httpEquiv => .httpEquiv
  | action => .action
  | placeholder => .placeholder
  | download => .download

inductive FlagAttribute
  | hidden | checked | selected | disabled | required | readonly | multiple
deriving DecidableEq, Repr

def FlagAttribute.rule : FlagAttribute → AttributeRule
  | hidden => .hidden
  | checked => .checked
  | selected => .selected
  | disabled => .disabled
  | required => .required
  | readonly => .readonly
  | multiple => .multiple

/-- Attributes that count or measure. -/
inductive NumberAttribute
  | width | height | colspan | rowspan | rows | cols
deriving DecidableEq, Repr

namespace NumberAttribute

/-- Where an attribute with a number may be written. -/
def rule : NumberAttribute → AttributeRule
  | width => .width
  | height => .height
  | colspan => .colspan
  | rowspan => .rowspan
  | rows => .rows
  | cols => .cols

/-- Whether the number counts something of which there is at least one. A row span of
zero is meaningful: the cell reaches to the end of its section. -/
def atLeastOne : NumberAttribute → Bool
  | colspan | rows | cols => true
  | width | height | rowspan => false

end NumberAttribute

/-- An attribute asked for on a start tag. Keywords are given as text, and are read
when the attribute is written. -/
inductive Attribute
  /-- Any attribute; only its name is checked. -/
  | custom (name value : String)
  /-- Any attribute, if there is a value for it. -/
  | customOption (name : String) (value : Option String)
  | customFlag (name : String) (on : Bool)
  | id (value : String)
  | global (which : GlobalAttribute) (value : String)
  | dir (keyword : String)
  | tabindex (index : Int32)
  /-- A custom data attribute, `data-` and the name. -/
  | data (name value : String)
  /-- A handler, `on` and the event. -/
  | handler (event script : String)
  | text (which : TextAttribute) (value : String)
  | flag (which : FlagAttribute) (on : Bool)
  | number (which : NumberAttribute) (value : UInt32)
  /-- The type of something; on an `input` element it has to be a keyword. -/
  | type (value : String)
  | inputType (keyword : String)
  | charset (value : String)
  | method (keyword : String)
  | autocomplete (keyword : String)
  /-- The element that a label or output is for. -/
  | labelled (target : String)
deriving DecidableEq, Repr

/-- What a permitted attribute puts into the start tag. -/
inductive Emission
  /-- Nothing: a flag that is off, or a value that is absent. -/
  | nothing
  | valued (name value : String)
  | flag (name : String)
deriving DecidableEq, Repr

/-- What a check may depend on: the element of the start tag, and the syntax and type
of the document. -/
structure TagContext where
  element : Tag
  serialization : Serialization
  doctype : Doctype
deriving DecidableEq, Repr

namespace TagContext

/-- An attribute has to belong to the element, and then to the document type. -/
def checkRule (context : TagContext) (rule : AttributeRule) : Except Error Unit :=
  if !rule.isFor context.element then
    .error (.attributeNotAllowed rule.name context.element)
  else if !rule.support.allows context.doctype then
    .error (.unsupportedAttribute rule.name none context.element context.doctype)
  else
    .ok ()

/-- A keyword has to be known to the document type. -/
def checkKeyword (context : TagContext) {κ : Type} [Keyword κ] (keyword : κ) :
    Except Error Unit :=
  if (Keyword.support keyword).allows context.doctype then
    .ok ()
  else
    .error (.unsupportedAttribute (Keyword.attributeName κ) (some (Keyword.word keyword))
      context.element context.doctype)

/-- A name has to be one that can be written. -/
def checkName (context : TagContext) (name : String) : Except Error Unit :=
  if AttributeName.isValid context.serialization name then .ok ()
  else .error (.invalidAttributeName name)

/-- The value of an attribute, once the attribute itself is permitted. -/
def permitted (context : TagContext) (rule : AttributeRule) (value : String) :
    Except Error Emission := do
  context.checkRule rule
  return .valued rule.name value

end TagContext

def checkIdentifier (id : String) : Except Error Unit :=
  if AttributeName.isIdentifier id then .ok ()
  else .error (.invalidAttributeValue "id" id .notIdentifier)

private def inputTypeEmission (context : TagContext) (value : String) :
    Except Error Emission := do
  let keyword ← Keyword.parse InputType value
  if context.element != .input then
    throw (.attributeNotAllowed "type" context.element)
  context.checkKeyword keyword
  context.permitted .kind (Keyword.word keyword)

/-- What an attribute puts into a start tag, or why it is refused. Where several things
are wrong, the value comes before the element and the element before the document
type, except that a keyword is judged against the document type at once. -/
def Attribute.emission (context : TagContext) : Attribute → Except Error Emission
  | custom name value => do
      context.checkName name
      return .valued name value
  | customOption name value => do
      context.checkName name
      return match value with
        | some value => .valued name value
        | none => .nothing
  | customFlag name on => do
      context.checkName name
      return if on then .flag name else .nothing
  | .id value => do
      checkIdentifier value
      return .valued "id" value
  | global which value => return .valued which.name value
  | dir keyword => do
      let keyword ← Keyword.parse Direction keyword
      context.checkKeyword keyword
      return .valued "dir" (Keyword.word keyword)
  | tabindex index => return .valued "tabindex" (toString index.toInt)
  | data name value => do
      context.checkRule .data
      if !AttributeName.isValidData name then
        throw (.invalidAttributeName ("data-" ++ name))
      return .valued ("data-" ++ name) value
  | handler event script => do
      if !AttributeName.isValidEvent event then
        throw (.invalidAttributeName ("on" ++ event))
      return .valued ("on" ++ event) script
  | text which value => context.permitted which.rule value
  | flag which on => do
      context.checkRule which.rule
      return if on then .flag which.rule.name else .nothing
  | number which value => do
      if which.atLeastOne && value == 0 then
        throw (.invalidAttributeValue which.rule.name (toString value.toNat) .belowOne)
      context.permitted which.rule (toString value.toNat)
  | type value =>
      if context.element == .input then inputTypeEmission context value
      else context.permitted .kind value
  | inputType keyword => inputTypeEmission context keyword
  | charset value => do
      if context.element == .metaTag && !Support.html5Only.allows context.doctype then
        throw (.unsupportedAttribute "charset" none context.element context.doctype)
      context.permitted .charset value
  | method keyword => do
      let keyword ← Keyword.parse Method keyword
      context.checkKeyword keyword
      context.permitted .method (Keyword.word keyword)
  | autocomplete keyword => do
      let keyword ← Keyword.parse Autocomplete keyword
      if context.element == .form && !keyword.isToggle then
        throw (.invalidAttributeValue "autocomplete" (Keyword.word keyword) .notToggle)
      context.permitted .autocomplete (Keyword.word keyword)
  | labelled target => do
      checkIdentifier target
      context.permitted .labelled target

end HtmlWriter
