import HtmlWriter.Error
import HtmlWriter.Text.Ascii

/-! Enumerated attributes: those whose value is one of a list of keywords. Keywords are
read ignoring the case of ASCII letters and written in lower case. -/

namespace HtmlWriter

/-- The keywords of an enumerated attribute. -/
class Keyword (κ : Type) where
  attributeName : String
  /-- Every keyword, in the order they are tried. -/
  all : List κ
  word : κ → String
  support : κ → Support

namespace Keyword

/-- Read a keyword. The error carries the value as it was given. -/
def parse (κ : Type) [Keyword κ] (value : String) : Except Error κ :=
  let lower := Text.lowercase value
  match (all : List κ).find? (fun keyword => (word keyword).toList == lower) with
  | some keyword => .ok keyword
  | none => .error (.invalidAttributeValue (attributeName κ) value .notKeyword)

end Keyword

inductive Direction
  | ltr
  | rtl
  /-- Decided by the content. -/
  | auto
deriving DecidableEq, Repr

instance : Keyword Direction where
  attributeName := "dir"
  all := [.ltr, .rtl, .auto]
  word
    | .ltr => "ltr"
    | .rtl => "rtl"
    | .auto => "auto"
  support
    | .ltr | .rtl => .all
    | .auto => .html5Only

inductive Method
  | get
  | post
  /-- Closes the dialog around the form. -/
  | dialog
deriving DecidableEq, Repr

instance : Keyword Method where
  attributeName := "method"
  all := [.get, .post, .dialog]
  word
    | .get => "get"
    | .post => "post"
    | .dialog => "dialog"
  support
    | .get | .post => .all
    | .dialog => .html5Only

/-- The kind of control that an `input` element is. -/
inductive InputType
  | button | checkbox | color | date | datetimeLocal | email | file | hidden | image | month
  | number | password | radio | range | reset | search | submit | tel | text | time | url | week
deriving DecidableEq, Repr

instance : Keyword InputType where
  attributeName := "type"
  all := [.button, .checkbox, .color, .date, .datetimeLocal, .email, .file, .hidden, .image,
    .month, .number, .password, .radio, .range, .reset, .search, .submit, .tel, .text, .time,
    .url, .week]
  word
    | .button => "button"
    | .checkbox => "checkbox"
    | .color => "color"
    | .date => "date"
    | .datetimeLocal => "datetime-local"
    | .email => "email"
    | .file => "file"
    | .hidden => "hidden"
    | .image => "image"
    | .month => "month"
    | .number => "number"
    | .password => "password"
    | .radio => "radio"
    | .range => "range"
    | .reset => "reset"
    | .search => "search"
    | .submit => "submit"
    | .tel => "tel"
    | .text => "text"
    | .time => "time"
    | .url => "url"
    | .week => "week"
  support
    | .button | .checkbox | .file | .hidden | .image | .password | .radio | .reset | .submit
    | .text => .all
    | .color | .date | .datetimeLocal | .email | .month | .number | .range | .search | .tel
    | .time | .url | .week => .html5Only

inductive Autocomplete
  | on | off | name | email | username | newPassword | currentPassword | oneTimeCode
  | organization | streetAddress | postalCode | country | tel | url
deriving DecidableEq, Repr

instance : Keyword Autocomplete where
  attributeName := "autocomplete"
  all := [.on, .off, .name, .email, .username, .newPassword, .currentPassword, .oneTimeCode,
    .organization, .streetAddress, .postalCode, .country, .tel, .url]
  word
    | .on => "on"
    | .off => "off"
    | .name => "name"
    | .email => "email"
    | .username => "username"
    | .newPassword => "new-password"
    | .currentPassword => "current-password"
    | .oneTimeCode => "one-time-code"
    | .organization => "organization"
    | .streetAddress => "street-address"
    | .postalCode => "postal-code"
    | .country => "country"
    | .tel => "tel"
    | .url => "url"
  support _ := .all

/-- Whether the hint only switches filling in on or off, which is all a form can say. -/
def Autocomplete.isToggle : Autocomplete → Bool
  | .on | .off => true
  | _ => false

end HtmlWriter
