/-! Character classes of markup. Apart from control characters they are about ASCII
alone, so no letter outside it is ever folded into another and no wide space counts
as a blank. -/

namespace HtmlWriter.Text

/-- The blanks that separate words in a start tag: space, tab, line feed, form feed,
carriage return. -/
def isBlank (c : Char) : Bool := c == ' ' || c == '\t' || c == '\n' || c == '\x0c' || c == '\r'

/-- Control characters: those below the space, and the ones from delete to U+009F. -/
def isControl (c : Char) : Bool := c.toNat < 0x20 || (0x7f ≤ c.toNat && c.toNat < 0xa0)

/-- The characters of a text, with ASCII letters in lower case. -/
def lowercase (text : String) : List Char := text.toList.map Char.toLower

def toLowercase (text : String) : String := String.ofList (lowercase text)

end HtmlWriter.Text
