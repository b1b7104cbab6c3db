import HtmlWriter.Text.Extending
import HtmlWriter.Text.Ignorable
import HtmlWriter.Text.Unprintable

/-! Quoting text for messages. A reader of a message sees every character: what has no
mark of its own is written as an escape, all other characters as they are. -/

namespace HtmlWriter.Text

/-- The voiced and the semi-voiced sound mark in their halfwidth forms. They extend the
character before them, but are printed after it in a place of their own. -/
def isHalfwidthSoundMark (c : Char) : Bool := c.toNat == 0xff9e || c.toNat == 0xff9f

/-- Whether a character leaves a mark of its own, so that it may stand for itself. The
plain space may too, since it is seen between marks. -/
def isMarked (c : Char) : Bool :=
  c == ' ' || isHalfwidthSoundMark c ||
    !(unprintable.contains c.toNat || ignorable.contains c.toNat || extending.contains c.toNat)

def hexadecimal (n : Nat) : String := String.ofList (Nat.toDigits 16 n)

/-- How one character stands between quotes. -/
def quoteChar (c : Char) : String :=
  match c with
  | '"' => "\\\""
  | '\\' => "\\\\"
  | '\n' => "\\n"
  | '\r' => "\\r"
  | '\t' => "\\t"
  | '\x00' => "\\0"
  | c => if isMarked c then c.toString else "\\u\x7b" ++ hexadecimal c.toNat ++ "\x7d"

def quote (text : String) : String := "\"" ++ String.join (text.toList.map quoteChar) ++ "\""

end HtmlWriter.Text
