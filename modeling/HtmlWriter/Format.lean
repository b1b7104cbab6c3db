import HtmlWriter.Element
import HtmlWriter.Parameters

/-! Formatting state: whether newlines and indentation are automatic, how deep the
output is nested, and whether it is at the start of a line. The state only decides;
writing is the document's part, which tells it of every text that was written. -/

namespace HtmlWriter

/-- The part of the formatting state that a body may change and its end puts back. Depth
is a machine word. -/
structure FormatSettings where
  autoNewline : Bool
  indent : Bool
  depth : UInt64
deriving DecidableEq, Repr, Inhabited

structure Format extends FormatSettings where
  /-- Whether the last character written was a newline, or nothing was written yet. -/
  atNewline : Bool
deriving DecidableEq, Repr, Inhabited

namespace FormatSettings

def largestDepth : UInt64 := 18446744073709551615

/-- Whether there is a depth beyond the current one. -/
def canDeepen (settings : FormatSettings) : Bool := settings.depth != largestDepth

/-- One level deeper, where that is a depth. -/
def deeper (settings : FormatSettings) : FormatSettings :=
  { settings with depth := if settings.canDeepen then settings.depth + 1 else settings.depth }

/-- One level less deep, down to zero. -/
def shallower (settings : FormatSettings) : FormatSettings :=
  { settings with depth := if settings.depth = 0 then 0 else settings.depth - 1 }

/-- The settings inside a body of this layout. Nothing is formatted in a verbatim one,
and depth is counted anew there. -/
def within (settings : FormatSettings) : Layout → FormatSettings
  | .block => settings.deeper
  | .verbatim => ⟨false, false, 0⟩
  | .root | .inline | .lineBreak => settings

/-- Whether a body of this layout can be entered. -/
def canEnter (settings : FormatSettings) : Layout → Bool
  | .block => settings.canDeepen
  | .verbatim | .root | .inline | .lineBreak => true

end FormatSettings

namespace Format

/-- The unit of indentation, written once for each level of depth. -/
def indentUnit : Char := '\t'

/-- The state before anything is written, which counts as the start of a line. -/
def initial (parameters : Parameters) : Format where
  autoNewline := parameters.autoNewline
  indent := parameters.indent
  depth := 0
  atNewline := true

/-- The state after a text was written. An empty text changes nothing. -/
def after (format : Format) (written : String) : Format :=
  match written.toList.getLast? with
  | some last => { format with atNewline := last == '\n' }
  | none => format

/-- The state with other settings. Whether the output is at the start of a line is a
fact about what was written, so it stays. -/
def set (format : Format) (settings : FormatSettings) : Format :=
  { format with toFormatSettings := settings }

/-- Whether the line has to be broken before something that starts one. -/
def wantsBreak (format : Format) : Bool := format.autoNewline && !format.atNewline

/-- Whether a new line is indented without asking. -/
def wantsIndent (format : Format) : Bool := format.autoNewline && format.indent

/-- How many units of indentation a line has at an offset from the current depth. It
stays within the range of depths. -/
def indentation (format : Format) (offset : Int64) : Nat :=
  min (Int.ofNat format.depth.toNat + offset.toInt).toNat (UInt64.size - 1)

end Format
end HtmlWriter
