/-! Cutting a text at a byte. A cut may come to fall within a character; then it moves on until it
stands between two. -/

namespace HtmlWriter.Text

/-- How many bytes characters have in UTF-8. -/
def byteLength : List Char → Nat
  | [] => 0
  | c :: rest => c.utf8Size + byteLength rest

/-- Whether a character begins at a byte, or the text ends there. -/
def isBoundary : List Char → Nat → Bool
  | _, 0 => true
  | [], _ + 1 => false
  | c :: rest, offset + 1 =>
      c.utf8Size ≤ offset + 1 && isBoundary rest (offset + 1 - c.utf8Size)

/-- What stands behind a boundary. -/
def behind : List Char → Nat → List Char
  | chars, 0 => chars
  | [], _ + 1 => []
  | c :: rest, offset + 1 => behind rest (offset + 1 - c.utf8Size)

/-- The last bytes of a text, at most so many: the cut stands so many bytes before the end, or at
the beginning of a shorter text, and moves on byte by byte to the next boundary. -/
def lastBytes : Nat → List Char → List Char
  | 0, _ => []
  | count + 1, chars =>
      let cut := byteLength chars - (count + 1)
      if isBoundary chars cut then behind chars cut else lastBytes count chars

end HtmlWriter.Text
