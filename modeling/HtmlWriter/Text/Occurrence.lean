/-! Searching a run of characters for another. The main statement is that the search
finds what it looks for exactly when it is there. -/

namespace HtmlWriter.Text

/-- Whether `pattern` stands somewhere in the characters without a gap. -/
def occursIn (pattern : List Char) : List Char → Bool
  | [] => pattern.isEmpty
  | c :: rest => pattern.isPrefixOf (c :: rest) || occursIn pattern rest

/-- The search is exact: it succeeds when the characters split around the pattern. -/
theorem occursIn_iff_infix (pattern text : List Char) :
    occursIn pattern text = true ↔ pattern <:+: text := by
  induction text with
  | nil => simp [occursIn]
  | cons c rest ih => simp [occursIn, ih, List.infix_cons_iff]

end HtmlWriter.Text
