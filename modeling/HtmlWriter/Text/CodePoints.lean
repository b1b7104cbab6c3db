/-! Sets of characters as ranges of code points. A range goes from its first code point
to its last. The ranges of a set ascend and do not touch, so a set has one such list, and
a search can end at the first range that begins beyond what is looked for. -/

namespace HtmlWriter.Text

/-- Whether ranges ascend from a bound on, with a gap between any two. -/
def ascending (bound : Nat) : List (Nat × Nat) → Bool
  | [] => true
  | (first, last) :: rest => bound ≤ first && first ≤ last && ascending (last + 2) rest

/-- A set of code points. -/
structure CodePoints where
  ranges : List (Nat × Nat)
  ranges_ascending : ascending 0 ranges = true := by decide +kernel

/-- Search ranges that ascend for a code point. -/
def isWithin (n : Nat) : List (Nat × Nat) → Bool
  | [] => false
  | (first, last) :: rest => first ≤ n && (n ≤ last || isWithin n rest)

def CodePoints.contains (set : CodePoints) (n : Nat) : Bool := isWithin n set.ranges

/-- Ranges that ascend from a bound on have nothing before it. -/
private theorem le_of_ascending {bound : Nat} {ranges : List (Nat × Nat)}
    (order : ascending bound ranges = true) {range : Nat × Nat} (inside : range ∈ ranges) :
    bound ≤ range.1 := by
  induction ranges generalizing bound with
  | nil => simp at inside
  | cons head rest ih =>
    simp only [ascending, Bool.and_eq_true, decide_eq_true_eq] at order
    rcases List.mem_cons.1 inside with rfl | inside
    · exact order.1.1
    · have := ih order.2 inside
      omega

/-- Nothing is missed by the search that ends early. -/
theorem isWithin_iff {bound n : Nat} {ranges : List (Nat × Nat)}
    (order : ascending bound ranges = true) :
    isWithin n ranges = true ↔ ∃ range ∈ ranges, range.1 ≤ n ∧ n ≤ range.2 := by
  induction ranges generalizing bound with
  | nil => simp [isWithin]
  | cons head rest ih =>
    simp only [ascending, Bool.and_eq_true, decide_eq_true_eq] at order
    simp only [isWithin, Bool.and_eq_true, Bool.or_eq_true, decide_eq_true_eq, ih order.2,
      List.mem_cons, exists_eq_or_imp]
    constructor
    · rintro ⟨begun, ended | found⟩
      · exact .inl ⟨begun, ended⟩
      · exact .inr found
    · rintro (⟨begun, ended⟩ | ⟨range, inside, begun, ended⟩)
      · exact ⟨begun, .inl ended⟩
      · have := le_of_ascending order.2 inside
        exact ⟨by omega, .inr ⟨range, inside, begun, ended⟩⟩

/-- A set has the code points of its ranges, and no others. -/
theorem CodePoints.contains_iff {set : CodePoints} {n : Nat} :
    set.contains n = true ↔ ∃ range ∈ set.ranges, range.1 ≤ n ∧ n ≤ range.2 :=
  isWithin_iff set.ranges_ascending

end HtmlWriter.Text
