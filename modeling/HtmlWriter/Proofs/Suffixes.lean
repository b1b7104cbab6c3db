import HtmlWriter.Text.Cut
import HtmlWriter.Text.Occurrence

/-! Searching a text that arrives in runs. A pattern that straddles two runs lies in the second and
the end of the first that has a byte less than the pattern, so no more than that end has to be
remembered. That the end is cut at a byte makes no difference: a character that is cut through is
longer than what is left of the pattern. -/

namespace HtmlWriter.Text
variable {count : Nat} {chars ending : List Char}

@[simp] private theorem byteLength_nil : byteLength [] = 0 := rfl

@[simp] private theorem byteLength_cons (c : Char) (rest : List Char) :
    byteLength (c :: rest) = c.utf8Size + byteLength rest := rfl

@[simp] private theorem byteLength_append (first second : List Char) :
    byteLength (first ++ second) = byteLength first + byteLength second := by
  induction first with
  | nil => exact (Nat.zero_add _).symm
  | cons c rest ih => rw [List.cons_append, byteLength_cons, byteLength_cons, ih, Nat.add_assoc]

private theorem eq_nil_of_byteLength_eq_zero (empty : byteLength chars = 0) : chars = [] := by
  cases chars with
  | nil => rfl
  | cons c rest =>
    have positive := c.utf8Size_pos
    rw [byteLength_cons] at empty
    omega

private theorem isBoundary_iff {offset : Nat} :
    isBoundary chars offset = true ↔
      ∃ before after, before ++ after = chars ∧ byteLength before = offset := by
  induction chars generalizing offset with
  | nil =>
    cases offset with
    | zero => simp [isBoundary]
    | succ offset =>
      simp only [isBoundary, Bool.false_eq_true, false_iff]
      rintro ⟨before, after, split, length⟩
      obtain ⟨rfl, rfl⟩ := List.append_eq_nil_iff.mp split
      cases length
  | cons c rest ih =>
    cases offset with
    | zero => exact iff_of_true rfl ⟨[], c :: rest, rfl, rfl⟩
    | succ offset =>
      rw [isBoundary, Bool.and_eq_true, decide_eq_true_eq, ih]
      constructor
      · rintro ⟨fits, before, after, rfl, length⟩
        refine ⟨c :: before, after, rfl, ?_⟩
        rw [byteLength_cons]
        omega
      · rintro ⟨_ | ⟨d, before⟩, after, split, length⟩
        · cases length
        · obtain ⟨rfl, rfl⟩ := List.cons_eq_cons.mp split
          rw [byteLength_cons] at length
          exact ⟨by omega, before, after, rfl, by omega⟩

private theorem behind_append (before after : List Char) :
    behind (before ++ after) (byteLength before) = after := by
  induction before with
  | nil => cases after <;> rfl
  | cons c rest ih =>
    have positive := c.utf8Size_pos
    obtain ⟨offset, length⟩ : ∃ offset, byteLength (c :: rest) = offset + 1 :=
      Nat.exists_eq_succ_of_ne_zero (by rw [byteLength_cons]; omega)
    have left : byteLength (c :: rest) - c.utf8Size = byteLength rest := by
      rw [byteLength_cons, Nat.add_sub_cancel_left]
    rw [length] at left ⊢
    rw [List.cons_append, behind, left, ih]

theorem lastBytes_suffix (count : Nat) (chars : List Char) : lastBytes count chars <:+ chars := by
  induction count with
  | zero => exact List.nil_suffix
  | succ count ih =>
    rw [lastBytes]
    split
    next boundary =>
      obtain ⟨before, after, rfl, length⟩ := isBoundary_iff.mp boundary
      rw [← length, behind_append]
      exact List.suffix_append before after
    next => exact ih

@[simp] theorem lastBytes_nil (count : Nat) : lastBytes count [] = [] :=
  List.suffix_nil.mp (lastBytes_suffix count [])

theorem byteLength_lastBytes_le (count : Nat) (chars : List Char) :
    byteLength (lastBytes count chars) ≤ count := by
  induction count with
  | zero => exact Nat.le_refl 0
  | succ count ih =>
    rw [lastBytes]
    split
    next boundary =>
      obtain ⟨before, after, rfl, length⟩ := isBoundary_iff.mp boundary
      rw [← length, behind_append]
      rw [byteLength_append] at length
      omega
    next => exact Nat.le_succ_of_le ih

/-- No more characters would fit. -/
theorem suffix_lastBytes_of_le (suffix : ending <:+ chars) (fits : byteLength ending ≤ count) :
    ending <:+ lastBytes count chars := by
  induction count with
  | zero =>
    rw [eq_nil_of_byteLength_eq_zero (Nat.le_zero.mp fits)]
    exact List.nil_suffix
  | succ count ih =>
    obtain ⟨front, split⟩ := suffix
    have total := byteLength_append front ending
    rw [split] at total
    rw [lastBytes]
    split
    next boundary =>
      obtain ⟨before, after, same, length⟩ := isBoundary_iff.mp boundary
      have sum := byteLength_append before after
      rw [same] at sum
      rw [← length, ← same, behind_append]
      rcases List.append_eq_append_iff.mp (split.trans same.symm) with
        ⟨more, rfl, rfl⟩ | ⟨more, rfl, rfl⟩
      · -- The cut stands behind the beginning of the ending, so nothing fits in between.
        rw [byteLength_append] at sum total fits
        have none : more = [] := eq_nil_of_byteLength_eq_zero (by
          rw [byteLength_append] at length
          omega)
        rw [none]
        exact List.suffix_refl after
      · exact List.suffix_append more ending
    next inside =>
      have shorter : byteLength ending ≠ count + 1 := by
        intro full
        exact inside (isBoundary_iff.mpr ⟨front, ending, split, by omega⟩)
      exact ih (by omega)

/-- A character that is cut through is forgotten. -/
example : lastBytes 3 ['漢', 'x'] = ['x'] := by decide

/-- What was forgotten between two runs would be forgotten after them anyway. -/
theorem lastBytes_lastBytes_append (count : Nat) (whole new : List Char) :
    lastBytes count (lastBytes count whole ++ new) = lastBytes count (whole ++ new) := by
  have shorter : lastBytes count whole ++ new <:+ whole ++ new := by
    obtain ⟨forgotten, split⟩ := lastBytes_suffix count whole
    exact ⟨forgotten, by rw [← List.append_assoc, split]⟩
  have left : lastBytes count (lastBytes count whole ++ new) <:+ lastBytes count (whole ++ new) :=
    suffix_lastBytes_of_le ((lastBytes_suffix _ _).trans shorter) (byteLength_lastBytes_le _ _)
  have kept : lastBytes count (whole ++ new) <:+ lastBytes count whole ++ new := by
    have fits := byteLength_lastBytes_le count (whole ++ new)
    obtain ⟨front, split⟩ := lastBytes_suffix count (whole ++ new)
    rcases List.append_eq_append_iff.mp split with ⟨early, rfl, same⟩ | ⟨late, -, same⟩
    · rw [same] at fits ⊢
      rw [byteLength_append] at fits
      have early : early <:+ lastBytes count (front ++ early) :=
        suffix_lastBytes_of_le (List.suffix_append front early) (by omega)
      obtain ⟨before, split⟩ := early
      exact ⟨before, by rw [← List.append_assoc, split]⟩
    · have inside : lastBytes count (whole ++ new) <:+ new := ⟨late, same.symm⟩
      exact inside.trans (List.suffix_append _ _)
  have right := suffix_lastBytes_of_le kept (byteLength_lastBytes_le count (whole ++ new))
  exact left.eq_of_length_le right.length_le

/-- A pattern that was not in the earlier runs is found with a new one exactly when it is found in
the new one and the end that was remembered. -/
theorem occursIn_lastBytes_append {pattern whole : List Char}
    (absent : occursIn pattern whole = false) (new : List Char) :
    occursIn pattern (lastBytes (byteLength pattern - 1) whole ++ new) =
      occursIn pattern (whole ++ new) := by
  rw [Bool.eq_iff_iff, occursIn_iff_infix, occursIn_iff_infix]
  constructor
  · intro found
    obtain ⟨forgotten, split⟩ := lastBytes_suffix (byteLength pattern - 1) whole
    rw [← split, List.append_assoc]
    exact found.trans (List.suffix_append _ _).isInfix
  · rintro ⟨before, after, found⟩
    rw [List.append_assoc] at found
    rcases List.append_eq_append_iff.mp found with ⟨early, rfl, same⟩ | ⟨late, rfl, rfl⟩
    · rcases List.append_eq_append_iff.mp same with ⟨more, rfl, rfl⟩ | ⟨rest, rfl, rfl⟩
      · -- All of the pattern was in the earlier runs.
        have present : pattern <:+: before ++ (pattern ++ more) := ⟨before, more, by simp⟩
        rw [← occursIn_iff_infix, absent] at present
        cases present
      · cases rest with
        | nil =>
          have present : early ++ [] <:+: before ++ early := by
            rw [List.append_nil]
            exact (List.suffix_append before early).isInfix
          rw [← occursIn_iff_infix, absent] at present
          cases present
        | cons c rest =>
          have positive := c.utf8Size_pos
          have kept : early <:+ lastBytes (byteLength (early ++ c :: rest) - 1) (before ++ early) :=
            suffix_lastBytes_of_le (List.suffix_append before early) (by
              rw [byteLength_append, byteLength_cons]
              omega)
          obtain ⟨front, split⟩ := kept
          exact ⟨front, after, by rw [← split]; simp⟩
    · exact ⟨lastBytes (byteLength pattern - 1) whole ++ late, after, by simp⟩

end HtmlWriter.Text
