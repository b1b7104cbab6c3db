/-! Sets over a finite alphabet, kept as one word with a bit for each member. The
alphabet assigns every member its own position below the width, so no two members
share a bit. The main statements say that membership after each operation is
membership in the lists and sets it was built from. -/

namespace HtmlWriter

/-- An alphabet whose members have distinct positions below `width`. Distinctness
is what makes a bit stand for exactly one member. -/
class Indexed (α : Type) (width : outParam Nat) where
  index : α → Fin width
  index_injective : ∀ a b, index a = index b → a = b

/-- A set of members of `α`, one bit for each position. -/
structure BitSet (α : Type) (width : Nat) where
  bits : BitVec width
deriving DecidableEq, Repr

namespace BitSet
variable {α : Type} {width : Nat}

def empty : BitSet α width := ⟨0⟩

instance : Inhabited (BitSet α width) := ⟨empty⟩

def union (s t : BitSet α width) : BitSet α width := ⟨s.bits ||| t.bits⟩

instance : Union (BitSet α width) := ⟨union⟩

def isEmpty (s : BitSet α width) : Bool := s.bits == 0

def intersects (s t : BitSet α width) : Bool := (s.bits &&& t.bits) != 0

variable [Indexed α width]

def singleton (a : α) : BitSet α width := ⟨BitVec.twoPow width (Indexed.index a)⟩

/-- Whether `a` is a member: its bit is set. -/
def contains (s : BitSet α width) (a : α) : Bool := s.bits.getLsbD (Indexed.index a)

/-- The set of the members of a list. Order and repetitions leave no trace. -/
def ofList (members : List α) : BitSet α width :=
  members.foldl (fun s a => s ∪ singleton a) empty

@[simp] theorem contains_empty (a : α) : (empty : BitSet α width).contains a = false := by
  simp [contains, empty]

@[simp] theorem contains_union (s t : BitSet α width) (a : α) :
    (s ∪ t).contains a = (s.contains a || t.contains a) := by
  show (union s t).contains a = _
  simp [contains, union]

@[simp] theorem contains_singleton [DecidableEq α] (a b : α) :
    (singleton a : BitSet α width).contains b = decide (a = b) := by
  simp only [contains, singleton, BitVec.getLsbD_twoPow]
  by_cases same : a = b
  · simp [same]
  · have apart : (Indexed.index a).val ≠ (Indexed.index b).val :=
      fun equal => same (Indexed.index_injective a b (Fin.ext equal))
    simp [same, apart]

private theorem contains_foldl [DecidableEq α] (members : List α) (s : BitSet α width) (a : α) :
    (members.foldl (fun s b => s ∪ singleton b) s).contains a =
      (s.contains a || decide (a ∈ members)) := by
  induction members generalizing s with
  | nil => simp
  | cons b rest ih =>
    rw [List.foldl_cons, ih]
    by_cases same : b = a
    · simp [same]
    · simp [same, Ne.symm same]

/-- A list's set has exactly the list's members. -/
@[simp] theorem contains_ofList [DecidableEq α] (members : List α) (a : α) :
    (ofList members : BitSet α width).contains a = decide (a ∈ members) := by
  simp [ofList, contains_foldl]

end BitSet
end HtmlWriter
