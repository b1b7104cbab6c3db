import HtmlWriter.Proofs.EffectiveModels

/-! Sets of tags are sets. All that content models and exclusions know of tags is one word of bits,
put together from lists. It holds of a list what a set holds, the members and nothing else, because
every tag has a bit of its own inside of the word. -/

namespace HtmlWriter

namespace BitSet
variable {α : Type} {width : Nat} [Indexed α width]

private theorem getLsbD_singleton (a : α) (position : Nat) :
    (singleton a : BitSet α width).bits.getLsbD position = true ↔
      (Indexed.index a : Fin width).val = position := by
  simp [singleton, BitVec.getLsbD_twoPow]

theorem getLsbD_ofList (members : List α) (position : Nat) :
    (ofList members : BitSet α width).bits.getLsbD position = true ↔
      ∃ a ∈ members, (Indexed.index a : Fin width).val = position := by
  have added (s : BitSet α width) :
      (members.foldl (fun s a => s ∪ singleton a) s).bits.getLsbD position = true ↔
        s.bits.getLsbD position = true ∨
          ∃ a ∈ members, (Indexed.index a : Fin width).val = position := by
    induction members generalizing s with
    | nil => simp
    | cons a rest ih =>
      have joined : (s ∪ singleton a).bits = s.bits ||| (singleton a).bits := rfl
      rw [List.foldl_cons, ih, joined, BitVec.getLsbD_or, Bool.or_eq_true, getLsbD_singleton]
      simp only [List.mem_cons, exists_eq_or_imp, or_assoc]
  have none : (empty : BitSet α width).bits.getLsbD position = false := by simp [empty]
  rw [ofList, added, none]
  simp

theorem ofList_eq_iff [DecidableEq α] {first second : List α} :
    (ofList first : BitSet α width) = ofList second ↔ ∀ a, a ∈ first ↔ a ∈ second := by
  constructor
  · intro same a
    have contained := congrArg (fun s : BitSet α width => s.contains a) same
    simpa using contained
  · intro same
    have bits : (ofList first : BitSet α width).bits = (ofList second).bits := by
      apply BitVec.eq_of_getLsbD_eq
      intro position _
      apply Bool.eq_iff_iff.mpr
      simp only [getLsbD_ofList, same]
    exact congrArg BitSet.mk bits

theorem isEmpty_ofList [DecidableEq α] {members : List α} :
    (ofList members : BitSet α width).isEmpty = true ↔ members = [] := by
  have nothing : (ofList members : BitSet α width).isEmpty = true ↔
      (ofList members : BitSet α width) = ofList [] := by
    rw [isEmpty, beq_iff_eq]
    exact ⟨congrArg BitSet.mk, congrArg BitSet.bits⟩
  rw [nothing, ofList_eq_iff, List.eq_nil_iff_forall_not_mem]
  simp

/-- Membership is a test by the mask of the member. -/
theorem contains_iff_and_ne_zero {s : BitSet α width} {a : α} :
    s.contains a = true ↔ s.bits &&& (singleton a).bits ≠ 0 := by
  constructor
  · intro member none
    have bit : (s.bits &&& (singleton a).bits).getLsbD (Indexed.index a : Fin width) = true := by
      rw [BitVec.getLsbD_and, Bool.and_eq_true, getLsbD_singleton]
      exact ⟨member, rfl⟩
    rw [none] at bit
    simp at bit
  · intro some
    apply Classical.byContradiction
    intro other
    apply some
    apply BitVec.eq_of_getLsbD_eq
    intro position _
    have zero : (0 : BitVec width).getLsbD position = false := by simp
    rw [BitVec.getLsbD_and, zero, Bool.and_eq_false_imp]
    intro set
    apply eq_false_of_ne_true
    intro own
    obtain rfl := (getLsbD_singleton a position).mp own
    exact other set

end BitSet

theorem Exclusion.forbids_iff {exclusion : Exclusion} {tag : Tag} {categories : Categories} :
    exclusion.forbids tag categories = true ↔
      (∃ category, categories.contains category = true ∧
        exclusion.categories.contains category = true) ∨ exclusion.tags.contains tag = true := by
  rw [forbids, Bool.or_eq_true, Categories.intersects_iff]

namespace ContentModel
variable {tag : Tag} {categories : Categories}

theorem allows_only {members : List Tag} : (only members).allows tag categories = true ↔
    categories.contains .scriptSupporting = true ∨ tag ∈ members := by
  rw [allows_iff]
  simp [only]

theorem allows_accepting {model : ContentModel} {members : List Tag} :
    (model.accepting members).allows tag categories = true ↔
      model.allows tag categories = true ∨ tag ∈ members := by
  rw [allows_iff, allows_iff]
  simp [accepting, or_assoc]

end ContentModel

namespace Tag

theorem idxOf_all (tag : Tag) : all.idxOf tag = (Indexed.index tag : Fin 128).val := by
  cases tag <;> rfl

private theorem bits_singleton (tag : Tag) :
    (BitSet.singleton tag : TagSet).bits = 1#128 <<< all.idxOf tag := by
  rw [tag.idxOf_all, BitSet.singleton, BitVec.twoPow_eq]

end Tag

/-- A set of tags that was made of a list holds what the list holds, whatever its order and
repetitions, and two sets together hold what either holds. So content models and exclusions tell
exactly the tags they were made of from all others. No tag is lost, and none is taken for another:
each has a bit of its own, and a set has no bits but those of its members. -/
theorem TagSet.holds_exactly_its_members :
    (∀ (members : List Tag) (tag : Tag),
      (BitSet.ofList members : TagSet).contains tag = true ↔ tag ∈ members) ∧
    (∀ (first second : TagSet) (tag : Tag), (first ∪ second).contains tag = true ↔
      first.contains tag = true ∨ second.contains tag = true) ∧
    (∀ first second : List Tag, (BitSet.ofList first : TagSet) = BitSet.ofList second ↔
      ∀ tag, tag ∈ first ↔ tag ∈ second) ∧
    (∀ members : List Tag, (BitSet.ofList members : TagSet).isEmpty = true ↔ members = []) ∧
    (∀ (members : List Tag) (tag : Tag) (categories : Categories),
      ((ContentModel.only members).allows tag categories = true ↔
        categories.contains .scriptSupporting = true ∨ tag ∈ members) ∧
      (∀ model : ContentModel, (model.accepting members).allows tag categories = true ↔
        model.allows tag categories = true ∨ tag ∈ members) ∧
      (∀ accepted : Categories, ∀ transparent,
        (ContentModel.mk accepted (.ofList members) transparent).allows tag categories = true ↔
          (∃ category, categories.contains category = true ∧
            accepted.contains category = true) ∨ tag ∈ members) ∧
      ∀ forbidden : Categories,
        (Exclusion.mk forbidden (.ofList members)).forbids tag categories = true ↔
          (∃ category, categories.contains category = true ∧
            forbidden.contains category = true) ∨ tag ∈ members) ∧
    (∀ (members : List Tag) (position : Nat),
      (BitSet.ofList members : TagSet).bits.getLsbD position = true ↔
        ∃ tag ∈ members, Tag.all.idxOf tag = position) ∧
    (∀ (tags : TagSet) (tag : Tag),
      tags.contains tag = true ↔ tags.bits &&& 1#128 <<< Tag.all.idxOf tag ≠ 0) ∧
    ∀ first second : Tag,
      1#128 <<< Tag.all.idxOf first &&& 1#128 <<< Tag.all.idxOf second ≠ 0 ↔ first = second := by
  have masks (tags : TagSet) (tag : Tag) :
      tags.contains tag = true ↔ tags.bits &&& 1#128 <<< Tag.all.idxOf tag ≠ 0 := by
    rw [BitSet.contains_iff_and_ne_zero, tag.bits_singleton]
  refine ⟨fun members tag => by simp, fun first second tag => by simp,
    fun first second => BitSet.ofList_eq_iff, fun members => BitSet.isEmpty_ofList,
    fun members tag categories => ⟨ContentModel.allows_only, fun model =>
      ContentModel.allows_accepting, ?_, ?_⟩, ?_, masks, fun first second => ?_⟩
  · intro accepted transparent
    rw [ContentModel.allows_iff, BitSet.contains_ofList, decide_eq_true_eq]
  · intro forbidden
    rw [Exclusion.forbids_iff, BitSet.contains_ofList, decide_eq_true_eq]
  · intro members position
    simp only [Tag.idxOf_all, BitSet.getLsbD_ofList]
  · rw [← first.bits_singleton, ← masks, BitSet.contains_singleton, decide_eq_true_eq]

end HtmlWriter
