import Mathlib.Data.List.Basic

/-!
# Stable sorting

Sorting keeps the order of items that could stand either way round, and a sorted
list is determined by the order within each group of such items.
-/

set_option autoImplicit false

namespace Tracemark.StableSort

variable {α : Type} {le : α → α → Bool}

/-- Can two items stand either way round? -/
def tied (le : α → α → Bool) (left right : α) : Bool :=
  le left right && le right left

section

variable (trans : ∀ a b c : α, le a b = true → le b c = true → le a c = true)
  (total : ∀ a b : α, (le a b || le b a) = true)

include trans total

/-- Items of which any two are in order stay in the order in which they were. -/
theorem filter_mergeSort {chosen : α → Bool}
    (level : ∀ a b, chosen a = true → chosen b = true → le a b = true) (items : List α) :
    (items.mergeSort le).filter chosen = items.filter chosen := by
  have ordered : (items.filter chosen).Pairwise fun a b => le a b = true := by
    refine List.pairwise_of_forall_mem_list fun a inFirst b inSecond => ?_
    exact level a b (List.mem_filter.mp inFirst).2 (List.mem_filter.mp inSecond).2
  have kept : (items.filter chosen).Sublist (items.mergeSort le) :=
    List.sublist_mergeSort trans total ordered List.filter_sublist
  have among : (items.filter chosen).Sublist ((items.mergeSort le).filter chosen) := by
    simpa only [List.filter_filter, Bool.and_self] using kept.filter chosen
  have sameLength := ((List.mergeSort_perm items le).filter chosen).length_eq
  exact (among.eq_of_length sameLength.symm).symm

end

section

variable (total : ∀ a b : α, (le a b || le b a) = true)

include total

theorem tied_self (item : α) : tied le item item = true := by
  simpa [tied] using total item item

theorem mem_iff_of_filter_tied {left right : List α}
    (same : ∀ item, item ∈ left ∨ item ∈ right →
      left.filter (tied le item) = right.filter (tied le item)) (item : α) :
    item ∈ left ↔ item ∈ right := by
  have inGroup (either : item ∈ left ∨ item ∈ right) :
      item ∈ left.filter (tied le item) ↔ item ∈ right.filter (tied le item) := by
    rw [same item either]
  simp only [List.mem_filter, tied_self total item, and_true] at inGroup
  constructor
  · intro inLeft
    exact (inGroup (.inl inLeft)).mp inLeft
  · intro inRight
    exact (inGroup (.inr inRight)).mpr inRight

/-- Two sorted lists with the same order within each group of tied items are the same. -/
theorem eq_of_filter_tied {left right : List α}
    (leftSorted : left.Pairwise fun a b => le a b = true)
    (rightSorted : right.Pairwise fun a b => le a b = true)
    (same : ∀ item, item ∈ left ∨ item ∈ right →
      left.filter (tied le item) = right.filter (tied le item)) : left = right := by
  induction left generalizing right with
  | nil =>
      have mem_iff := mem_iff_of_filter_tied total same
      cases right with
      | nil => rfl
      | cons b right => exact absurd ((mem_iff b).mpr List.mem_cons_self) List.not_mem_nil
  | cons a left ih =>
      have mem_iff := mem_iff_of_filter_tied total same
      cases right with
      | nil => exact absurd ((mem_iff a).mp List.mem_cons_self) List.not_mem_nil
      | cons b right =>
          obtain ⟨leftFirst, leftRest⟩ := List.pairwise_cons.mp leftSorted
          obtain ⟨rightFirst, rightRest⟩ := List.pairwise_cons.mp rightSorted
          have forward : le a b = true := by
            rcases List.mem_cons.mp ((mem_iff b).mpr List.mem_cons_self) with rfl | later
            · simpa using total b b
            · exact leftFirst b later
          have backward : le b a = true := by
            rcases List.mem_cons.mp ((mem_iff a).mp List.mem_cons_self) with rfl | later
            · simpa using total a a
            · exact rightFirst a later
          -- The first items come before one another, so they head the same group.
          have group := same a (.inl List.mem_cons_self)
          rw [List.filter_cons_of_pos (tied_self total a),
            List.filter_cons_of_pos (by simp [tied, forward, backward])] at group
          obtain ⟨rfl, _⟩ := List.cons.inj group
          have rest : ∀ item, item ∈ left ∨ item ∈ right →
              left.filter (tied le item) = right.filter (tied le item) := by
            intro item either
            have whole := same item (either.imp (List.mem_cons_of_mem _) (List.mem_cons_of_mem _))
            simp only [List.filter_cons] at whole
            split at whole
            · exact (List.cons.inj whole).2
            · exact whole
          rw [ih leftRest rightRest rest]

end

end Tracemark.StableSort
