import Mathlib.Data.List.Perm.Basic
import Mathlib.Data.List.SplitBy
import Tracemark.Report

/-!
# Reports lose no line

Arranging a report only changes the order of its lines.
-/

set_option autoImplicit false

namespace Tracemark.Report

theorem arrangeRun_perm (run : List String) : (arrangeRun run).Perm run := by
  cases run with
  | nil => exact .refl _
  | cons first rest =>
      simp only [arrangeRun]
      split
      · exact .refl _
      · exact List.mergeSort_perm _ _

theorem arrange_perm (lines : List String) : (arrange lines).Perm lines := by
  have runs := List.Perm.flatMap_left
    (lines.splitBy fun left right => kindOf left == kindOf right)
    fun run _ => arrangeRun_perm run
  simpa [arrange, List.flatMap, List.flatten_splitBy] using runs

theorem arrange_eq_nil_iff {lines : List String} : arrange lines = [] ↔ lines = [] := by
  constructor
  · intro empty
    exact (empty ▸ arrange_perm lines).nil_eq.symm
  · rintro rfl
    rfl

end Tracemark.Report
