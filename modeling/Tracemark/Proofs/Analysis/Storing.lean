import Tracemark.Analysis.Run
import Tracemark.Proofs.Store

/-!
# Stored values

A value is stored as a text in a file, whose directory is made where it is missing. Whether
that works depends on the place and not on the value.
-/

set_option autoImplicit false

namespace Tracemark.Analysis

variable {store written : Store} {file : Path}

theorem storeJson_eq_none_iff {value : Except Fault Value} :
    storeJson store file value = (written, none) ↔
      ∃ prepared content, withDirectory store file = (prepared, none) ∧ value = .ok content ∧
        prepared.write file (Utf8.encode (Json.write content).toList) = .ok written := by
  unfold storeJson
  constructor
  · intro stored
    split at stored
    · cases stored
    · rename_i prepared made
      split at stored
      · cases stored
      · rename_i content
        split at stored
        · cases stored
        · rename_i written writes
          cases stored
          exact ⟨prepared, content, made, rfl, writes⟩
  · rintro ⟨prepared, content, made, rfl, writes⟩
    simp only [made, writes]

/-- Where one value can be stored every other can be, and its text is read again. -/
theorem exists_storeJson {value : Except Fault Value}
    (stored : storeJson store file value = (written, none)) (other : Value) :
    ∃ later, storeJson store file (.ok other) = (later, none) ∧
      later.readText file = .ok (Json.write other).toList := by
  obtain ⟨prepared, _, made, _, writes⟩ := storeJson_eq_none_iff.mp stored
  obtain ⟨later, otherWrites⟩ := Store.exists_write writes (Utf8.encode (Json.write other).toList)
  exact ⟨later, storeJson_eq_none_iff.mpr ⟨prepared, other, made, rfl, otherWrites⟩,
    (Store.readText_of_write otherWrites).2⟩

end Tracemark.Analysis
