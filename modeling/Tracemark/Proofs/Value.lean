import Tracemark.Value.Key

/-!
# Texts as values and as keys

A value equals a text only if it is that text, so looking up a text among members
or in a table finds exactly what stands under it.
-/

set_option autoImplicit false

namespace Tracemark

namespace Value

theorem same_text_iff {value : Value} {characters : String} :
    same value (.text characters) = true ↔ value = .text characters := by
  cases value <;> simp [same, sameScalar, whole?]

theorem asKey_eq_text_iff {value : Value} {characters : String} :
    value.asKey = .ok (.text characters) ↔ value = .text characters := by
  cases value <;> simp [asKey]

def IsTextList (value : Value) : Prop :=
  ∃ texts : List String, value = .list (texts.map .text)

end Value

namespace Members

theorem has_iff_get?_isSome {members : Members} {key : String} :
    has members key = true ↔ (members.get? key).isSome = true := by
  simp [has, get?]

/-- Giving a key a value changes what is found under that key, and nothing else. -/
theorem get?_put (key other : String) (value : Value) (members : Members) :
    (members.put key value).get? other = if key = other then some value else members.get? other := by
  induction members with
  | nil => by_cases same : key = other <;> simp [put, get?, same]
  | cons member rest ih =>
      rw [put]
      split
      · rename_i replaced
        rw [beq_iff_eq] at replaced
        by_cases same : key = other <;> simp [get?, replaced, same]
      · rename_i kept
        by_cases here : member.1 = other
        · have different : key ≠ other := fun same => kept (by simp [here, same])
          simp [get?, here, different]
        · simpa [get?, here] using ih

/-- Giving a key the value that it has changes nothing. -/
theorem put_of_get? {members : Members} {key : String} {value : Value}
    (found : members.get? key = some value) : members.put key value = members := by
  induction members with
  | nil => cases found
  | cons member rest ih =>
      rw [put]
      split
      · rename_i here
        rw [beq_iff_eq] at here
        have same : member.2 = value := by simpa [get?, here] using found
        rw [← here, ← same]
      · rename_i elsewhere
        rw [ih (by simpa [get?, elsewhere] using found)]

theorem forall_key_put_iff {key : String} {value : Value} {members : Members} {allowed : String → Prop}
    (isAllowed : allowed key) :
    (∀ member ∈ members.put key value, allowed member.1) ↔ ∀ member ∈ members, allowed member.1 := by
  induction members with
  | nil => simpa [put] using isAllowed
  | cons member rest ih =>
      rw [put]
      split
      · rename_i replaced
        simp [isAllowed, beq_iff_eq.mp replaced]
      · rw [List.forall_mem_cons, List.forall_mem_cons, ih]

end Members

namespace Key

theorem same_text_iff {key : Key} {characters : String} :
    key.same (.text characters) = true ↔ key = .text characters := by
  cases key <;> simp [same, value, Value.sameScalar, Value.whole?]

theorem text_same_iff {key : Key} {characters : String} :
    (text characters).same key = true ↔ key = .text characters := by
  cases key with
  | text other =>
      simp only [same, value, Value.sameScalar, beq_iff_eq, text.injEq]
      exact eq_comm
  | _ => simp [same, value, Value.sameScalar, Value.whole?]

end Key

namespace Table

variable {α : Type}

theorem put_of_fresh {name : String} {new : α} {table : Table α}
    (fresh : Key.text name ∉ table.map (·.1)) :
    put (.text name) new table = table ++ [(.text name, new)] := by
  induction table with
  | nil => rfl
  | cons entry rest ih =>
      simp only [List.map_cons, List.mem_cons, not_or] at fresh
      have different : entry.1.same (.text name) = false := by
        rw [Bool.eq_false_iff, Ne, Key.same_text_iff]
        exact Ne.symm fresh.1
      simp [put, different, ih fresh.2]

/-- The new entry stands in the table, under a key that equals the given one. -/
theorem exists_mem_put (key : Key) (new : α) (table : Table α) :
    ∃ kept, (kept, new) ∈ put key new table ∧ (kept = key ∨ kept.same key = true) := by
  induction table with
  | nil => exact ⟨key, List.mem_singleton_self _, .inl rfl⟩
  | cons entry rest ih =>
      rw [put]
      split
      · rename_i same
        exact ⟨entry.1, List.mem_cons_self, .inr same⟩
      · obtain ⟨kept, member, isKey⟩ := ih
        exact ⟨kept, List.mem_cons_of_mem _ member, isKey⟩

theorem get?_put_self (name : String) (new : α) (table : Table α) :
    (put (.text name) new table).get? name = some new := by
  have found : (Key.text name).same (.text name) = true := Key.same_text_iff.mpr rfl
  induction table with
  | nil => simp [put, get?, found]
  | cons entry rest ih =>
      rw [put]
      split
      · rename_i same
        simp [get?, same]
      · rename_i different
        simpa [get?, different] using ih

theorem get?_put_of_ne {key : Key} {name : String} (different : key ≠ .text name) (new : α)
    (table : Table α) : (put key new table).get? name = table.get? name := by
  have elsewhere : key.same (.text name) = false := by
    rwa [Bool.eq_false_iff, Ne, Key.same_text_iff]
  induction table with
  | nil => simp [put, get?, elsewhere]
  | cons entry rest ih =>
      rw [put]
      split
      · rename_i same
        -- The entry keeps its own key, which equals the given one and so is not the name.
        have notNamed : entry.1.same (.text name) = false := by
          rw [Bool.eq_false_iff, Ne, Key.same_text_iff]
          intro named
          rw [named, Key.text_same_iff] at same
          exact different same
        simp [get?, notNamed]
      · simp only [get?, List.find?_cons] at ih ⊢
        cases entry.1.same (.text name) with
        | true => rfl
        | false => exact ih

theorem key_mem_put {kept : Key} {table : Table α} (member : kept ∈ table.map (·.1)) (key : Key)
    (new : α) : kept ∈ (put key new table).map (·.1) := by
  induction table with
  | nil => cases member
  | cons entry rest ih =>
      rw [put]
      split
      · exact member
      · rcases List.mem_cons.mp member with rfl | later
        · exact List.mem_cons_self
        · exact List.mem_cons_of_mem _ (ih later)

theorem mem_erase_iff {table : Table α} {name : String} {entry : Key × α} :
    entry ∈ table.erase name ↔ entry ∈ table ∧ entry.1 ≠ .text name := by
  simp [erase, ← Key.same_text_iff]

theorem erase_of_absent {table : Table α} {name : String}
    (absent : Key.text name ∉ table.map (·.1)) : table.erase name = table := by
  refine List.filter_eq_self.mpr ?_
  intro entry member
  rw [Bool.not_eq_true', Bool.eq_false_iff, Ne, Key.same_text_iff]
  intro same
  exact absent (same ▸ List.mem_map_of_mem member)

/-- In a table whose keys differ, each entry is found under its key. -/
theorem get?_eq_none_iff {table : Table α} {name : String} :
    table.get? name = none ↔ .text name ∉ table.map (·.1) := by
  simp only [get?, Option.map_eq_none_iff, List.find?_eq_none, Key.same_text_iff, List.mem_map]
  exact ⟨fun absent ⟨entry, member, same⟩ => absent entry member same,
    fun absent entry member same => absent ⟨entry, member, same⟩⟩

theorem get?_of_mem {table : Table α} {name : String} {value : α}
    (distinct : (table.map (·.1)).Nodup) (member : (Key.text name, value) ∈ table) :
    table.get? name = some value := by
  induction table with
  | nil => cases member
  | cons entry rest ih =>
      simp only [List.map_cons, List.nodup_cons] at distinct
      rcases List.mem_cons.mp member with rfl | later
      · have same : (Key.text name).same (.text name) = true := Key.same_text_iff.mpr rfl
        simp [get?, same]
      · have different : entry.1.same (.text name) = false := by
          rw [Bool.eq_false_iff, Ne, Key.same_text_iff]
          intro same
          exact distinct.1 (same ▸ List.mem_map_of_mem later)
        simpa [get?, different] using ih distinct.2 later

end Table

end Tracemark
