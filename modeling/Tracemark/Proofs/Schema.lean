import Tracemark.Discovery.Settings
import Tracemark.Proofs.Report
import Tracemark.Proofs.Value

/-!
# Satisfied schemas

A schema is satisfied when each of its keywords asks only for what holds of the
value. No violation is found exactly of the values that satisfy a schema, so a
report without lines says what the values of all fields are.
-/

set_option autoImplicit false

/-- A record takes members exactly when it has all of their names. -/
theorem Tracemark.refuseUnknown_eq_ok_iff {record : String} {names : List String}
    {members : Members} :
    refuseUnknown record names members = .ok () ↔ ∀ member ∈ members, member.1 ∈ names := by
  unfold refuseUnknown
  cases found : members.find? fun member => !names.contains member.1 with
  | none => simpa using found
  | some unknown =>
      have isUnknown := List.find?_some found
      simp only [reduceCtorEq, false_iff, not_forall]
      exact ⟨unknown, List.mem_of_find?_eq_some found, by simpa using isUnknown⟩

namespace Tracemark.Schema

mutual

def Keyword.Holds : Keyword → Value → Prop
  | .types names, value => ∃ name ∈ names, name.holds value = true
  | .oneOfTexts texts, value => ∃ text ∈ texts, value = .text text
  | .properties schemas, value =>
      ∀ members, value = .object members → PropertiesHold schemas members
  | .required names, value =>
      ∀ members, value = .object members → ∀ name ∈ names, Members.has members name = true
  | .onlyProperties names, value =>
      ∀ members, value = .object members → ∀ member ∈ members, member.1 ∈ names
  | .otherProperties names schema, value =>
      ∀ members, value = .object members →
        ∀ member ∈ members, member.1 ∉ names → Satisfies schema member.2
  | .items schema, value => ∀ items, value = .list items → ∀ item ∈ items, Satisfies schema item
  | .anyOf schemas, value => SatisfiesOne schemas value
  | .whenMember name text schema, value =>
      (∀ members, value = .object members →
        ∀ member, Members.get? members name = some member → member = .text text) →
          Satisfies schema value

def Satisfies : List Keyword → Value → Prop
  | [], _ => True
  | keyword :: rest, value => keyword.Holds value ∧ Satisfies rest value

/-- The members that exist satisfy their schemas. -/
def PropertiesHold : List (String × List Keyword) → Members → Prop
  | [], _ => True
  | (name, schema) :: rest, members =>
      (∀ value, Members.get? members name = some value → Satisfies schema value) ∧
        PropertiesHold rest members

def SatisfiesOne : List (List Keyword) → Value → Prop
  | [], _ => False
  | schema :: rest, value => Satisfies schema value ∨ SatisfiesOne rest value

end

theorem otherMembers_eq_nil_iff {names : List String} {members : Members} :
    otherMembers names members = [] ↔ ∀ member ∈ members, member.1 ∈ names := by
  simp [otherMembers]

mutual

theorem keywordViolations_eq_nil_iff (fits : Bool) (keyword : Keyword) (value : Value) :
    keywordViolations fits keyword value = [] ↔ keyword.Holds value := by
  cases keyword with
  | types names => simp [keywordViolations, Keyword.Holds]
  | oneOfTexts texts => simp [keywordViolations, Keyword.Holds, Value.same_text_iff]
  | properties schemas =>
      cases value <;>
        simp [keywordViolations, Keyword.Holds, propertyViolations_eq_nil_iff schemas]
  | required names => cases value <;> simp [keywordViolations, Keyword.Holds]
  | onlyProperties names =>
      cases value with
      | object members =>
          simp only [keywordViolations, Keyword.Holds, Value.object.injEq, forall_eq',
            ← otherMembers_eq_nil_iff]
          cases otherMembers names members <;> simp
      | _ => simp [keywordViolations, Keyword.Holds]
  | otherProperties names schema =>
      cases value with
      | object members =>
          have each := fun (fits : Bool) (member : Value) =>
            schemaViolations_eq_nil_iff fits schema member
          simp [keywordViolations, Keyword.Holds, otherMembers, each]
      | _ => simp [keywordViolations, Keyword.Holds]
  | items schema =>
      cases value with
      | list items =>
          have each := fun (fits : Bool) (item : Value) =>
            schemaViolations_eq_nil_iff fits schema item
          simp only [keywordViolations, Keyword.Holds, List.flatMap_eq_nil_iff, List.map_eq_nil_iff,
            each, Value.list.injEq, forall_eq']
          constructor
          · intro indexed item member
            obtain ⟨position, found⟩ := List.mem_iff_getElem?.mp member
            exact indexed (item, position) (List.mk_mem_zipIdx_iff_getElem?.mpr found)
          · rintro satisfied ⟨item, position⟩ member
            exact satisfied item (List.mem_of_getElem? (List.mk_mem_zipIdx_iff_getElem?.mp member))
      | _ => simp [keywordViolations, Keyword.Holds]
  | anyOf schemas =>
      simp only [keywordViolations, Keyword.Holds, ← branchViolations_eq_none_iff schemas value]
      cases branchViolations schemas value <;> simp
  | whenMember name text schema =>
      have satisfied := schemaViolations_eq_nil_iff (fitsTypes schema value) schema value
      cases value with
      | object members =>
          cases found : Members.get? members name with
          | none => simp [keywordViolations, Keyword.Holds, found, satisfied]
          | some member =>
              by_cases same : member = .text text <;>
                simp [keywordViolations, Keyword.Holds, found, Value.same_text_iff, same, satisfied]
      | _ => simp [keywordViolations, Keyword.Holds, satisfied]

theorem schemaViolations_eq_nil_iff (fits : Bool) (schema : List Keyword) (value : Value) :
    schemaViolations fits schema value = [] ↔ Satisfies schema value := by
  cases schema with
  | nil => simp [schemaViolations, Satisfies]
  | cons keyword rest =>
      simp [schemaViolations, Satisfies, keywordViolations_eq_nil_iff fits keyword value,
        schemaViolations_eq_nil_iff fits rest value]

theorem propertyViolations_eq_nil_iff (schemas : List (String × List Keyword)) (members : Members) :
    propertyViolations schemas members = [] ↔ PropertiesHold schemas members := by
  cases schemas with
  | nil => simp [propertyViolations, PropertiesHold]
  | cons entry rest =>
      obtain ⟨name, schema⟩ := entry
      simp only [propertyViolations, PropertiesHold, List.append_eq_nil_iff,
        propertyViolations_eq_nil_iff rest members]
      cases Members.get? members name with
      | none => simp
      | some value => simp [schemaViolations_eq_nil_iff _ schema value]

theorem branchViolations_eq_none_iff (schemas : List (List Keyword)) (value : Value) :
    branchViolations schemas value = none ↔ SatisfiesOne schemas value := by
  cases schemas with
  | nil => simp [branchViolations, SatisfiesOne]
  | cons schema rest =>
      simp only [branchViolations, SatisfiesOne, ← branchViolations_eq_none_iff rest value,
        ← schemaViolations_eq_nil_iff (fitsTypes schema value) schema value]
      cases schemaViolations (fitsTypes schema value) schema value <;> simp

end

theorem best?_eq_none_iff [Libraries] {schema : List Keyword} {value : Value} :
    best? schema value = none ↔ Satisfies schema value := by
  rw [← schemaViolations_eq_nil_iff (fitsTypes schema value)]
  unfold best? violations
  cases schemaViolations (fitsTypes schema value) schema value <;> simp

/-- A report on fields is empty exactly when each field satisfies its schema. -/
theorem fieldReports_eq_nil_iff [Libraries] {fields : List (String × List Keyword × Value)} :
    fieldReports fields = [] ↔ ∀ field ∈ fields, Satisfies field.2.1 field.2.2 := by
  simp [fieldReports, Report.arrange_eq_nil_iff, fieldReport, best?_eq_none_iff]

/-! ## Schemas that occur -/

theorem holds_string_iff {value : Value} :
    TypeName.string.holds value = true ↔ ∃ characters, value = .text characters := by
  cases value <;> simp [TypeName.holds]

theorem holds_array_iff {value : Value} :
    TypeName.array.holds value = true ↔ ∃ items, value = .list items := by
  cases value <;> simp [TypeName.holds]

theorem holds_object_iff {value : Value} :
    TypeName.object.holds value = true ↔ ∃ members, value = .object members := by
  cases value <;> simp [TypeName.holds]

theorem satisfies_string_iff {value : Value} :
    Satisfies [.types [.string]] value ↔ ∃ characters, value = .text characters := by
  simp [Satisfies, Keyword.Holds, holds_string_iff]

theorem exists_texts {items : List Value}
    (each : ∀ item ∈ items, ∃ characters, item = Value.text characters) :
    ∃ texts : List String, items = texts.map .text := by
  induction items with
  | nil => exact ⟨[], rfl⟩
  | cons item rest ih =>
      obtain ⟨characters, rfl⟩ := each item List.mem_cons_self
      obtain ⟨texts, rfl⟩ := ih fun other member => each other (List.mem_cons_of_mem _ member)
      exact ⟨characters :: texts, rfl⟩

theorem satisfies_texts_iff {value : Value} : Satisfies texts value ↔ value.IsTextList := by
  simp only [texts, Satisfies, Keyword.Holds, List.mem_singleton, exists_eq_left, holds_array_iff,
    holds_string_iff, and_true]
  constructor
  · rintro ⟨⟨items, rfl⟩, each⟩
    obtain ⟨texts, rfl⟩ := exists_texts (each items rfl)
    exact ⟨texts, rfl⟩
  · rintro ⟨texts, rfl⟩
    refine ⟨⟨_, rfl⟩, ?_⟩
    rintro items ⟨⟩ item member
    obtain ⟨characters, _, rfl⟩ := List.mem_map.mp member
    exact ⟨characters, rfl⟩

end Tracemark.Schema
