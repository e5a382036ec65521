import Mathlib.Data.List.Forall2
import Tracemark.OneLine.Check
import Tracemark.Proofs.Result
import Tracemark.Proofs.Schema

/-!
# The layout of an accepted style

The parts of a style are values of any kind. A style that passes its checks has a
layout: three texts, and fields whose names differ, whose defaults fit their kinds
and of which those with a default come last.
-/

set_option autoImplicit false

namespace Tracemark.OneLine

inductive FieldKind where
  | text
  | list
deriving Repr, DecidableEq

namespace FieldKind

/-- The type by which settings name a kind. -/
def type : FieldKind → String
  | .text => textType
  | .list => listType

def Admits : FieldKind → Value → Prop
  | .text, value => ∃ characters, value = .text characters
  | .list, value => value.IsTextList

end FieldKind

structure Field where
  name : String
  kind : FieldKind
  fallback : Option Value
deriving Repr

structure Field.DescribedBy (field : Field) (members : Members) : Prop where
  name : members.get? "name" = some (.text field.name)
  type : members.get? "type" = some (.text field.kind.type)
  fallback : members.get? "default" = field.fallback
  admitted : ∀ value ∈ field.fallback, field.kind.Admits value

namespace Field.DescribedBy

variable {field : Field} {members : Members}

theorem index_name (described : field.DescribedBy members) :
    (Value.object members).index "name" = .ok (.text field.name) := by
  simp [Value.index, described.name]

theorem hasType (described : field.DescribedBy members) (kind : FieldKind) :
    Style.hasType kind.type members = decide (field.kind = kind) := by
  rw [Bool.eq_iff_iff]
  simp only [Style.hasType, described.type, Value.same_text_iff, decide_eq_true_eq]
  cases field.kind <;> cases kind <;> simp [FieldKind.type, textType, listType]

theorem kind_eq (described : field.DescribedBy members) {kind : FieldKind}
    (typed : Style.hasType kind.type members = true) : field.kind = kind := by
  simpa using (described.hasType kind).symm.trans typed

/-- A field has to be given exactly when it has no default: nothing is no default
of any kind. -/
theorem isRequired (described : field.DescribedBy members) :
    Style.isRequired members = field.fallback.isNone := by
  have admitted := described.admitted
  simp only [Style.isRequired, described.fallback]
  cases fallback : field.fallback with
  | none => rfl
  | some value =>
      have admits := admitted value fallback
      cases value with
      | null =>
          cases kind : field.kind <;> simp [kind, FieldKind.Admits, Value.IsTextList] at admits
      | _ => rfl

end Field.DescribedBy

/-- Texts at the ends of a mark and between its fields, and the fields in order. -/
structure Layout where
  startSequence : String
  endSequence : String
  separator : String
  fields : List Field
deriving Repr

namespace Layout

def names (layout : Layout) : List String :=
  layout.fields.map Field.name

end Layout

/-- A style with a layout. The objects of its fields may have other members than the
layout tells. -/
structure Style.HasLayout (style : Style) (layout : Layout) (objects : List Members) : Prop where
  startSequence : style.startSequence = .text layout.startSequence
  endSequence : style.endSequence = .text layout.endSequence
  separator : style.separator = .text layout.separator
  fields : style.fields = .list (objects.map .object)
  described : List.Forall₂ Field.DescribedBy layout.fields objects
  distinct : layout.names.Nodup
  ordered : layout.fields.Pairwise fun earlier later =>
    later.fallback = none → earlier.fallback = none

/-! ## Types are filled in -/

/-- A list of fields in which each object has a type. -/
def TypesFilled (fields : Value) : Prop :=
  ∀ items, fields = .list items → ∀ members, .object members ∈ items →
    Members.has members "type" = true

theorem has_put_self (members : Members) (key : String) (value : Value) :
    Members.has (Members.put key value members) key = true := by
  induction members with
  | nil => simp [Members.put, Members.has]
  | cons member rest ih =>
      simp only [Members.put]
      split
      · simp [Members.has]
      · simpa [Members.has] using Or.inr (by simpa [Members.has] using ih)

theorem withType_object {value : Value} {members : Members}
    (filled : withType value = .ok (.object members)) : Members.has members "type" = true := by
  cases value with
  | object given =>
      simp only [withType, Except.ok.injEq, Value.object.injEq] at filled
      split at filled
      · rename_i present
        exact filled ▸ present
      · exact filled ▸ has_put_self given "type" _
  | list items =>
      simp only [withType] at filled
      split at filled <;> cases filled
  | text characters =>
      simp only [withType] at filled
      split at filled <;> cases filled
  | _ => cases filled

theorem withTypes_object {given : List Value} (complete : (withTypes given).2 = none)
    {members : Members} (member : .object members ∈ (withTypes given).1) :
    Members.has members "type" = true := by
  induction given with
  | nil => cases member
  | cons field rest ih =>
      cases filled : withType field with
      | error cause => simp [withTypes, filled] at complete
      | ok value =>
          simp only [withTypes, filled] at complete member
          rcases List.mem_cons.mp member with same | later
          · exact withType_object (same ▸ filled)
          · exact ih complete later

theorem typesFilled_fillTypes {fields : Value} (complete : (fillTypes fields).2 = none) :
    TypesFilled (fillTypes fields).1 := by
  intro items shape members member
  cases fields with
  | list given =>
      obtain rfl : (withTypes given).1 = items := Value.list.inj shape
      exact withTypes_object complete member
  | _ => cases shape

theorem typesFilled_defaultFields : TypesFilled defaultFields := by
  intro items shape members member
  obtain rfl := Value.list.inj shape
  simp only [List.mem_cons, Value.object.injEq, List.not_mem_nil, or_false] at member
  rcases member with rfl | rfl | rfl | rfl <;> rfl

/-- Every style that settings describe has its types filled in. -/
theorem Style.typesFilled_of_settings {settings : Value} {style : Style}
    (made : (Style.ofSettings settings).2 = .ok style) : TypesFilled style.fields := by
  cases settings with
  | null =>
      obtain rfl : Style.standard = style := Except.ok.inj made
      exact typesFilled_defaultFields
  | object members =>
      simp only [Style.ofSettings] at made
      split at made
      · cases made
      · split at made
        · obtain rfl := Except.ok.inj made
          exact typesFilled_defaultFields
        · rename_i fields _
          split at made
          · cases made
          · rename_i complete
            obtain rfl := Except.ok.inj made
            exact typesFilled_fillTypes complete
  | _ => cases made

/-! ## Accepted styles have a layout -/

private theorem exists_described {items : List Value}
    (each : ∀ item ∈ items, ∃ members field,
      item = .object members ∧ Field.DescribedBy field members) :
    ∃ objects fields, items = objects.map .object ∧
      List.Forall₂ Field.DescribedBy fields objects := by
  induction items with
  | nil => exact ⟨[], [], rfl, .nil⟩
  | cons item rest ih =>
      obtain ⟨members, field, rfl, described⟩ := each item List.mem_cons_self
      obtain ⟨objects, fields, rfl, others⟩ :=
        ih fun other member => each other (List.mem_cons_of_mem _ member)
      exact ⟨members :: objects, field :: fields, rfl, .cons described others⟩

open Schema in
/-- The schema of a field asks for an object that describes a field and has no other keys,
provided its type is filled in. -/
theorem satisfies_fieldSchema_iff {members : Members} (typed : members.has "type" = true) :
    Satisfies Style.fieldSchema (.object members) ↔
      (∃ field, Field.DescribedBy field members) ∧
        ∀ member ∈ members, member.1 ∈ Style.fieldKeys := by
  simp only [Style.fieldSchema, Satisfies, Keyword.Holds, PropertiesHold, SatisfiesOne,
    List.mem_singleton, exists_eq_left, holds_object_iff, holds_string_iff, and_true, or_false,
    Value.object.injEq, forall_eq', forall_eq, satisfies_texts_iff]
  rw [Members.has_iff_get?_isSome, Option.isSome_iff_exists] at typed
  obtain ⟨type, foundType⟩ := typed
  constructor
  · rintro ⟨_, ⟨textName, knownType, _⟩, named, known, whenList, whenText⟩
    refine ⟨?_, known⟩
    rw [Members.has_iff_get?_isSome, Option.isSome_iff_exists] at named
    obtain ⟨name, foundName⟩ := named
    obtain ⟨characters, rfl⟩ := textName name foundName
    obtain ⟨_, texts, among, rfl⟩ := knownType type foundType
    simp only [List.mem_cons, List.not_mem_nil, or_false] at among
    rcases among with rfl | rfl
    · refine ⟨⟨characters, .text, members.get? "default"⟩, foundName, foundType, rfl, ?_⟩
      intro fallback found
      refine whenText ?_ fallback found
      intro type again
      exact Option.some.inj (again.symm.trans foundType)
    · refine ⟨⟨characters, .list, members.get? "default"⟩, foundName, foundType, rfl, ?_⟩
      intro fallback found
      refine whenList ?_ fallback found
      intro type again
      exact Option.some.inj (again.symm.trans foundType)
  · rintro ⟨⟨⟨name, kind, fallback⟩, described⟩, known⟩
    have admitted : ∀ value, members.get? "default" = some value → kind.Admits value :=
      fun value found => described.admitted value (described.fallback.symm.trans found)
    refine ⟨⟨members, rfl⟩, ⟨?_, ?_, ?_⟩, ?_, known, ?_, ?_⟩
    · intro value found
      exact ⟨name, Option.some.inj (found.symm.trans described.name)⟩
    · intro value found
      obtain rfl := Option.some.inj (found.symm.trans described.type)
      refine ⟨⟨_, rfl⟩, kind.type, ?_, rfl⟩
      cases kind <;> simp [FieldKind.type]
    · intro value found
      cases kind with
      | text => exact .inl (admitted value found)
      | list => exact .inr (admitted value found)
    · rw [Members.has_iff_get?_isSome, described.name]
      rfl
    · intro isList
      cases kind with
      | text => exact absurd (isList _ described.type) (by simp [FieldKind.type, textType, listType])
      | list => exact admitted
    · intro isText
      cases kind with
      | text => exact admitted
      | list => exact absurd (isText _ described.type) (by simp [FieldKind.type, textType, listType])

open Schema in
/-- The schema of the fields asks for objects that describe fields, provided their
types are filled in. -/
theorem exists_fields_of_satisfies {value : Value} (satisfied : Satisfies Style.fieldsSchema value)
    (filled : TypesFilled value) :
    ∃ objects fields, value = .list (objects.map .object) ∧
      List.Forall₂ Field.DescribedBy fields objects := by
  simp only [Style.fieldsSchema, Satisfies, Keyword.Holds, List.mem_singleton, exists_eq_left,
    holds_array_iff, and_true] at satisfied
  obtain ⟨⟨items, rfl⟩, each⟩ := satisfied
  suffices each : ∀ item ∈ items, ∃ members field, item = .object members ∧
      Field.DescribedBy field members by
    obtain ⟨objects, fields, rfl, described⟩ := exists_described each
    exact ⟨objects, fields, rfl, described⟩
  intro item member
  have satisfied := each items rfl item member
  obtain ⟨kind, isObject, holds⟩ := satisfied.1
  rw [List.mem_singleton.mp isObject] at holds
  obtain ⟨members, rfl⟩ := holds_object_iff.mp holds
  obtain ⟨⟨field, described⟩, _⟩ :=
    (satisfies_fieldSchema_iff (filled items rfl members member)).mp satisfied
  exact ⟨members, field, rfl, described⟩

/-- No name is reported exactly when the names differ from each other and from those
before them. -/
theorem repeatedNames_eq_nil_iff {seen names : List String} :
    Style.repeatedNames (seen.map .text) (names.map .text) = [] ↔
      names.Nodup ∧ ∀ name ∈ names, name ∉ seen := by
  induction names generalizing seen with
  | nil => simp [Style.repeatedNames]
  | cons name rest ih =>
      have later := @ih (name :: seen)
      simp only [List.map_cons] at later
      have among : (Value.text name).isAmong (seen.map .text) = true ↔ name ∈ seen := by
        simp [Value.isAmong, Value.same_text_iff]
      simp only [List.map_cons, Style.repeatedNames]
      split
      · rename_i repeated
        simp [among.mp repeated]
      · rename_i new
        rw [later]
        have absent : name ∉ seen := fun present => new (among.mpr present)
        simp only [List.nodup_cons, List.mem_cons, not_or]
        grind

section Described

variable {fields : List Field} {objects : List Members}

theorem mapM_described {α : Type} {step : Value → Except Fault α} (result : Field → α)
    (described : List.Forall₂ Field.DescribedBy fields objects)
    (each : ∀ field members, Field.DescribedBy field members →
      step (.object members) = .ok (result field)) :
    (objects.map .object).mapM step = .ok (fields.map result) := by
  induction described with
  | nil => rfl
  | @cons field members fields objects first _ ih =>
      simp only [List.map_cons, List.mapM_cons, each field members first, ih]
      rfl

/-- After a field with a default, the report is empty exactly when all fields have
one. -/
theorem misplacedFields_some_eq_nil_iff (described : List.Forall₂ Field.DescribedBy fields objects)
    (earlier : Value) :
    Style.misplacedFields (some earlier) (objects.map .object) = .ok [] ↔
      ∀ field ∈ fields, field.fallback ≠ none := by
  induction described with
  | nil => simp [Style.misplacedFields]
  | @cons field members fields objects first others ih =>
      simp only [List.map_cons, Style.misplacedFields, Value.membersOf, bind, Except.bind,
        first.isRequired, first.index_name, pure, Except.pure]
      cases fallback : field.fallback with
      | none =>
          simp only [Option.isNone_none]
          cases Style.misplacedFields (some earlier) (objects.map .object) <;> simp [fallback]
      | some value => simp [ih, fallback]

theorem misplacedFields_none_eq_nil_iff
    (described : List.Forall₂ Field.DescribedBy fields objects) :
    Style.misplacedFields none (objects.map .object) = .ok [] ↔
      fields.Pairwise fun earlier later => later.fallback = none → earlier.fallback = none := by
  induction described with
  | nil => simp [Style.misplacedFields]
  | @cons field members fields objects first others ih =>
      simp only [List.map_cons, Style.misplacedFields, Value.membersOf, bind, Except.bind,
        first.isRequired, first.index_name, List.pairwise_cons]
      cases fallback : field.fallback with
      | none => simp [ih]
      | some value =>
          simp only [Option.isNone_some, misplacedFields_some_eq_nil_iff others, reduceCtorEq,
            imp_false]
          constructor
          · intro complete
            refine ⟨complete, List.pairwise_of_forall_mem_list ?_⟩
            intro earlier _ later member missing
            exact absurd missing (complete later member)
          · exact fun both => both.1

end Described

namespace Style

open Schema in
theorem checkSchema_eq_nil_iff [Libraries] {style : Style} :
    style.checkSchema = .ok [] ↔
      (∃ characters, style.startSequence = .text characters) ∧
        (∃ characters, style.endSequence = .text characters) ∧
        (∃ characters, style.separator = .text characters) ∧
        Satisfies fieldsSchema style.fields := by
  unfold checkSchema
  cases found : best? fieldsSchema style.fields with
  | none =>
      simp only [pure, Except.pure, Except.ok.injEq, fieldReports_eq_nil_iff, List.forall_mem_cons,
        satisfies_string_iff, best?_eq_none_iff.mp found, and_true]
      simp
  | some violation =>
      constructor
      · intro accepted
        obtain ⟨name, _, reported⟩ := Result.bind_eq_ok_iff.mp accepted
        have lines := Report.arrange_eq_nil_iff.mp (Except.ok.inj reported)
        simp at lines
      · rintro ⟨_, _, _, satisfied⟩
        cases found.symm.trans (best?_eq_none_iff.mpr satisfied)

theorem asSet_texts (names : List String) :
    asSet (names.map .text) = .ok (names.map .text) := by
  induction names with
  | nil => rfl
  | cons name rest ih =>
      simp only [asSet] at ih
      simp only [asSet, List.map_cons, List.mapM_cons, ih]
      rfl

section Fields

variable {style : Style} {fields : List Field} {objects : List Members}
  (shape : style.fields = .list (objects.map .object))
  (described : List.Forall₂ Field.DescribedBy fields objects)
include shape described

theorem fieldNames_of_described : style.fieldNames = .ok ((fields.map Field.name).map .text) := by
  simp only [fieldNames, shape, Value.items, bind, Except.bind]
  rw [mapM_described (fun field => .text field.name) described
    fun _ _ described => described.index_name, List.map_map]
  rfl

theorem checkRequired_eq_nil_iff :
    style.checkRequired = .ok [] ↔ ∀ name ∈ requiredNames, name ∈ fields.map Field.name := by
  simp only [checkRequired, fieldNames_of_described shape described, asSet_texts, bind, Except.bind,
    pure, Except.pure, Except.ok.injEq, ite_eq_left_iff, reduceCtorEq, imp_false,
    Decidable.not_not, List.isEmpty_iff, List.filter_eq_nil_iff]
  refine forall₂_congr fun name _ => ?_
  simp [Value.isAmong, Value.same_text_iff]

theorem checkUnique_eq_nil_iff :
    style.checkUnique = .ok [] ↔ (fields.map Field.name).Nodup := by
  simp only [checkUnique, shape, Value.items, bind, Except.bind]
  rw [mapM_described (fun field => .text field.name) described]
  · have texts : (fields.map fun field => Value.text field.name) =
        (fields.map Field.name).map .text := by
      rw [List.map_map]
      rfl
    simp only [pure, Except.pure, Except.ok.injEq, texts]
    simpa using @repeatedNames_eq_nil_iff [] (fields.map Field.name)
  · intro field members described
    simp [described.index_name, Value.isScalar, pure, Except.pure]

theorem checkOrder_eq_nil_iff :
    style.checkOrder = .ok [] ↔
      fields.Pairwise fun earlier later => later.fallback = none → earlier.fallback = none := by
  simp only [checkOrder, shape, Value.items, bind, Except.bind]
  exact misplacedFields_none_eq_nil_iff described

end Fields

/-- The report on a style is empty exactly when no check reports anything. -/
theorem check_eq_nil_iff_parts [Libraries] {style : Style} :
    style.check = .ok [] ↔ style.checkSchema = .ok [] ∧ style.checkRequired = .ok [] ∧
      style.checkUnique = .ok [] ∧ style.checkOrder = .ok [] := by
  unfold check
  constructor
  · intro accepted
    obtain ⟨schema, isSchema, accepted⟩ := Result.bind_eq_ok_iff.mp accepted
    obtain ⟨required, isRequired, accepted⟩ := Result.bind_eq_ok_iff.mp accepted
    obtain ⟨unique, isUnique, accepted⟩ := Result.bind_eq_ok_iff.mp accepted
    obtain ⟨order, isOrder, accepted⟩ := Result.bind_eq_ok_iff.mp accepted
    have empty := Report.arrange_eq_nil_iff.mp (Except.ok.inj accepted)
    simp only [List.append_eq_nil_iff] at empty
    obtain ⟨⟨⟨rfl, rfl⟩, rfl⟩, rfl⟩ := empty
    exact ⟨isSchema, isRequired, isUnique, isOrder⟩
  · rintro ⟨isSchema, isRequired, isUnique, isOrder⟩
    rw [isSchema, isRequired, isUnique, isOrder]
    rfl

/-- A style that settings describe and that passes its checks has a layout, and every
need by it has a title and a type. -/
theorem exists_layout [Libraries] {settings : Value} {style : Style}
    (made : (Style.ofSettings settings).2 = .ok style) (accepted : style.check = .ok []) :
    ∃ layout objects, style.HasLayout layout objects ∧
      ∀ name ∈ requiredNames, name ∈ layout.names := by
  obtain ⟨schema, required, unique, order⟩ := check_eq_nil_iff_parts.mp accepted
  obtain ⟨⟨startSequence, starts⟩, ⟨endSequence, ends⟩, ⟨separator, divides⟩, satisfied⟩ :=
    checkSchema_eq_nil_iff.mp schema
  obtain ⟨objects, fields, shape, described⟩ :=
    exists_fields_of_satisfies satisfied (typesFilled_of_settings made)
  refine ⟨⟨startSequence, endSequence, separator, fields⟩, objects, ?_,
    (checkRequired_eq_nil_iff shape described).mp required⟩
  exact ⟨starts, ends, divides, shape, described, (checkUnique_eq_nil_iff shape described).mp unique,
    (checkOrder_eq_nil_iff shape described).mp order⟩

end Style

end Tracemark.OneLine
