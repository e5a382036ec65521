import Tracemark.Libraries.Reference
import Tracemark.Proofs.OneLine.Layout

/-!
# Accepted styles

A style is made of three values and of the fields that were given for it, whose types are filled
in. Its checks report nothing exactly when all of these are well-formed.
-/

set_option autoImplicit false

namespace Tracemark.OneLine

/-! ## Fields as they were given -/

/-- The members of a field with its type filled in. -/
def typed (members : Members) : Members :=
  if members.has "type" then members else members.put "type" (.text textType)

theorem fillTypes_objects (given : List Members) :
    fillTypes (.list (given.map .object)) = (.list ((given.map typed).map .object), none) := by
  have each : ∀ given : List Members,
      withTypes (given.map .object) = ((given.map typed).map .object, none) := by
    intro given
    induction given with
    | nil => rfl
    | cons members rest ih => simp [withTypes, withType, typed, ih]
  simp [fillTypes, each]

theorem get?_typed_type (members : Members) :
    (typed members).get? "type" = some ((members.get? "type").getD (.text textType)) := by
  unfold typed
  split
  · rename_i present
    rw [Members.has_iff_get?_isSome, Option.isSome_iff_exists] at present
    obtain ⟨type, found⟩ := present
    rw [found, Option.getD_some]
  · rename_i missing
    rw [Members.has_iff_get?_isSome, Option.not_isSome_iff_eq_none] at missing
    rw [Members.get?_put, if_pos rfl, missing, Option.getD_none]

theorem get?_typed_of_ne {key : String} (different : "type" ≠ key) (members : Members) :
    (typed members).get? key = members.get? key := by
  unfold typed
  split
  · rfl
  · rw [Members.get?_put, if_neg different]

theorem has_typed (members : Members) : (typed members).has "type" = true := by
  rw [Members.has_iff_get?_isSome, get?_typed_type]
  rfl

theorem forall_key_typed_iff {members : Members} :
    (∀ member ∈ typed members, member.1 ∈ Style.fieldKeys) ↔
      ∀ member ∈ members, member.1 ∈ Style.fieldKeys := by
  unfold typed
  split
  · rfl
  · exact Members.forall_key_put_iff (by decide)

/-- The members of a well-formed field, apart from its name: there are no others than the type
and the default, a type that is left out stands for one text, and a default fits the type. -/
structure IsField (members : Members) : Prop where
  keys : ∀ member ∈ members, member.1 ∈ ["name", "type", "default"]
  fits : ∃ kind : FieldKind, (members.get? "type").getD (.text textType) = .text kind.type ∧
    ∀ value, members.get? "default" = some value → kind.Admits value

theorem exists_described_typed {members : Members} {name : String}
    (named : members.get? "name" = some (.text name)) (isField : IsField members) :
    ∃ field, Field.DescribedBy field (typed members) := by
  obtain ⟨kind, isKind, admits⟩ := isField.fits
  refine ⟨⟨name, kind, members.get? "default"⟩, ?_, ?_, ?_, admits⟩
  · rw [get?_typed_of_ne (by decide), named]
  · rw [get?_typed_type, isKind]
  · rw [get?_typed_of_ne (by decide)]

/-- Objects with names satisfy the schema of fields exactly when they are well-formed. -/
theorem satisfies_typed_iff {members : Members} {name : String}
    (named : members.get? "name" = some (.text name)) :
    Schema.Satisfies Style.fieldSchema (.object (typed members)) ↔ IsField members := by
  rw [satisfies_fieldSchema_iff (has_typed members), forall_key_typed_iff]
  constructor
  · rintro ⟨⟨field, described⟩, keys⟩
    refine ⟨keys, field.kind, ?_, ?_⟩
    · exact Option.some.inj ((get?_typed_type members).symm.trans described.type)
    · intro value found
      refine described.admitted value (described.fallback.symm.trans ?_)
      rw [get?_typed_of_ne (by decide), found]
  · intro isField
    exact ⟨exists_described_typed named isField, isField.keys⟩

section Described

variable {given : List Members} {names : List String}
  (named : given.map (fun members => members.get? "name") = names.map fun name => some (.text name))
include named

theorem exists_name_of_mem {members : Members} (member : members ∈ given) :
    ∃ name, members.get? "name" = some (.text name) := by
  have inNames : members.get? "name" ∈ given.map fun members => members.get? "name" :=
    List.mem_map_of_mem member
  rw [named] at inNames
  obtain ⟨name, _, isName⟩ := List.mem_map.mp inNames
  exact ⟨name, isName.symm⟩

/-- The fields that well-formed objects describe have their names and defaults. -/
theorem exists_described_fields (areFields : ∀ members ∈ given, IsField members) :
    ∃ fields, List.Forall₂ Field.DescribedBy fields (given.map typed) ∧
      fields.map Field.name = names ∧
      fields.map Field.fallback = given.map fun members => members.get? "default" := by
  induction given generalizing names with
  | nil =>
      rw [List.map_nil, eq_comm, List.map_eq_nil_iff] at named
      exact ⟨[], .nil, named.symm, rfl⟩
  | cons members rest ih =>
      cases names with
      | nil => cases named
      | cons name names =>
          simp only [List.map_cons, List.cons.injEq] at named
          obtain ⟨isField, others⟩ := List.forall_mem_cons.mp areFields
          obtain ⟨field, described⟩ := exists_described_typed named.1 isField
          obtain ⟨fields, areDescribed, areNames, areDefaults⟩ := ih named.2 others
          refine ⟨field :: fields, .cons described areDescribed, ?_, ?_⟩
          · have isName := described.name
            rw [get?_typed_of_ne (by decide), named.1, Option.some.injEq, Value.text.injEq] at isName
            rw [List.map_cons, ← isName, areNames]
          · have isDefault := described.fallback
            rw [get?_typed_of_ne (by decide)] at isDefault
            rw [List.map_cons, List.map_cons, isDefault, areDefaults]

end Described

/-! ## Styles -/

namespace Style

/-- What a style and the fields given for it have to be. -/
structure IsWellFormed (style : Style) (given : List Members) (names : List String) : Prop where
  startSequence : ∃ characters, style.startSequence = .text characters
  endSequence : ∃ characters, style.endSequence = .text characters
  separator : ∃ characters, style.separator = .text characters
  fields : ∀ members ∈ given, IsField members
  required : "title" ∈ names ∧ "type" ∈ names
  distinct : names.Nodup
  ordered : given.Pairwise fun earlier later =>
    later.get? "default" = none → earlier.get? "default" = none

theorem satisfies_fieldsSchema_iff {given : List Members} {names : List String}
    (named : given.map (fun members => members.get? "name") =
      names.map fun name => some (.text name)) :
    Schema.Satisfies fieldsSchema (.list ((given.map typed).map .object)) ↔
      ∀ members ∈ given, IsField members := by
  have each : ∀ members ∈ given,
      (Schema.Satisfies fieldSchema (.object (typed members)) ↔ IsField members) := by
    intro members member
    obtain ⟨name, isName⟩ := exists_name_of_mem named member
    exact satisfies_typed_iff isName
  simp only [fieldsSchema, Schema.Satisfies, Schema.Keyword.Holds, List.mem_singleton,
    exists_eq_left, Schema.holds_array_iff, Value.list.injEq, exists_eq', forall_eq',
    List.forall_mem_map, true_and, and_true]
  exact forall₂_congr each

theorem pairwise_defaults_iff {fields : List Field} {given : List Members}
    (same : fields.map Field.fallback = given.map fun members => members.get? "default") :
    (fields.Pairwise fun earlier later => later.fallback = none → earlier.fallback = none) ↔
      given.Pairwise fun earlier later =>
        later.get? "default" = none → earlier.get? "default" = none := by
  have mapped := congrArg
    (List.Pairwise fun earlier later : Option Value => later = none → earlier = none) same
  simpa only [List.pairwise_map, eq_iff_iff] using mapped

/-- What the checks after the schema ask of well-formed fields. -/
theorem later_checks_iff {style : Style} {given : List Members} {names : List String}
    (shape : style.fields = .list ((given.map typed).map .object))
    (named : given.map (fun members => members.get? "name") =
      names.map fun name => some (.text name))
    (areFields : ∀ members ∈ given, IsField members) :
    (style.checkRequired = .ok [] ↔ "title" ∈ names ∧ "type" ∈ names) ∧
      (style.checkUnique = .ok [] ↔ names.Nodup) ∧
      (style.checkOrder = .ok [] ↔ given.Pairwise fun earlier later =>
        later.get? "default" = none → earlier.get? "default" = none) := by
  obtain ⟨fields, described, areNames, areDefaults⟩ := exists_described_fields named areFields
  refine ⟨?_, ?_, ?_⟩
  · rw [checkRequired_eq_nil_iff shape described, areNames]
    simp [requiredNames]
  · rw [checkUnique_eq_nil_iff shape described, areNames]
  · rw [checkOrder_eq_nil_iff shape described]
    exact pairwise_defaults_iff areDefaults

/-- The checks accept exactly the well-formed styles. The fields are objects with a text for a
name, and everything else in them, as the rest of the style, may be any value. -/
theorem check_eq_nil_iff [Libraries] {style : Style} {given : List Members} {names : List String}
    (filled : style.fields = (fillTypes (.list (given.map .object))).1)
    (named : given.map (fun members => members.get? "name") =
      names.map fun name => some (.text name)) :
    style.check = .ok [] ↔ style.IsWellFormed given names := by
  have shape : style.fields = .list ((given.map typed).map .object) :=
    filled.trans (congrArg Prod.fst (fillTypes_objects given))
  rw [check_eq_nil_iff_parts, checkSchema_eq_nil_iff, shape, satisfies_fieldsSchema_iff named]
  constructor
  · rintro ⟨⟨starts, ends, divides, areFields⟩, required, unique, order⟩
    obtain ⟨requiredIff, uniqueIff, orderIff⟩ := later_checks_iff shape named areFields
    exact ⟨starts, ends, divides, areFields, requiredIff.mp required, uniqueIff.mp unique,
      orderIff.mp order⟩
  · rintro ⟨starts, ends, divides, areFields, required, unique, order⟩
    obtain ⟨requiredIff, uniqueIff, orderIff⟩ := later_checks_iff shape named areFields
    exact ⟨⟨starts, ends, divides, areFields⟩, requiredIff.mpr required, uniqueIff.mpr unique,
      orderIff.mpr order⟩

/-- Of two styles that differ in one default only, the one whose default does not fit its type is
refused. -/
theorem check_of_list_default :
    let given (value : Value) : List Members :=
      [[("name", .text "title")], [("name", .text "type"), ("default", .text "impl")],
        [("default", value), ("name", .text "links"), ("type", .text "list[str]")]]
    let style (value : Value) : Style :=
      { fields := (fillTypes (.list ((given value).map .object))).1 }
    (style (.list [.text "A", .text "B"])).check = .ok [] ∧
      (style (.text "A")).check ≠ .ok [] := by
  intro given style
  have named : ∀ value, (given value).map (fun members => Members.get? members "name") =
      ["title", "type", "links"].map fun name => some (.text name) := fun _ => rfl
  refine ⟨(check_eq_nil_iff rfl (named _)).mpr ⟨⟨_, rfl⟩, ⟨_, rfl⟩, ⟨_, rfl⟩, ?_, ?_, ?_, ?_⟩, ?_⟩
  · simp only [given, List.forall_mem_cons, List.not_mem_nil, false_imp_iff, implies_true, and_true]
    refine ⟨⟨by simp, .text, rfl, ?_⟩, ⟨by simp, .text, rfl, ?_⟩, ⟨by simp, .list, rfl, ?_⟩⟩
    · rintro value ⟨⟩
    · rintro value ⟨⟩
      exact ⟨"impl", rfl⟩
    · rintro value ⟨⟩
      exact ⟨["A", "B"], rfl⟩
  · simp
  · simp
  · simp [given, Members.get?]
  · intro accepted
    have wellFormed := (check_eq_nil_iff rfl (named _)).mp accepted
    obtain ⟨kind, isKind, admits⟩ := (wellFormed.fields _ (List.mem_of_getElem? (i := 2) rfl)).fits
    have isText := admits (.text "A") rfl
    cases kind with
    | text => simp [Members.get?, FieldKind.type, textType] at isKind
    | list => simp [FieldKind.Admits, Value.IsTextList] at isText

end Style

end Tracemark.OneLine
