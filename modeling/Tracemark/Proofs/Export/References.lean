import Tracemark.Proofs.Export.Acceptance

/-!
# Sound references

A stored object that refers to needs is checked for the names of its members, for their
schemas and for what a reference requires. Nothing is reported of it exactly when all of
its members are what they have to be.
-/

set_option autoImplicit false

namespace Tracemark

namespace Members

variable {members : Members} {key : String} {fits : Value → Prop}

theorem exists_get?_iff :
    (∃ value, members.get? key = some value ∧ fits value) ↔
      members.has key = true ∧ ∀ value, members.get? key = some value → fits value := by
  rw [has_iff_get?_isSome]
  cases members.get? key <;> simp

theorem has_of_get? {value : Value} (found : members.get? key = some value) :
    members.has key = true := by
  rw [has_iff_get?_isSome, found, Option.isSome_some]

theorem exists_get?_of_getD (present : members.has key = true)
    (isFit : fits ((members.get? key).getD .null)) :
    ∃ value, members.get? key = some value ∧ fits value := by
  rw [has_iff_get?_isSome, Option.isSome_iff_exists] at present
  obtain ⟨value, found⟩ := present
  rw [found, Option.getD_some] at isFit
  exact ⟨value, found, isFit⟩

theorem getD_null_eq_iff {value : Value} (some : value ≠ .null) :
    (members.get? key).getD .null = value ↔ members.get? key = .some value := by
  cases members.get? key with
  | none => simpa using some.symm
  | some other => simp

theorem getD_null_iff (nothing : fits .null) :
    fits ((members.get? key).getD .null) ↔ ∀ value, members.get? key = some value → fits value := by
  cases members.get? key with
  | none => simpa using nothing
  | some other => simp

end Members

namespace Export

/-- A whole number, in either of the two ways in which it can be written. -/
def IsWhole (value : Value) : Prop :=
  (∃ number, value = .int number) ∨ ∃ number, value = .real number ∧ number.isWhole = true

def IsPosition (value : Value) : Prop :=
  ∃ members : Members, value = .object members ∧
    (∃ row, members.get? "row" = some row ∧ IsWhole row) ∧
    ∃ column, members.get? "column" = some column ∧ IsWhole column

/-- The two places between which something stands, and nothing else. -/
def IsSourceMap (value : Value) : Prop :=
  ∃ members : Members, value = .object members ∧
    (∀ member ∈ members, member.1 = "start" ∨ member.1 = "end") ∧
    (∃ start, members.get? "start" = some start ∧ IsPosition start) ∧
    ∃ stop, members.get? "end" = some stop ∧ IsPosition stop

def IsOptionalText (value : Value) : Prop :=
  value = .null ∨ ∃ text, value = .text text

def IsOptionalNeed (value : Value) : Prop :=
  value = .null ∨ ∃ members : Members, value = .object members ∧
    (∃ title, members.get? "title" = some (.text title)) ∧
    ∃ id, members.get? "id" = some (.text id)

/-- The members of a stored reference to the ids, with the link to the place of the reference. -/
structure IsSound (members : Members) (ids : List String) (link : String) : Prop where
  keys : ∀ member ∈ members, member.1 ∈ ["filepath", "remote_url", "source_map", "tagged_scope",
    "type", "marker", "need_ids", "need", "rst"]
  filepath : ∃ path, members.get? "filepath" = some (.text path)
  remoteUrl : members.get? "remote_url" = some (.text link)
  sourceMap : ∃ sourceMap, members.get? "source_map" = some sourceMap ∧ IsSourceMap sourceMap
  taggedScope : ∃ scope, members.get? "tagged_scope" = some scope ∧ IsOptionalText scope
  marker : ∃ marker, members.get? "marker" = some (.text marker) ∧ marker ≠ ""
  needIds : members.get? "need_ids" = some (.list (ids.map .text))
  needIds_ne_nil : ids ≠ []
  need : ∀ need, members.get? "need" = some need → IsOptionalNeed need
  rst : ∀ rst, members.get? "rst" = some rst → IsOptionalText rst

/-! ## Schemas -/

open Schema

theorem satisfies_integer_iff {value : Value} :
    Satisfies [.types [.integer]] value ↔ IsWhole value := by
  cases value <;> simp [Satisfies, Keyword.Holds, TypeName.holds, IsWhole]

theorem satisfies_isOptionalText_iff {value : Value} :
    Satisfies [.types [.string, .null]] value ↔ IsOptionalText value := by
  cases value <;> simp [Satisfies, Keyword.Holds, TypeName.holds, IsOptionalText]

/-- Two members that are required and have schemas, followed by other conditions. -/
theorem holds_two_members {members : Members} {first second : String}
    {firstSchema secondSchema : List Keyword} {others : Prop} :
    (Keyword.properties [(first, firstSchema), (second, secondSchema)]).Holds (.object members) ∧
        (Keyword.required [first, second]).Holds (.object members) ∧ others ↔
      (∃ value, members.get? first = some value ∧ Satisfies firstSchema value) ∧
        (∃ value, members.get? second = some value ∧ Satisfies secondSchema value) ∧ others := by
  simp only [Members.exists_get?_iff, Keyword.Holds, PropertiesHold, Value.object.injEq, forall_eq',
    List.forall_mem_cons, List.not_mem_nil, false_imp_iff, implies_true, and_true]
  tauto

theorem satisfies_positionSchema_iff {value : Value} :
    Satisfies StoredEntry.positionSchema value ↔ IsPosition value := by
  cases value with
  | object members =>
      have isObject : (Keyword.types [.object]).Holds (.object members) := ⟨.object, by simp, rfl⟩
      simp only [StoredEntry.positionSchema, Satisfies]
      rw [holds_two_members]
      simp only [isObject, satisfies_integer_iff, IsPosition, Value.object.injEq, exists_eq_left',
        true_and, and_true]
  | _ => simp [StoredEntry.positionSchema, Satisfies, Keyword.Holds, TypeName.holds, IsPosition]

theorem satisfies_sourceMapSchema_iff {value : Value} :
    Satisfies StoredEntry.sourceMapSchema value ↔ IsSourceMap value := by
  cases value with
  | object members =>
      have isObject : (Keyword.types [.object]).Holds (.object members) := ⟨.object, by simp, rfl⟩
      have onlyPlaces : (Keyword.onlyProperties ["start", "end"]).Holds (.object members) ↔
          ∀ member ∈ members, member.1 = "start" ∨ member.1 = "end" := by
        simp [Keyword.Holds]
      simp only [StoredEntry.sourceMapSchema, Satisfies]
      rw [holds_two_members]
      simp only [isObject, onlyPlaces, satisfies_positionSchema_iff, IsSourceMap,
        Value.object.injEq, exists_eq_left', true_and, and_true]
      tauto
  | _ => simp [StoredEntry.sourceMapSchema, Satisfies, Keyword.Holds, TypeName.holds, IsSourceMap]

theorem exists_text_iff {members : Members} {key : String} :
    (∃ value, members.get? key = some value ∧ Satisfies [.types [.string]] value) ↔
      ∃ text, members.get? key = some (.text text) := by
  simp only [satisfies_string_iff]
  constructor
  · intro given
    obtain ⟨_, found, text, rfl⟩ := given
    exact ⟨text, found⟩
  · intro given
    obtain ⟨text, found⟩ := given
    exact ⟨_, found, text, rfl⟩

theorem satisfies_needSchema_iff {value : Value} :
    Satisfies StoredEntry.needSchema value ↔ IsOptionalNeed value := by
  cases value with
  | object members =>
      have isObject : (Keyword.types [.object, .null]).Holds (.object members) :=
        ⟨.object, by simp, rfl⟩
      simp only [StoredEntry.needSchema, Satisfies]
      rw [holds_two_members]
      simp only [isObject, exists_text_iff, IsOptionalNeed, Value.object.injEq, exists_eq_left',
        reduceCtorEq, false_or, true_and, and_true]
  | _ => simp [StoredEntry.needSchema, Satisfies, Keyword.Holds, TypeName.holds, IsOptionalNeed]

theorem satisfies_needIds_iff {value : Value} :
    Satisfies [.types [.array, .null], .items [.types [.string]]] value ↔
      value = .null ∨ value.IsTextList := by
  rw [← satisfies_texts_iff]
  cases value <;> simp [texts, Satisfies, Keyword.Holds, TypeName.holds]

/-! ## Members of a reference -/

def entryOf (members : Members) : StoredEntry :=
  let part (name : String) : Value := (members.get? name).getD .null
  { filepath := part "filepath"
    remoteUrl := part "remote_url"
    sourceMap := part "source_map"
    taggedScope := part "tagged_scope"
    type := part "type"
    marker := part "marker"
    needIds := part "need_ids"
    need := part "need"
    rst := part "rst" }

theorem ofMembers_eq_ok_iff {members : Members} {entry : StoredEntry} :
    StoredEntry.ofMembers members = .ok entry ↔
      (∀ member ∈ members, member.1 ∈ StoredEntry.requiredNames ++ StoredEntry.optionalNames) ∧
        (∀ name ∈ StoredEntry.requiredNames, members.has name = true) ∧
        entryOf members = entry := by
  have present : (StoredEntry.requiredNames.filter fun name => !members.has name).isEmpty = true ↔
      ∀ name ∈ StoredEntry.requiredNames, members.has name = true := by
    simp
  rw [StoredEntry.ofMembers, Result.bind_eq_ok_iff, ← present]
  constructor
  · intro made
    obtain ⟨_, known, complete⟩ := made
    dsimp only at complete
    split at complete
    · rename_i empty
      cases complete
      exact ⟨refuseUnknown_eq_ok_iff.mp known, empty, rfl⟩
    · cases complete
  · intro described
    obtain ⟨known, empty, rfl⟩ := described
    refine ⟨(), refuseUnknown_eq_ok_iff.mpr known, ?_⟩
    dsimp only
    rw [if_pos empty]
    rfl

section Entry

variable {members : Members} (isReference : members.get? "type" = some (.text referenceType))
include isReference

theorem type_entryOf : (entryOf members).type = .text referenceType := by
  simp [entryOf, isReference]

theorem checkSchema_entryOf_eq_nil_iff [Libraries] :
    (entryOf members).checkSchema = [] ↔
      (∃ path, (entryOf members).filepath = .text path) ∧
        (∃ link, (entryOf members).remoteUrl = .text link) ∧
        IsSourceMap (entryOf members).sourceMap ∧ IsOptionalText (entryOf members).taggedScope ∧
        IsOptionalText (entryOf members).marker ∧
        ((entryOf members).needIds = .null ∨ (entryOf members).needIds.IsTextList) ∧
        IsOptionalNeed (entryOf members).need ∧ IsOptionalText (entryOf members).rst := by
  have typed : Satisfies [.types [.string], .oneOfTexts [needType, referenceType, blockType]]
      (Value.text referenceType) :=
    (schemaViolations_eq_nil_iff true _ _).mp rfl
  simp only [StoredEntry.checkSchema, fieldReports_eq_nil_iff, List.forall_mem_cons,
    List.not_mem_nil, false_implies, implies_true, satisfies_string_iff,
    satisfies_sourceMapSchema_iff, satisfies_isOptionalText_iff, type_entryOf isReference, typed,
    satisfies_needIds_iff, satisfies_needSchema_iff, true_and, and_true]

theorem checkRequired_entryOf_eq_nil_iff :
    (entryOf members).checkRequired = [] ↔
      (entryOf members).marker.truthy = true ∧ (entryOf members).needIds.truthy = true := by
  have notNeed : (entryOf members).hasType needType = false := by
    rw [StoredEntry.hasType, type_entryOf isReference]
    rfl
  have isReferenceType : (entryOf members).hasType referenceType = true := by
    rw [StoredEntry.hasType, type_entryOf isReference]
    rfl
  simp [StoredEntry.checkRequired, notNeed, isReferenceType]

end Entry

theorem optionalText_and_truthy_iff {value : Value} :
    IsOptionalText value ∧ value.truthy = true ↔ ∃ text, value = .text text ∧ text ≠ "" := by
  cases value <;> simp [IsOptionalText, Value.truthy]

theorem optionalTexts_and_truthy_iff {value : Value} :
    (value = .null ∨ value.IsTextList) ∧ value.truthy = true ↔
      ∃ texts : List String, value = .list (texts.map .text) ∧ texts ≠ [] := by
  constructor
  · intro given
    obtain ⟨rfl | ⟨texts, rfl⟩, truthy⟩ := given
    · cases truthy
    · refine ⟨texts, rfl, ?_⟩
      intro empty
      rw [empty] at truthy
      cases truthy
  · intro given
    obtain ⟨texts, rfl, some⟩ := given
    exact ⟨.inr ⟨texts, rfl⟩, by simpa [Value.truthy] using some⟩

/-- Nothing is reported of a reference exactly when it is sound. -/
theorem reportOn_eq_nil_iff_isSound [Libraries] {members : Members}
    (isReference : members.get? "type" = some (.text referenceType)) :
    reportOn (.object members) = [] ↔ ∃ ids link, IsSound members ids link := by
  constructor
  · intro silent
    cases made : StoredEntry.ofMembers members with
    | error cause => simp [reportOn, made] at silent
    | ok entry =>
        obtain ⟨schema, required⟩ := (reportOn_eq_nil_iff made).mp silent
        obtain ⟨known, present, rfl⟩ := ofMembers_eq_ok_iff.mp made
        obtain ⟨⟨path, isPath⟩, ⟨link, isLink⟩, isMap, isScope, isMarker, areIds, isNeed, isRst⟩ :=
          (checkSchema_entryOf_eq_nil_iff isReference).mp schema
        obtain ⟨hasMarker, hasIds⟩ := (checkRequired_entryOf_eq_nil_iff isReference).mp required
        obtain ⟨marker, markerIs, someMarker⟩ :=
          optionalText_and_truthy_iff.mp ⟨isMarker, hasMarker⟩
        obtain ⟨ids, idsAre, someIds⟩ := optionalTexts_and_truthy_iff.mp ⟨areIds, hasIds⟩
        -- A member that is absent is read as null, so only what excludes null shows that a member
        -- is there; the scope and the source map are among the required names.
        exact ⟨ids, link,
          { keys := known
            filepath := ⟨path, (Members.getD_null_eq_iff (by simp)).mp isPath⟩
            remoteUrl := (Members.getD_null_eq_iff (by simp)).mp isLink
            sourceMap := Members.exists_get?_of_getD (present "source_map" (by decide)) isMap
            taggedScope := Members.exists_get?_of_getD (present "tagged_scope" (by decide)) isScope
            marker := ⟨marker, (Members.getD_null_eq_iff (by simp)).mp markerIs, someMarker⟩
            needIds := (Members.getD_null_eq_iff (by simp)).mp idsAre
            needIds_ne_nil := someIds
            need := (Members.getD_null_iff (.inl rfl)).mp isNeed
            rst := (Members.getD_null_iff (.inl rfl)).mp isRst }⟩
  · intro isSound
    obtain ⟨ids, link, sound⟩ := isSound
    obtain ⟨path, isPath⟩ := sound.filepath
    obtain ⟨sourceMap, mapFound, isMap⟩ := sound.sourceMap
    obtain ⟨scope, scopeFound, isScope⟩ := sound.taggedScope
    obtain ⟨marker, markerFound, someMarker⟩ := sound.marker
    have present : ∀ name ∈ StoredEntry.requiredNames, members.has name = true := by
      simp only [StoredEntry.requiredNames, List.forall_mem_cons, List.not_mem_nil, false_implies,
        implies_true, and_true]
      exact ⟨Members.has_of_get? isPath, Members.has_of_get? sound.remoteUrl,
        Members.has_of_get? mapFound, Members.has_of_get? scopeFound,
        Members.has_of_get? isReference⟩
    obtain ⟨isMarker, hasMarker⟩ := optionalText_and_truthy_iff.mpr ⟨marker, rfl, someMarker⟩
    obtain ⟨areIds, hasIds⟩ := optionalTexts_and_truthy_iff.mpr ⟨ids, rfl, sound.needIds_ne_nil⟩
    apply (reportOn_eq_nil_iff (ofMembers_eq_ok_iff.mpr ⟨sound.keys, present, rfl⟩)).mpr
    rw [checkSchema_entryOf_eq_nil_iff isReference, checkRequired_entryOf_eq_nil_iff isReference]
    simp only [entryOf, isPath, sound.remoteUrl, mapFound, scopeFound, markerFound, sound.needIds,
      Option.getD_some]
    exact ⟨⟨⟨path, rfl⟩, ⟨link, rfl⟩, isMap, isScope, isMarker, areIds,
      (Members.getD_null_iff (.inl rfl)).mpr sound.need,
      (Members.getD_null_iff (.inl rfl)).mpr sound.rst⟩, hasMarker, hasIds⟩

end Export

end Tracemark
