import Mathlib.Data.List.Nodup
import Mathlib.Data.Set.List
import Tracemark.Proofs.OneLine.Layout
import Tracemark.Proofs.Schema.Reported

/-!
# Reports on styles

The checks of a style end in a report or in a fault. A report on the schema of the fields names a
field, and looks it up by the first step of the violation's place. That step is a position among
the fields, unless the report went on to the alternatives of a default: then it is a position
among the items of that default, which may lie beyond the fields.
-/

set_option autoImplicit false

namespace Tracemark.OneLine

open Schema

/-! ## Violations of a field -/

/-- The kind of value that a default has to be. -/
def FieldKind.shape : FieldKind → TypeName
  | .text => .string
  | .list => .array

def defaultSchemas : List (List Keyword) :=
  [[.types [.string]], Schema.texts]

/-- The ways in which a field violates its schema: where, whether for want of an alternative, and
the violations of the alternatives. -/
inductive Misfit (members : Members) : List Step → Bool → List Violation → Prop where
  | unnamed : members.has "name" = false → Misfit members [] false []
  | unknown {member} : member ∈ members → member.1 ∉ Style.fieldKeys → Misfit members [] false []
  | name {value} :
      members.get? "name" = some value → TypeName.string.holds value = false →
      Misfit members [.key "name"] false []
  | type {value} :
      members.get? "type" = some value → (∀ kind : FieldKind, value ≠ .text kind.type) →
      Misfit members [.key "type"] false []
  | choice {value alternatives} :
      members.get? "default" = some value →
      branchViolations defaultSchemas value = some alternatives →
      Misfit members [.key "default"] true alternatives
  | shape (kind : FieldKind) {value} :
      members.get? "type" = some (.text kind.type) → members.get? "default" = some value →
      kind.shape.holds value = false → Misfit members [.key "default"] false []
  | item {items position item} :
      members.get? "type" = some (.text listType) → members.get? "default" = some (.list items) →
      items[position]? = some item → TypeName.string.holds item = false →
      Misfit members [.key "default", .index position] false []

theorem finds_fieldSchema_iff {members : Members} {place : List Step} {isAlternative : Bool}
    {alternatives : List Violation} (typed : members.has "type" = true) :
    Finds (violations Style.fieldSchema (.object members)) place isAlternative alternatives ↔
      Misfit members place isAlternative alternatives := by
  rw [Members.has_iff_get?_isSome, Option.isSome_iff_exists] at typed
  obtain ⟨type, foundType⟩ := typed
  simp only [violations, Style.fieldSchema, Schema.texts, finds_schema_cons_iff, finds_types_iff,
    finds_properties_iff, finds_required_iff, finds_onlyProperties_iff, finds_whenMember_iff,
    finds_anyOf_iff, finds_oneOfTexts_iff, finds_items_iff, not_finds_schema_nil, or_false,
    List.exists_mem_cons_iff, List.mem_singleton, forall_eq, exists_eq_left, foundType,
    Option.some.injEq, forall_eq']
  constructor
  · rintro (⟨noObject, _⟩ |
      (⟨_, _, found, rfl, noText, rfl, rfl, rfl⟩ | ⟨_, _, rfl, rfl, unknown⟩ |
        ⟨_, _, found, rfl, fails, rfl, rfl⟩) |
      ⟨missing, rfl, rfl, rfl⟩ | ⟨⟨_, isMember, unknown⟩, rfl, rfl, rfl⟩ |
      ⟨rfl, _, _, found, rfl, wrong⟩ | ⟨rfl, _, _, found, rfl, noText, rfl, rfl, rfl⟩)
    · cases noObject
    · exact .name found noText
    · rcases unknown with ⟨noText, rfl, rfl, rfl⟩ | ⟨others, rfl, rfl, rfl⟩
      · refine .type foundType ?_
        rintro kind rfl
        cases noText
      · refine .type foundType ?_
        intro kind
        apply others
        cases kind <;> simp [FieldKind.type]
    · exact .choice found fails
    · exact .unnamed missing
    · exact .unknown isMember unknown
    · rcases wrong with ⟨noList, rfl, rfl, rfl⟩ |
        ⟨_, _, _, _, rfl, isItem, rfl, noText, rfl, rfl, rfl⟩
      · exact .shape .list foundType found noList
      · exact .item foundType found isItem noText
    · exact .shape .text foundType found noText
  · intro misfit
    cases misfit with
    | unnamed missing => simp [missing]
    | unknown isMember unknown => exact .inr (.inr (.inr (.inl ⟨⟨_, isMember, unknown⟩, rfl, rfl, rfl⟩)))
    | name found noText => simp [found, noText]
    | type found unknown =>
        obtain rfl := Option.some.inj (foundType.symm.trans found)
        have others : ∀ text ∈ [textType, listType], type ≠ .text text := by
          simpa using ⟨unknown .text, unknown .list⟩
        exact .inr (.inl (.inr (.inl ⟨type, [], rfl, rfl, .inr ⟨others, rfl, rfl, rfl⟩⟩)))
    | choice found fails => exact .inr (.inl (.inr (.inr ⟨_, [], found, rfl, fails, rfl, rfl⟩)))
    | shape kind typed found misfits =>
        obtain rfl := Option.some.inj (foundType.symm.trans typed)
        cases kind with
        | text =>
            exact .inr (.inr (.inr (.inr (.inr ⟨rfl, _, [], found, rfl, misfits, rfl, rfl, rfl⟩))))
        | list =>
            exact .inr (.inr (.inr (.inr (.inl ⟨rfl, _, [], found, rfl, .inl
              ⟨misfits, rfl, rfl, rfl⟩⟩))))
    | item typed found isItem noText =>
        obtain rfl := Option.some.inj (foundType.symm.trans typed)
        simp [found, isItem, noText]

theorem finds_fieldsSchema_iff {objects : List Members} {place : List Step} {isAlternative : Bool}
    {alternatives : List Violation} (typed : ∀ members ∈ objects, members.has "type" = true) :
    Finds (violations Style.fieldsSchema (.list (objects.map .object))) place isAlternative
        alternatives ↔
      ∃ position members rest, objects[position]? = some members ∧
        place = .index position :: rest ∧ Misfit members rest isAlternative alternatives := by
  have isList : TypeName.array.holds (.list (objects.map .object)) = true := rfl
  simp only [violations, Style.fieldsSchema, finds_schema_cons_iff, finds_types_iff, finds_items_iff,
    not_finds_schema_nil, List.mem_singleton, forall_eq, isList, Bool.true_eq_false, false_and,
    false_or, or_false, Value.list.injEq]
  constructor
  · rintro ⟨_, position, _, rest, rfl, isItem, rfl, found⟩
    rw [List.getElem?_map, Option.map_eq_some_iff] at isItem
    obtain ⟨members, isField, rfl⟩ := isItem
    have typed := typed members (List.mem_of_getElem? isField)
    exact ⟨position, members, rest, isField, rfl, (finds_fieldSchema_iff typed).mp found⟩
  · rintro ⟨position, members, rest, isField, rfl, misfit⟩
    have typed := typed members (List.mem_of_getElem? isField)
    have isItem : (objects.map Value.object)[position]? = some (.object members) := by
      rw [List.getElem?_map, isField, Option.map_some]
    exact ⟨_, position, _, rest, rfl, isItem, rfl, (finds_fieldSchema_iff typed).mpr misfit⟩

/-! ## Defaults with items that are no texts -/

theorem not_holds_string_iff {value : Value} :
    TypeName.string.holds value = false ↔ ∀ characters, value ≠ .text characters := by
  rw [← Bool.not_eq_true, holds_string_iff, not_exists]

theorem places_of_items (fits : Bool) (items : List Value) :
    (keywordViolations fits (.items [.types [.string]]) (.list items)).map Violation.place =
      (items.zipIdx.filter fun entry => !TypeName.string.holds entry.1).map
        fun entry => [.index entry.2] := by
  rw [keywordViolations]
  induction items.zipIdx with
  | nil => rfl
  | cons entry rest ih =>
      obtain ⟨item, position⟩ := entry
      rw [List.flatMap_cons, List.map_append, ih, List.filter_cons]
      cases isText : TypeName.string.holds item with
      | true => simp [schemaViolations, keywordViolations, isText]
      | false =>
          simp [schemaViolations, keywordViolations, isText, Violation.under, Violation.place]

theorem nodup_places_of_items (fits : Bool) (items : List Value) :
    ((keywordViolations fits (.items [.types [.string]]) (.list items)).map Violation.place).Nodup := by
  have positions : (items.zipIdx.map Prod.snd).Nodup := by
    rw [List.zipIdx_map_snd]
    exact List.nodup_range'
  have kept := positions.sublist
    ((List.filter_sublist (p := fun entry => !TypeName.string.holds entry.1)).map Prod.snd)
  have single : Function.Injective fun position : Nat => [Step.index position] := by
    intro left right same
    simpa using same
  rw [places_of_items]
  have mapped := List.Nodup.map single kept
  rw [List.map_map] at mapped
  exact mapped

/-- What is found of a list in the place of a default: it is no text, and some items are none. -/
theorem alternatives_of_list {items : List Value} {alternatives : List Violation}
    (fails : branchViolations defaultSchemas (.list items) = some alternatives) :
    (alternatives.map Violation.place).Nodup ∧
      ∀ place isAlternative others, Finds alternatives place isAlternative others ↔
        (place = [] ∨ ∃ position item, items[position]? = some item ∧
          TypeName.string.holds item = false ∧ place = [.index position]) ∧
        isAlternative = false ∧ others = [] := by
  obtain ⟨_, later, rfl⟩ := branchViolations_cons_eq_some fails
  obtain ⟨_, last, rfl⟩ := branchViolations_cons_eq_some later
  obtain rfl := Option.some.inj last
  have noText : TypeName.string.holds (.list items) = false := rfl
  have isList : TypeName.array.holds (.list items) = true := rfl
  constructor
  · have own : ∀ fits, (keywordViolations fits (.types [.string]) (.list items)).map
        Violation.place = [[]] := by
      intro fits
      simp [keywordViolations, noText, Violation.place]
    have none : ∀ fits, keywordViolations fits (.types [.array]) (.list items) = [] := by
      intro fits
      simp [keywordViolations, isList]
    simp only [violations, Schema.texts, schemaViolations, List.append_nil, List.map_append, own,
      none, List.nil_append, List.singleton_append, List.nodup_cons]
    refine ⟨?_, nodup_places_of_items _ items⟩
    simp [places_of_items]
  · intro place isAlternative others
    simp only [violations, Schema.texts, finds_append_iff, finds_schema_cons_iff, finds_types_iff,
      finds_items_iff, not_finds_schema_nil, not_finds_nil, List.mem_singleton, forall_eq, noText,
      isList, Value.list.injEq, Bool.true_eq_false, true_and, false_and, false_or, or_false]
    constructor
    · rintro (⟨rfl, rfl, rfl⟩ | ⟨_, position, item, _, rfl, isItem, rfl, loose, rfl, rfl, rfl⟩)
      · exact ⟨.inl rfl, rfl, rfl⟩
      · exact ⟨.inr ⟨position, item, isItem, loose, rfl⟩, rfl, rfl⟩
    · rintro ⟨rfl | ⟨position, item, isItem, loose, rfl⟩, rfl, rfl⟩
      · exact .inl ⟨rfl, rfl, rfl⟩
      · exact .inr ⟨_, position, item, [], rfl, isItem, rfl, loose, rfl, rfl, rfl⟩

/-- The report on a list with items that are no texts goes on to the first of these. -/
theorem place_of_leadsTo {texts : List String} {loose : Value} {rest : List Value}
    {chosen reported : Violation} (leads : chosen.LeadsTo reported)
    (noText : TypeName.string.holds loose = false)
    (fails : branchViolations defaultSchemas (.list (texts.map .text ++ loose :: rest)) =
      some chosen.alternatives) :
    reported.place = [.index texts.length] := by
  obtain ⟨distinct, finds⟩ := alternatives_of_list fails
  have isLoose : (texts.map Value.text ++ loose :: rest)[texts.length]? = some loose := by
    simp
  obtain ⟨whole, isWhole, placeOfWhole, _⟩ := (finds [] false []).mpr ⟨.inl rfl, rfl, rfl⟩
  obtain ⟨first, isFirst, placeOfFirst, _⟩ :=
    (finds [.index texts.length] false []).mpr ⟨.inr ⟨_, loose, isLoose, noText, rfl⟩, rfl, rfl⟩
  have plain : ∀ alternative ∈ chosen.alternatives, alternative.alternatives = [] := by
    intro alternative member
    exact ((finds _ _ _).mp ⟨alternative, member, rfl, rfl, rfl⟩).2.2
  have several : whole.place ≠ first.place := by
    simp [placeOfWhole, placeOfFirst]
  obtain ⟨isLeast, smallest⟩ :=
    leads.least ⟨whole, isWhole, first, isFirst, several⟩ distinct plain
  obtain ⟨depth, order, _⟩ := smallest first isFirst
  rcases ((finds _ _ _).mp ⟨reported, isLeast, rfl, rfl, rfl⟩).1 with
    isPlace | ⟨position, item, isItem, isNoText, isPlace⟩
  · simp [placeOfFirst, isPlace] at depth
  · simp only [placeOfFirst, isPlace, comparePlaces, compareSteps, Ordering.then_eq, true_imp_iff,
      List.length_singleton] at order
    have notBefore : texts.length ≤ position := by
      by_contra before
      rw [List.getElem?_append_left (by simpa using before), List.getElem?_map] at isItem
      obtain ⟨characters, _, rfl⟩ := Option.map_eq_some_iff.mp isItem
      cases isNoText
    have notAfter : ¬ texts.length < position := fun after => order (Nat.compare_eq_lt.mpr after)
    rw [isPlace, Nat.le_antisymm (Nat.le_of_not_lt notAfter) notBefore]

/-! ## The field that a report is taken for -/

/-- A field for lists whose default has texts up to a position and none at it. -/
structure LooseAt (members : Members) (position : Nat) : Prop where
  name : ∃ characters, members.get? "name" = some (.text characters)
  type : members.get? "type" = some (.text listType)
  items : ∃ (texts : List String) (loose : Value) (rest : List Value),
    members.get? "default" = some (.list (texts.map .text ++ loose :: rest)) ∧
      texts.length = position ∧ ∀ characters, loose ≠ .text characters

/-- The last field that is described wrongly has an item in its default that is no text, at a
position where there is no field. -/
structure PointsBeyond (objects : List Members) (field position : Nat) : Prop where
  known : ∀ members ∈ objects, ∀ member ∈ members, member.1 ∈ Style.fieldKeys
  loose : ∃ members, objects[field]? = some members ∧ LooseAt members position
  last : ∀ later members, field < later → objects[later]? = some members →
    ∃ described, Field.DescribedBy described members
  beyond : objects.length ≤ position

theorem FieldKind.admits_iff {kind : FieldKind} {value : Value} :
    kind.Admits value ↔
      kind.shape.holds value = true ∧ branchViolations defaultSchemas value = none := by
  rw [branchViolations_eq_none_iff]
  simp only [defaultSchemas, SatisfiesOne, satisfies_string_iff, satisfies_texts_iff, or_false]
  cases kind with
  | text =>
      simp only [Admits, shape, holds_string_iff]
      tauto
  | list =>
      simp only [Admits, shape, holds_array_iff]
      constructor
      · rintro ⟨texts, rfl⟩
        exact ⟨⟨_, rfl⟩, .inr ⟨texts, rfl⟩⟩
      · rintro ⟨⟨items, rfl⟩, ⟨characters, isText⟩ | isTexts⟩
        · cases isText
        · exact isTexts

theorem exists_loose {items : List Value} (mixed : ¬ (Value.list items).IsTextList) :
    ∃ (texts : List String) (loose : Value) (rest : List Value),
      items = texts.map .text ++ loose :: rest ∧ ∀ characters, loose ≠ .text characters := by
  induction items with
  | nil => exact absurd ⟨[], rfl⟩ mixed
  | cons item rest ih =>
      by_cases isText : ∃ characters, item = .text characters
      · obtain ⟨characters, rfl⟩ := isText
        have mixedRest : ¬ (Value.list rest).IsTextList := by
          rintro ⟨texts, isTexts⟩
          obtain rfl := Value.list.inj isTexts
          exact mixed ⟨characters :: texts, rfl⟩
        obtain ⟨texts, loose, others, rfl, noText⟩ := ih mixedRest
        exact ⟨characters :: texts, loose, others, rfl, noText⟩
      · exact ⟨[], item, rest, rfl, not_exists.mp isText⟩

theorem Misfit.choice_or_plain {members : Members} {place : List Step} {isAlternative : Bool}
    {alternatives : List Violation} (misfit : Misfit members place isAlternative alternatives) :
    (isAlternative = true ∧ place = [.key "default"] ∧ ∃ value,
      members.get? "default" = some value ∧
        branchViolations defaultSchemas value = some alternatives) ∨
      isAlternative = false ∧ alternatives = [] := by
  cases misfit with
  | choice found fails => exact .inl ⟨rfl, rfl, _, found, fails⟩
  | _ => exact .inr ⟨rfl, rfl⟩

/-- A violation near a field whose keys are right is one of a member. -/
theorem Misfit.exists_key {members : Members} {place : List Step} {isAlternative : Bool}
    {alternatives : List Violation} (misfit : Misfit members place isAlternative alternatives)
    (named : members.has "name" = true) (known : ∀ member ∈ members, member.1 ∈ Style.fieldKeys)
    (near : place.length ≤ 1) : ∃ key ∈ Style.fieldKeys, place = [.key key] := by
  cases misfit with
  | unnamed missing => simp [named] at missing
  | unknown isMember unknown => exact absurd (known _ isMember) unknown
  | name found noText => exact ⟨"name", by decide, rfl⟩
  | type found unknown => exact ⟨"type", by decide, rfl⟩
  | choice found fails => exact ⟨"default", by decide, rfl⟩
  | shape kind typed found misfits => exact ⟨"default", by decide, rfl⟩
  | item typed found isItem noText => simp at near

theorem not_misfit_of_described {members : Members} {place : List Step} {isAlternative : Bool}
    {alternatives : List Violation} (typed : members.has "type" = true)
    (known : ∀ member ∈ members, member.1 ∈ Style.fieldKeys)
    (described : ∃ field, Field.DescribedBy field members) :
    ¬ Misfit members place isAlternative alternatives := by
  have satisfied := (satisfies_fieldSchema_iff typed).mpr ⟨described, known⟩
  rw [← finds_fieldSchema_iff typed, violations,
    (schemaViolations_eq_nil_iff _ _ _).mpr satisfied]
  exact not_finds_nil

section Member

variable {members : Members} (typed : members.has "type" = true) (named : members.has "name" = true)
include typed named

/-- A field without a wrong name or type. -/
theorem exists_kind_of_no_misfit
    (noName : ¬ Misfit members [.key "name"] false [])
    (noType : ¬ Misfit members [.key "type"] false []) :
    ∃ (characters : String) (kind : FieldKind), members.get? "name" = some (.text characters) ∧
      members.get? "type" = some (.text kind.type) := by
  rw [Members.has_iff_get?_isSome, Option.isSome_iff_exists] at typed named
  obtain ⟨name, foundName⟩ := named
  obtain ⟨type, foundType⟩ := typed
  have isText : ∃ characters, name = .text characters := by
    by_contra noText
    exact noName (.name foundName (not_holds_string_iff.mpr (not_exists.mp noText)))
  have isKind : ∃ kind : FieldKind, type = .text kind.type := by
    by_contra unknown
    exact noType (.type foundType (not_exists.mp unknown))
  obtain ⟨characters, rfl⟩ := isText
  obtain ⟨kind, rfl⟩ := isKind
  exact ⟨characters, kind, foundName, foundType⟩

/-- What describes no field violates the schema in one of its members. -/
theorem exists_misfit (undescribed : ¬ ∃ field, Field.DescribedBy field members) :
    ∃ key isAlternative alternatives, Misfit members [.key key] isAlternative alternatives := by
  by_contra none
  simp only [not_exists] at none
  obtain ⟨characters, kind, foundName, foundType⟩ :=
    exists_kind_of_no_misfit typed named (none _ _ _) (none _ _ _)
  apply undescribed
  refine ⟨⟨characters, kind, members.get? "default"⟩, foundName, foundType, rfl, ?_⟩
  intro value found
  rw [FieldKind.admits_iff]
  constructor
  · by_contra misfits
    exact none _ _ _ (.shape kind foundType found (Bool.not_eq_true _ ▸ misfits))
  · by_contra fails
    obtain ⟨alternatives, fails⟩ := Option.ne_none_iff_exists'.mp fails
    exact none _ _ _ (.choice found fails)

/-- Where nothing but the choice between the schemas of a default is violated, the default is a
list with an item that is no text. -/
theorem exists_looseAt {value : Value} (found : members.get? "default" = some value)
    (fails : branchViolations defaultSchemas value ≠ none)
    (noOther : ∀ key, ¬ Misfit members [.key key] false []) :
    ∃ position, LooseAt members position := by
  obtain ⟨characters, kind, foundName, foundType⟩ :=
    exists_kind_of_no_misfit typed named (noOther _) (noOther _)
  have fits : kind.shape.holds value = true := by
    by_contra misfits
    exact noOther _ (.shape kind foundType found (Bool.not_eq_true _ ▸ misfits))
  have notAdmitted : ¬ kind.Admits value := fun admits => fails (FieldKind.admits_iff.mp admits).2
  cases kind with
  | text => exact absurd (holds_string_iff.mp fits) notAdmitted
  | list =>
      obtain ⟨items, rfl⟩ := holds_array_iff.mp fits
      obtain ⟨texts, loose, rest, rfl, noText⟩ := exists_loose notAdmitted
      exact ⟨texts.length, ⟨characters, foundName⟩, foundType, texts, loose, rest, found, rfl,
        noText⟩

end Member

namespace LooseAt

variable {members : Members} {position : Nat} (loose : LooseAt members position)
include loose

theorem exists_choice : ∃ alternatives, Misfit members [.key "default"] true alternatives := by
  obtain ⟨texts, item, rest, found, _, noText⟩ := loose.items
  have fails : branchViolations defaultSchemas (.list (texts.map .text ++ item :: rest)) ≠ none := by
    intro fits
    have admits : FieldKind.list.Admits (.list (texts.map .text ++ item :: rest)) :=
      FieldKind.admits_iff.mpr ⟨holds_array_iff.mpr ⟨_, rfl⟩, fits⟩
    obtain ⟨others, isTexts⟩ := admits
    have isItem : item ∈ others.map Value.text := by
      rw [← Value.list.inj isTexts]
      simp
    obtain ⟨characters, _, isText⟩ := List.mem_map.mp isItem
    exact noText characters isText.symm
  obtain ⟨alternatives, fails⟩ := Option.ne_none_iff_exists'.mp fails
  exact ⟨alternatives, .choice found fails⟩

/-- All other violations of such a field lie deeper, unless its keys are wrong. -/
theorem isAlternative_of_misfit (known : ∀ member ∈ members, member.1 ∈ Style.fieldKeys)
    {place : List Step} {isAlternative : Bool} {alternatives : List Violation}
    (misfit : Misfit members place isAlternative alternatives) (near : place.length ≤ 1) :
    isAlternative = true := by
  obtain ⟨characters, foundName⟩ := loose.name
  obtain ⟨texts, item, rest, foundDefault, _⟩ := loose.items
  cases misfit with
  | unnamed missing =>
      rw [← Bool.not_eq_true, Members.has_iff_get?_isSome, foundName] at missing
      exact absurd rfl missing
  | unknown isMember unknown => exact absurd (known _ isMember) unknown
  | name found noText =>
      obtain rfl := Option.some.inj (foundName.symm.trans found)
      cases noText
  | type found unknown =>
      exact absurd (Option.some.inj (found.symm.trans loose.type)) (unknown .list)
  | choice found fails => rfl
  | shape kind typed found misfits =>
      have isList := Option.some.inj (typed.symm.trans loose.type)
      obtain rfl := Option.some.inj (foundDefault.symm.trans found)
      cases kind with
      | text => simp [FieldKind.type, textType, listType] at isList
      | list => cases misfits
  | item typed found isItem noText => simp at near

end LooseAt

theorem compare_members {first second : Nat} {left right : String}
    (notLess : comparePlaces [.index first, .key left] [.index second, .key right] ≠ .lt) :
    second ≤ first ∧ (first = second → compare left right ≠ .lt) := by
  simp only [comparePlaces, compareSteps, Ordering.then_eq] at notLess
  constructor
  · by_contra less
    exact notLess (by rw [Nat.compare_eq_lt.mpr (Nat.lt_of_not_le less)]; rfl)
  · rintro rfl less
    exact notLess (by rw [less, Nat.compare_eq_eq.mpr rfl]; rfl)

section Objects

variable {objects : List Members} (typed : ∀ members ∈ objects, members.has "type" = true)
  (named : ∀ members ∈ objects, members.has "name" = true) {chosen : Violation}
  (isChosen : IsChosen (violations Style.fieldsSchema (.list (objects.map .object))) chosen)
include typed named isChosen

/-- A choice that cannot be made is chosen for the last field that is described wrongly, and only
where an item of its default is no text. -/
theorem loose_of_choice {field : Nat} {members : Members} (isField : objects[field]? = some members)
    (isPlace : chosen.place = [.index field, .key "default"]) (isChoice : chosen.isAlternative = true)
    {value : Value} (found : members.get? "default" = some value)
    (fails : branchViolations defaultSchemas value = some chosen.alternatives) :
    (∀ members ∈ objects, ∀ member ∈ members, member.1 ∈ Style.fieldKeys) ∧
      (∃ position, LooseAt members position) ∧
      ∀ later others, field < later → objects[later]? = some others →
        ∃ described, Field.DescribedBy described others := by
  have compared : ∀ {other : Nat} {members : Members} {rest : List Step} {isAlternative : Bool}
      {alternatives : List Violation}, objects[other]? = some members →
      Misfit members rest isAlternative alternatives → _ := fun isOther misfit =>
    isChosen.of_finds ((finds_fieldsSchema_iff typed).mpr ⟨_, _, _, isOther, rfl, misfit⟩)
  simp only [isPlace, isChoice] at compared
  have known : ∀ members ∈ objects, ∀ member ∈ members, member.1 ∈ Style.fieldKeys := by
    intro others isMember member inOthers
    by_contra unknown
    obtain ⟨other, isOther⟩ := List.mem_iff_getElem?.mp isMember
    have near := (compared isOther (.unknown inOthers unknown)).1
    simp at near
  have inObjects := List.mem_of_getElem? isField
  refine ⟨known, ?_, ?_⟩
  · apply exists_looseAt (typed _ inObjects) (named _ inObjects) found (by simp [fails])
    intro key misfit
    obtain ⟨_, order, tells⟩ := compared isField misfit
    obtain ⟨_, isKey, same⟩ := misfit.exists_key (named _ inObjects) (known _ inObjects) (by simp)
    obtain ⟨_, notLess⟩ := compare_members (order rfl)
    cases same
    -- The other two keys come after "default", so a violation of theirs would have been chosen.
    simp only [Style.fieldKeys, List.mem_cons, List.not_mem_nil, or_false] at isKey
    rcases isKey with rfl | rfl | rfl
    · exact notLess rfl (by decide)
    · exact notLess rfl (by decide)
    · exact absurd (tells rfl trivial) (by decide)
  · intro later others after isOther
    by_contra undescribed
    have isMember := List.mem_of_getElem? isOther
    obtain ⟨key, _, _, misfit⟩ := exists_misfit (typed _ isMember) (named _ isMember) undescribed
    obtain ⟨notAfter, _⟩ := compare_members ((compared isOther misfit).2.1 rfl)
    exact absurd after (Nat.not_lt.mpr notAfter)

/-- Such a field has its choice chosen. -/
theorem choice_of_loose {field : Nat} {members : Members} {position : Nat}
    (known : ∀ members ∈ objects, ∀ member ∈ members, member.1 ∈ Style.fieldKeys)
    (isField : objects[field]? = some members) (loose : LooseAt members position)
    (last : ∀ later others, field < later → objects[later]? = some others →
      ∃ described, Field.DescribedBy described others) :
    chosen.isAlternative = true ∧ ∃ value, members.get? "default" = some value ∧
      branchViolations defaultSchemas value = some chosen.alternatives := by
  obtain ⟨other, others, rest, isOther, isPlace, misfit⟩ :=
    (finds_fieldsSchema_iff typed).mp isChosen.finds
  have isMember := List.mem_of_getElem? isOther
  obtain ⟨alternatives, choice⟩ := loose.exists_choice
  obtain ⟨depth, order, _⟩ := isChosen.of_finds
    ((finds_fieldsSchema_iff typed).mpr ⟨_, _, _, isField, rfl, choice⟩)
  have near : rest.length ≤ 1 := by simpa [isPlace] using depth
  obtain ⟨key, _, rfl⟩ := misfit.exists_key (named _ isMember) (known _ isMember) near
  rw [isPlace] at order
  obtain ⟨notBefore, _⟩ := compare_members (order rfl)
  have notAfter : ¬ field < other := fun after =>
    not_misfit_of_described (typed _ isMember) (known _ isMember) (last _ _ after isOther) misfit
  obtain rfl : field = other := Nat.le_antisymm notBefore (Nat.le_of_not_lt notAfter)
  obtain rfl := Option.some.inj (isField.symm.trans isOther)
  have isChoice := loose.isAlternative_of_misfit (known _ isMember) misfit near
  rcases misfit.choice_or_plain with ⟨_, _, made⟩ | ⟨plain, _⟩
  · exact ⟨isChoice, made⟩
  · simp [isChoice] at plain

end Objects

/-- A report is taken for a position, at which there is a field unless the last field that is
described wrongly points beyond the fields. -/
theorem exists_position_of_best? [Libraries] (reports : ReportsByRelevance) {objects : List Members}
    (typed : ∀ members ∈ objects, members.has "type" = true)
    (named : ∀ members ∈ objects, members.has "name" = true) {reported : Violation}
    (isReported : best? Style.fieldsSchema (.list (objects.map .object)) = some reported) :
    ∃ position rest, reported.place = .index position :: rest ∧
      (objects.length ≤ position ↔ ∃ field position, PointsBeyond objects field position) := by
  obtain ⟨chosen, isChosen, leads⟩ := exists_isChosen reports isReported
  obtain ⟨field, members, rest, isField, isPlace, misfit⟩ :=
    (finds_fieldsSchema_iff typed).mp isChosen.finds
  have reaches : ∀ {members position value}, LooseAt members position →
      members.get? "default" = some value →
      branchViolations defaultSchemas value = some chosen.alternatives →
      reported.place = [.index position] := by
    intro members position value loose found fails
    obtain ⟨texts, item, rest, foundItems, rfl, noText⟩ := loose.items
    obtain rfl := Option.some.inj (found.symm.trans foundItems)
    exact place_of_leadsTo leads (not_holds_string_iff.mpr noText) fails
  -- The report goes on to an item of a default, or it stays at the field.
  rcases misfit.choice_or_plain with ⟨isChoice, rfl, value, found, fails⟩ | ⟨isPlain, noAlternatives⟩
  · obtain ⟨known, ⟨position, loose⟩, last⟩ :=
      loose_of_choice typed named isChosen isField isPlace isChoice found fails
    refine ⟨position, [], reaches loose found fails, ?_, ?_⟩
    · intro beyond
      exact ⟨field, position, known, ⟨members, isField, loose⟩, last, beyond⟩
    · rintro ⟨other, further, points⟩
      obtain ⟨others, isOther, looseOther⟩ := points.loose
      obtain ⟨_, _, foundOther, failsOther⟩ :=
        choice_of_loose typed named isChosen points.known isOther looseOther points.last
      have same := (reaches looseOther foundOther failsOther).symm.trans (reaches loose found fails)
      simp only [List.cons.injEq, Step.index.injEq, and_true] at same
      exact same ▸ points.beyond
  · rw [leads.plain noAlternatives, isPlace]
    refine ⟨field, rest, rfl, ?_, ?_⟩
    · intro beyond
      rw [List.getElem?_eq_none beyond] at isField
      cases isField
    · rintro ⟨other, further, points⟩
      obtain ⟨others, isOther, looseOther⟩ := points.loose
      have isChoice :=
        (choice_of_loose typed named isChosen points.known isOther looseOther points.last).1
      simp [isPlain] at isChoice

/-! ## The checks of a style -/

theorem index_eq_ok_iff {value found : Value} {key : String} :
    value.index key = .ok found ↔
      ∃ members, value = .object members ∧ Members.get? members key = some found := by
  cases value with
  | object members =>
      simp only [Value.index, Value.object.injEq, exists_eq_left']
      cases Members.get? members key <;> simp
  | _ => simp [Value.index]

namespace Style

/-- What the checks of a style need to end in a report. -/
structure IsReportable (style : Style) (objects : List Members) : Prop where
  fields : style.fields = .list (objects.map .object)
  named : ∀ members ∈ objects, ∃ name, members.get? "name" = some name ∧ name.isScalar = true
  within : ¬ ∃ field position, PointsBeyond objects field position

variable {style : Style}

/-- What is no list violates the schema as a whole, and no field can be named. -/
theorem exists_list_of_checkSchema [Libraries] (reports : ReportsByRelevance) {report : List String}
    (checked : style.checkSchema = .ok report) :
    ∃ items, style.fields = .list items := by
  by_contra noList
  have isArray : TypeName.array.holds style.fields = false := by
    rw [← Bool.not_eq_true, holds_array_iff]
    exact noList
  cases isReported : best? fieldsSchema style.fields with
  | none =>
      have satisfied := (best?_eq_none_iff.mp isReported).1
      simp [Keyword.Holds, isArray] at satisfied
  | some reported =>
      obtain ⟨chosen, isChosen, leads⟩ := exists_isChosen reports isReported
      have finds := isChosen.finds
      simp only [violations, fieldsSchema, finds_schema_cons_iff, finds_types_iff, finds_items_iff,
        not_finds_schema_nil, or_false] at finds
      rcases finds with ⟨_, isPlace, _, noAlternatives⟩ | ⟨items, _, _, _, isList, _⟩
      · simp only [checkSchema, isReported, violatedField, leads.plain noAlternatives,
          isPlace] at checked
        cases checked
      · exact noList ⟨items, isList⟩

section Objects

variable {objects : List Members} (shape : style.fields = .list (objects.map .object))
include shape

theorem exists_checkSchema_iff [Libraries] (reports : ReportsByRelevance)
    (typed : ∀ members ∈ objects, members.has "type" = true)
    (named : ∀ members ∈ objects, members.has "name" = true) :
    (∃ report, style.checkSchema = .ok report) ↔
      ¬ ∃ field position, PointsBeyond objects field position := by
  rw [checkSchema, shape]
  cases isReported : best? fieldsSchema (.list (objects.map .object)) with
  | none =>
      refine iff_of_true ⟨_, rfl⟩ ?_
      rintro ⟨field, position, points⟩
      obtain ⟨members, isField, loose⟩ := points.loose
      obtain ⟨alternatives, choice⟩ := loose.exists_choice
      have finds := (finds_fieldsSchema_iff typed).mpr ⟨_, _, _, isField, rfl, choice⟩
      rw [violations, (schemaViolations_eq_nil_iff _ _ _).mpr (best?_eq_none_iff.mp isReported)]
        at finds
      exact not_finds_nil finds
  | some reported =>
      obtain ⟨position, rest, isPlace, beyond⟩ :=
        exists_position_of_best? reports typed named isReported
      rw [← beyond, Nat.not_le]
      refine Result.exists_bind_eq_ok_iff.trans ?_
      simp only [violatedField, isPlace, List.getElem?_map]
      constructor
      · rintro ⟨name, isName, _⟩
        by_contra outside
        rw [List.getElem?_eq_none (Nat.le_of_not_lt outside)] at isName
        cases isName
      · intro inside
        have isMember : objects[position] ∈ objects := List.getElem_mem inside
        obtain ⟨name, found⟩ := Option.isSome_iff_exists.mp
          (Members.has_iff_get?_isSome.mp (named _ isMember))
        have indexed := index_eq_ok_iff.mpr ⟨_, rfl, found⟩
        refine ⟨name.shown, ?_, _, rfl⟩
        simp only [List.getElem?_eq_getElem inside, Option.map_some, indexed]
        rfl

end Objects

theorem exists_asSet_iff {names : List Value} :
    (∃ set, asSet names = .ok set) ↔ ∀ name ∈ names, name.isScalar = true := by
  refine Result.exists_mapM_eq_ok_iff.trans (forall₂_congr fun name _ => ?_)
  cases name.isScalar <;> simp

section Items

variable {items : List Value} (shape : style.fields = .list items)
include shape

theorem exists_checkRequired_iff :
    (∃ report, style.checkRequired = .ok report) ↔
      ∀ item ∈ items, ∃ name, item.index "name" = .ok name ∧ name.isScalar = true := by
  have fieldNames_eq : style.fieldNames = items.mapM fun field => field.index "name" := by
    rw [fieldNames, shape]
    rfl
  simp only [checkRequired, Result.exists_bind_eq_ok_iff, fieldNames_eq]
  constructor
  · rintro ⟨names, isNames, set, isSet, _⟩ item member
    obtain ⟨name, isName, indexed⟩ := Result.exists_of_mem_mapM isNames member
    exact ⟨name, indexed, exists_asSet_iff.mp ⟨set, isSet⟩ name isName⟩
  · intro named
    obtain ⟨names, isNames, areScalar⟩ :=
      @Result.exists_mapM _ _ _ _ _ Value.isScalar (fun _ => true) items named
    have scalar : ∀ name ∈ names, name.isScalar = true := by
      intro name isName
      have mapped := List.mem_map_of_mem (f := Value.isScalar) isName
      rw [areScalar] at mapped
      obtain ⟨_, _, isScalar⟩ := List.mem_map.mp mapped
      exact isScalar.symm
    obtain ⟨set, isSet⟩ := exists_asSet_iff.mpr scalar
    exact ⟨names, isNames, set, isSet, _, rfl⟩

variable (named : ∀ item ∈ items, ∃ name, item.index "name" = .ok name ∧ name.isScalar = true)
include named

theorem exists_checkUnique : ∃ report, style.checkUnique = .ok report := by
  rw [checkUnique, shape]
  refine Result.exists_bind_eq_ok_iff.mpr ⟨items, rfl, ?_⟩
  refine Result.exists_bind_eq_ok_iff.mpr ?_
  suffices taken : ∀ item ∈ items, ∃ name, (do
      let name ← item.index "name"
      if name.isScalar then return name
      else throw (Fault.mismatch (.notHashable name.kindName))) = .ok name by
    obtain ⟨names, isNames⟩ := Result.exists_mapM_eq_ok_iff.mpr taken
    exact ⟨names, isNames, _, rfl⟩
  intro item member
  obtain ⟨name, indexed, isScalar⟩ := named item member
  refine ⟨name, Result.bind_eq_ok_iff.mpr ⟨name, indexed, ?_⟩⟩
  rw [if_pos isScalar]
  rfl

omit shape in
theorem exists_misplacedFields (first : Option Value) :
    ∃ report, misplacedFields first items = .ok report := by
  induction items generalizing first with
  | nil => exact ⟨[], rfl⟩
  | cons item rest ih =>
      obtain ⟨⟨name, indexed, _⟩, others⟩ := List.forall_mem_cons.mp named
      obtain ⟨members, rfl, _⟩ := index_eq_ok_iff.mp indexed
      rw [misplacedFields]
      refine Result.exists_bind_eq_ok_iff.mpr ⟨members, rfl, ?_⟩
      split
      · refine Result.exists_bind_eq_ok_iff.mpr ⟨name, indexed, ih others _⟩
      · exact ih others _
      · exact ih others _
      · refine Result.exists_bind_eq_ok_iff.mpr ⟨name, indexed, ?_⟩
        obtain ⟨lines, isRest⟩ := ih others (some _)
        exact Result.exists_bind_eq_ok_iff.mpr ⟨lines, isRest, _, rfl⟩

theorem exists_checkOrder : ∃ report, style.checkOrder = .ok report := by
  rw [checkOrder, shape]
  exact Result.exists_bind_eq_ok_iff.mpr ⟨items, rfl, exists_misplacedFields named none⟩

end Items

/-- Only objects have names. -/
theorem exists_objects {items : List Value}
    (named : ∀ item ∈ items, ∃ name, item.index "name" = .ok name ∧ name.isScalar = true) :
    ∃ objects : List Members, items = objects.map .object := by
  have areObjects : items ∈ Set.range (List.map Value.object) := by
    rw [Set.range_list_map]
    intro item member
    obtain ⟨name, indexed, _⟩ := named item member
    obtain ⟨members, rfl, _⟩ := index_eq_ok_iff.mp indexed
    exact ⟨members, rfl⟩
  obtain ⟨objects, rfl⟩ := areObjects
  exact ⟨objects, rfl⟩

theorem named_objects_iff {objects : List Members} :
    (∀ item ∈ objects.map Value.object, ∃ name, item.index "name" = .ok name ∧
      name.isScalar = true) ↔
    ∀ members ∈ objects, ∃ name, members.get? "name" = some name ∧ name.isScalar = true := by
  simp only [List.forall_mem_map, index_eq_ok_iff, Value.object.injEq, exists_eq_left']

/-- The checks of a style with types filled in end in a report exactly when its fields are objects
with names that can be in a set, and the last wrong one does not point beyond them. -/
theorem exists_report_iff [Libraries] (reports : ReportsByRelevance)
    (filled : TypesFilled style.fields) :
    (∃ report, style.check = .ok report) ↔ ∃ objects, style.IsReportable objects := by
  have schemaIff : ∀ {objects : List Members}, style.fields = .list (objects.map .object) →
      (∀ members ∈ objects, ∃ name, members.get? "name" = some name ∧ name.isScalar = true) →
      ((∃ report, style.checkSchema = .ok report) ↔
        ¬ ∃ field position, PointsBeyond objects field position) := by
    intro objects shape named
    apply exists_checkSchema_iff shape reports
    · intro members member
      exact filled _ shape members (List.mem_map_of_mem member)
    · intro members member
      obtain ⟨name, found, _⟩ := named members member
      rw [Members.has_iff_get?_isSome, found]
      rfl
  simp only [check, Result.exists_bind_eq_ok_iff]
  constructor
  · rintro ⟨schema, isSchema, required, isRequired, _⟩
    obtain ⟨items, shape⟩ := exists_list_of_checkSchema reports isSchema
    have named := (exists_checkRequired_iff shape).mp ⟨required, isRequired⟩
    obtain ⟨objects, rfl⟩ := exists_objects named
    have named := named_objects_iff.mp named
    exact ⟨objects, shape, named, (schemaIff shape named).mp ⟨schema, isSchema⟩⟩
  · rintro ⟨objects, shape, named, within⟩
    have indexed := named_objects_iff.mpr named
    obtain ⟨schema, isSchema⟩ := (schemaIff shape named).mpr within
    obtain ⟨required, isRequired⟩ := (exists_checkRequired_iff shape).mpr indexed
    obtain ⟨unique, isUnique⟩ := exists_checkUnique shape indexed
    obtain ⟨order, isOrder⟩ := exists_checkOrder shape indexed
    exact ⟨schema, isSchema, required, isRequired, unique, isUnique, order, isOrder, _, rfl⟩

end Style

end Tracemark.OneLine
