import Tracemark.Proofs.Schema
import Tracemark.Schema.Relevance

/-!
# The reported violation

Which violations a schema finds in a value, and how the one that is reported is related to them:
of those found, one that is at least as relevant as all others is chosen, and where no alternative
fits, the report goes on to the least relevant violation of the alternatives.
-/

set_option autoImplicit false

namespace Tracemark.Schema

/-! ## The chosen violation -/

/-- The violation is at least as relevant as another: it lies no deeper, among those as deep no
earlier, and at the same place it tells at least as much. -/
structure Violation.Outranks (violation other : Violation) : Prop where
  depth : violation.place.length ≤ other.place.length
  order : violation.place.length = other.place.length →
    comparePlaces violation.place other.place ≠ .lt
  tells : violation.place = other.place → violation.isAlternative = true →
    other.isAlternative = true

/-- A violation that is at least as relevant as all that were found. -/
structure IsChosen (found : List Violation) (chosen : Violation) : Prop where
  member : chosen ∈ found
  greatest : ∀ other ∈ found, chosen.Outranks other

/-- What the report on a violation goes on to. Without alternatives it stays where it is, and among
plain alternatives at different places it goes on to the least relevant one. -/
structure Violation.LeadsTo (violation reported : Violation) : Prop where
  plain : violation.alternatives = [] → reported = violation
  least : (∃ one ∈ violation.alternatives, ∃ other ∈ violation.alternatives,
      one.place ≠ other.place) →
    (violation.alternatives.map Violation.place).Nodup →
    (∀ alternative ∈ violation.alternatives, alternative.alternatives = []) →
    reported ∈ violation.alternatives ∧ ∀ other ∈ violation.alternatives, other.Outranks reported

/-- The best match is what a chosen violation leads to. -/
def ReportsByRelevance [Libraries] : Prop :=
  ∀ first others, ∃ chosen, IsChosen (first :: others) chosen ∧
    chosen.LeadsTo (Libraries.bestMatch first others)

theorem exists_isChosen [Libraries] (reports : ReportsByRelevance) {schema : List Keyword}
    {value : Value} {reported : Violation} (isReported : best? schema value = some reported) :
    ∃ chosen, IsChosen (violations schema value) chosen ∧ chosen.LeadsTo reported := by
  unfold best? at isReported
  split at isReported
  · cases isReported
  · rename_i first others found
    cases isReported
    rw [found]
    exact reports first others

/-! ## What is found -/

/-- A violation at a place is among those found, with the violations of its alternatives if it
says that no alternative fits. -/
def Finds (found : List Violation) (place : List Step) (isAlternative : Bool)
    (alternatives : List Violation) : Prop :=
  ∃ violation ∈ found, violation.place = place ∧ violation.isAlternative = isAlternative ∧
    violation.alternatives = alternatives

section

variable {place : List Step} {isAlternative : Bool} {alternatives : List Violation}

theorem IsChosen.finds {found : List Violation} {chosen : Violation}
    (isChosen : IsChosen found chosen) :
    Finds found chosen.place chosen.isAlternative chosen.alternatives :=
  ⟨chosen, isChosen.member, rfl, rfl, rfl⟩

theorem IsChosen.of_finds {found : List Violation} {chosen : Violation}
    (isChosen : IsChosen found chosen) (finds : Finds found place isAlternative alternatives) :
    chosen.place.length ≤ place.length ∧
      (chosen.place.length = place.length → comparePlaces chosen.place place ≠ .lt) ∧
      (chosen.place = place → chosen.isAlternative = true → isAlternative = true) := by
  obtain ⟨other, member, rfl, rfl, rfl⟩ := finds
  obtain ⟨depth, order, tells⟩ := isChosen.greatest other member
  exact ⟨depth, order, tells⟩

@[simp] theorem not_finds_nil : ¬ Finds [] place isAlternative alternatives := by
  simp [Finds]

@[simp] theorem finds_append_iff {left right : List Violation} :
    Finds (left ++ right) place isAlternative alternatives ↔
      Finds left place isAlternative alternatives ∨ Finds right place isAlternative alternatives := by
  simp [Finds, or_and_right, exists_or]

@[simp] theorem finds_singleton_iff {violation : Violation} :
    Finds [violation] place isAlternative alternatives ↔
      violation.place = place ∧ violation.isAlternative = isAlternative ∧
        violation.alternatives = alternatives := by
  simp [Finds]

@[simp] theorem finds_under_iff {found : List Violation} {step : Step} :
    Finds (found.map (·.under step)) place isAlternative alternatives ↔
      ∃ rest, place = step :: rest ∧ Finds found rest isAlternative alternatives := by
  have under : ∀ violation : Violation, (violation.under step).place = step :: violation.place ∧
      (violation.under step).isAlternative = violation.isAlternative ∧
      (violation.under step).alternatives = violation.alternatives := by
    intro violation
    cases violation
    exact ⟨rfl, rfl, rfl⟩
  constructor
  · rintro ⟨_, member, rfl, rfl, rfl⟩
    obtain ⟨violation, isFound, rfl⟩ := List.mem_map.mp member
    obtain ⟨places, choices, branches⟩ := under violation
    exact ⟨violation.place, places, violation, isFound, rfl, choices.symm, branches.symm⟩
  · rintro ⟨rest, rfl, violation, isFound, rfl, rfl, rfl⟩
    exact ⟨_, List.mem_map_of_mem isFound, under violation⟩

@[simp] theorem finds_items_iff {fits : Bool} {schema : List Keyword} {value : Value} :
    Finds (keywordViolations fits (.items schema) value) place isAlternative alternatives ↔
      ∃ items position item rest, value = .list items ∧ items[position]? = some item ∧
        place = .index position :: rest ∧
        Finds (schemaViolations (fitsTypes schema item) schema item) rest isAlternative
          alternatives := by
  cases value with
  | list items =>
      rw [keywordViolations]
      constructor
      · rintro ⟨violation, member, told⟩
        obtain ⟨⟨item, position⟩, isItem, isFound⟩ := List.mem_flatMap.mp member
        obtain ⟨rest, isPlace, found⟩ := finds_under_iff.mp ⟨violation, isFound, told⟩
        exact ⟨items, position, item, rest, rfl, List.mk_mem_zipIdx_iff_getElem?.mp isItem, isPlace,
          found⟩
      · rintro ⟨_, position, item, rest, ⟨⟩, isItem, isPlace, found⟩
        obtain ⟨violation, isFound, told⟩ := finds_under_iff.mpr ⟨rest, isPlace, found⟩
        exact ⟨violation, List.mem_flatMap.mpr
          ⟨(item, position), List.mk_mem_zipIdx_iff_getElem?.mpr isItem, isFound⟩, told⟩
  | _ => simp [keywordViolations]

/-- A violation of the value itself, found by a keyword without alternatives. -/
theorem finds_plain_iff {message : String} {fits : Bool} :
    Finds [.mk [] message false fits []] place isAlternative alternatives ↔
      place = [] ∧ isAlternative = false ∧ alternatives = [] := by
  simp only [finds_singleton_iff, Violation.place, Violation.isAlternative, Violation.alternatives,
    eq_comm]

@[simp] theorem not_finds_schema_nil {fits : Bool} {value : Value} :
    ¬ Finds (schemaViolations fits [] value) place isAlternative alternatives := by
  simp [schemaViolations]

@[simp] theorem finds_schema_cons_iff {fits : Bool} {keyword : Keyword} {schema : List Keyword}
    {value : Value} :
    Finds (schemaViolations fits (keyword :: schema) value) place isAlternative alternatives ↔
      Finds (keywordViolations fits keyword value) place isAlternative alternatives ∨
        Finds (schemaViolations fits schema value) place isAlternative alternatives := by
  rw [schemaViolations, finds_append_iff]

@[simp] theorem finds_types_iff {fits : Bool} {names : List TypeName} {value : Value} :
    Finds (keywordViolations fits (.types names) value) place isAlternative alternatives ↔
      (∀ name ∈ names, name.holds value = false) ∧ place = [] ∧ isAlternative = false ∧
        alternatives = [] := by
  rw [keywordViolations]
  split
  · rename_i holds
    simp only [List.any_eq_true] at holds
    simp only [not_finds_nil, false_iff, not_and]
    intro refused
    obtain ⟨name, member, isHeld⟩ := holds
    simp [refused name member] at isHeld
  · rename_i refused
    simp only [List.any_eq_true, not_exists, not_and, Bool.not_eq_true] at refused
    rw [finds_plain_iff, and_iff_right refused]

@[simp] theorem finds_oneOfTexts_iff {fits : Bool} {texts : List String} {value : Value} :
    Finds (keywordViolations fits (.oneOfTexts texts) value) place isAlternative alternatives ↔
      (∀ text ∈ texts, value ≠ .text text) ∧ place = [] ∧ isAlternative = false ∧
        alternatives = [] := by
  rw [keywordViolations]
  split
  · rename_i holds
    simp only [List.any_eq_true, Value.same_text_iff] at holds
    simp only [not_finds_nil, false_iff, not_and]
    intro refused
    obtain ⟨text, member, isText⟩ := holds
    exact absurd isText (refused text member)
  · rename_i refused
    simp only [List.any_eq_true, Value.same_text_iff, not_exists, not_and] at refused
    rw [finds_plain_iff, and_iff_right refused]

@[simp] theorem finds_required_iff {fits : Bool} {names : List String} {members : Members} :
    Finds (keywordViolations fits (.required names) (.object members)) place isAlternative
        alternatives ↔
      (∃ name ∈ names, members.has name = false) ∧ place = [] ∧ isAlternative = false ∧
        alternatives = [] := by
  rw [keywordViolations]
  constructor
  · rintro ⟨_, member, rfl, rfl, rfl⟩
    obtain ⟨name, missing, rfl⟩ := List.mem_map.mp member
    simp only [List.mem_filter, Bool.not_eq_true'] at missing
    exact ⟨⟨name, missing⟩, rfl, rfl, rfl⟩
  · rintro ⟨⟨name, member, missing⟩, rfl, rfl, rfl⟩
    exact ⟨_, List.mem_map_of_mem (List.mem_filter.mpr ⟨member, by simp [missing]⟩), rfl, rfl, rfl⟩

@[simp] theorem finds_onlyProperties_iff {fits : Bool} {names : List String} {members : Members} :
    Finds (keywordViolations fits (.onlyProperties names) (.object members)) place isAlternative
        alternatives ↔
      (∃ member ∈ members, member.1 ∉ names) ∧ place = [] ∧ isAlternative = false ∧
        alternatives = [] := by
  rw [keywordViolations]
  have none : otherMembers names members = [] ↔ ¬ ∃ member ∈ members, member.1 ∉ names := by
    rw [otherMembers_eq_nil_iff]
    push Not
    rfl
  split
  · rename_i empty
    simp [none.mp empty]
  · rename_i others
    rw [finds_plain_iff, and_iff_right (not_not.mp (mt none.mpr others))]

@[simp] theorem finds_anyOf_iff {fits : Bool} {schemas : List (List Keyword)} {value : Value} :
    Finds (keywordViolations fits (.anyOf schemas) value) place isAlternative alternatives ↔
      branchViolations schemas value = some alternatives ∧ place = [] ∧ isAlternative = true := by
  rw [keywordViolations]
  cases branchViolations schemas value with
  | none => simp
  | some found =>
      simp only [finds_singleton_iff, Violation.place, Violation.isAlternative,
        Violation.alternatives, Option.some.injEq]
      tauto

@[simp] theorem finds_whenMember_iff {fits : Bool} {name text : String} {schema : List Keyword}
    {members : Members} :
    Finds (keywordViolations fits (.whenMember name text schema) (.object members)) place
        isAlternative alternatives ↔
      (∀ member, members.get? name = some member → member = .text text) ∧
        Finds (schemaViolations (fitsTypes schema (.object members)) schema (.object members)) place
          isAlternative alternatives := by
  rw [keywordViolations]
  split
  · rename_i applies
    refine (and_iff_right ?_).symm
    intro member found
    rw [found] at applies
    exact Value.same_text_iff.mp applies
  · rename_i refused
    refine (iff_of_false not_finds_nil ?_)
    rintro ⟨applies, _⟩
    split at refused
    · rename_i member found
      exact refused (Value.same_text_iff.mpr (applies member found))
    · exact refused rfl

@[simp] theorem finds_properties_iff {fits : Bool} {schemas : List (String × List Keyword)}
    {members : Members} :
    Finds (keywordViolations fits (.properties schemas) (.object members)) place isAlternative
        alternatives ↔
      ∃ entry ∈ schemas, ∃ value rest, members.get? entry.1 = some value ∧
        place = .key entry.1 :: rest ∧
        Finds (schemaViolations (fitsTypes entry.2 value) entry.2 value) rest isAlternative
          alternatives := by
  rw [keywordViolations]
  induction schemas with
  | nil => simp [propertyViolations]
  | cons entry schemas ih =>
      rw [propertyViolations, finds_append_iff, ih, List.exists_mem_cons_iff]
      refine or_congr_left ?_
      cases members.get? entry.1 with
      | none => simp
      | some value => simp

end

/-! ## Alternatives -/

theorem branchViolations_cons_eq_some {schema : List Keyword} {schemas : List (List Keyword)}
    {value : Value} {found : List Violation}
    (fails : branchViolations (schema :: schemas) value = some found) :
    ∃ others, branchViolations schemas value = some others ∧
      found = violations schema value ++ others := by
  rw [branchViolations] at fails
  split at fails
  · cases fails
  · obtain ⟨others, isOthers, rfl⟩ := Option.map_eq_some_iff.mp fails
    exact ⟨others, isOthers, rfl⟩

end Tracemark.Schema
