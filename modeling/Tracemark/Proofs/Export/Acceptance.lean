import Tracemark.Commands.Export
import Tracemark.Libraries.Reference
import Tracemark.Proofs.Analysis.Links
import Tracemark.Proofs.Schema

/-!
# Which stored content is accepted

Directives are written from the content that completed runs have stored. Content is
refused when a reference in it has no link, no ids or no marker, and for no other
reason.
-/

set_option autoImplicit false

namespace Tracemark.Export

/-- An object in which an entry is stored. -/
def Stores (entry : Analysis.Entry) (object : Value) : Prop :=
  ∃ members, entry.toMembers Table.storedMembers = .ok members ∧ object = .object members

theorem toMembers_eq_ok_iff {entry : Analysis.Entry} {fieldMembers : Table Value → Members}
    {members : Members} :
    entry.toMembers fieldMembers = .ok members ↔ ∃ scope, entry.scopeText = .ok scope ∧
      [("filepath", .text entry.file.text), ("remote_url", Analysis.optionalText entry.link),
        ("source_map", entry.sourceMap), ("tagged_scope", scope)] ++
          entry.payload.toMembers fieldMembers ++ [("type", .text entry.payload.type)] =
        members := by
  simp [Analysis.Entry.toMembers, Result.bind_eq_ok_iff, pure, Except.pure]

theorem Stores.index_type {entry : Analysis.Entry} {object : Value} (stores : Stores entry object) :
    object.index "type" = .ok (.text entry.payload.type) := by
  obtain ⟨members, stored, rfl⟩ := stores
  obtain ⟨scope, -, rfl⟩ := toMembers_eq_ok_iff.mp stored
  cases entry.payload <;> rfl

theorem scopeText_cases {entry : Analysis.Entry} {scope : Value}
    (found : entry.scopeText = .ok scope) :
    scope = .null ∨ ∃ characters, scope = .text characters := by
  unfold Analysis.Entry.scopeText at found
  split at found
  · cases found
    exact .inl rfl
  · split at found
    · cases found
      exact .inl rfl
    · split at found
      · cases found
        exact .inr ⟨_, rfl⟩
      · cases found

/-! ## References -/

/-- What a stored reference is read as. -/
def referenceEntry (entry : Analysis.Entry) (scope : Value) (ids : List String)
    (marker : String) : StoredEntry :=
  { filepath := .text entry.file.text
    remoteUrl := Analysis.optionalText entry.link
    sourceMap := entry.sourceMap
    taggedScope := scope
    type := .text referenceType
    marker := .text marker
    needIds := .list (ids.map .text)
    need := .null
    rst := .null }

theorem satisfies_optionalText_iff {text : Option String} :
    Schema.Satisfies [.types [.string]] (Analysis.optionalText text) ↔ text ≠ none := by
  rw [Schema.satisfies_string_iff]
  cases text <;> simp [Analysis.optionalText]

section Reference

variable {entry : Analysis.Entry} {scope : Value} (ids : List String) (marker : String)

theorem checkSchema_referenceEntry_eq_nil_iff [Libraries] (hasScope : entry.scopeText = .ok scope) :
    (referenceEntry entry scope ids marker).checkSchema = [] ↔ entry.link ≠ none := by
  simp only [StoredEntry.checkSchema, Schema.fieldReports_eq_nil_iff, List.forall_mem_cons,
    List.not_mem_nil, false_implies, implies_true, and_true]
  constructor
  · rintro ⟨-, link, -⟩
    exact satisfies_optionalText_iff.mp link
  · intro linked
    have scopeAllowed : Schema.Satisfies [.types [.string, .null]] scope := by
      rcases scopeText_cases hasScope with rfl | ⟨characters, rfl⟩ <;>
        simp [Schema.Satisfies, Schema.Keyword.Holds, Schema.TypeName.holds]
    have idsAllowed : Schema.Satisfies [.types [.array, .null], .items [.types [.string]]]
        (.list (ids.map .text)) := by
      simp [Schema.Satisfies, Schema.Keyword.Holds, Schema.TypeName.holds]
    have allowed {schema : List Schema.Keyword} {value : Value}
        (none : Schema.schemaViolations true schema value = []) : Schema.Satisfies schema value :=
      (Schema.schemaViolations_eq_nil_iff true schema value).mp none
    exact ⟨allowed rfl, satisfies_optionalText_iff.mpr linked, allowed rfl, scopeAllowed,
      allowed rfl, allowed rfl, idsAllowed, allowed rfl, allowed rfl⟩

theorem checkRequired_referenceEntry_eq_nil_iff :
    (referenceEntry entry scope ids marker).checkRequired = [] ↔ ids ≠ [] ∧ marker ≠ "" := by
  have notNeed : (referenceEntry entry scope ids marker).hasType needType = false := by rfl
  have isReference : (referenceEntry entry scope ids marker).hasType referenceType = true := by rfl
  have hasMarker : (referenceEntry entry scope ids marker).marker = .text marker := rfl
  have hasIds : (referenceEntry entry scope ids marker).needIds = .list (ids.map .text) := rfl
  simp [StoredEntry.checkRequired, notNeed, isReference, hasMarker, hasIds, Value.truthy, and_comm]

end Reference

theorem reportOn_eq_nil_iff [Libraries] {members : Members} {stored : StoredEntry}
    (made : StoredEntry.ofMembers members = .ok stored) :
    reportOn (.object members) = [] ↔ stored.checkSchema = [] ∧ stored.checkRequired = [] := by
  rw [← List.append_eq_nil_iff]
  simp only [reportOn, made]
  cases stored.checkSchema ++ stored.checkRequired <;> simp

/-- A stored reference is accepted exactly when it has a link, ids and a marker. -/
theorem Stores.reportOn_eq_nil_iff [Libraries] {entry : Analysis.Entry} {object : Value}
    (stores : Stores entry object) {ids : List String} {marker : String}
    (reference : entry.payload = .reference ids marker) :
    reportOn object = [] ↔ entry.link ≠ none ∧ ids ≠ [] ∧ marker ≠ "" := by
  obtain ⟨members, stored, rfl⟩ := stores
  obtain ⟨scope, hasScope, rfl⟩ := toMembers_eq_ok_iff.mp stored
  rw [reference, @Export.reportOn_eq_nil_iff _ _ (referenceEntry entry scope ids marker) rfl,
    checkSchema_referenceEntry_eq_nil_iff ids marker hasScope,
    checkRequired_referenceEntry_eq_nil_iff ids marker]

/-! ## Stored content -/

def isReference (entry : Analysis.Entry) : Bool :=
  entry.payload.type == referenceType

theorem isReference_iff {entry : Analysis.Entry} :
    isReference entry = true ↔ ∃ ids marker, entry.payload = .reference ids marker := by
  cases payload : entry.payload <;>
    simp [isReference, payload, Analysis.Payload.type, referenceType]

theorem referencesOf_cons {object type : Value} {objects others : List Value}
    (typed : object.index "type" = .ok type) (found : referencesOf objects = .ok others) :
    referencesOf (object :: objects) =
      .ok (if type.same (.text referenceType) then object :: others else others) := by
  obtain ⟨types, restTyped, selected⟩ := Result.bind_eq_ok_iff.mp found
  cases selected
  cases reference : type.same (.text referenceType) <;>
    simp [referencesOf, typed, restTyped, reference, bind, Except.bind, pure, Except.pure]

theorem referencesOf_of_stores {entries : List Analysis.Entry} {objects : List Value}
    (all : List.Forall₂ Stores entries objects) :
    ∃ references, referencesOf objects = .ok references ∧
      List.Forall₂ Stores (entries.filter isReference) references := by
  induction all with
  | nil => exact ⟨[], rfl, .nil⟩
  | @cons entry object entries objects first _ ih =>
      obtain ⟨others, found, stored⟩ := ih
      have same : Value.same (.text entry.payload.type) (.text referenceType) = isReference entry := by
        rw [Bool.eq_iff_iff, Value.same_text_iff]
        simp [isReference]
      refine ⟨_, referencesOf_cons first.index_type found, ?_⟩
      rw [List.filter_cons, same]
      split
      · exact .cons first stored
      · exact stored

/-- A payload with all that its type requires: a reference has ids and a marker. -/
def IsComplete : Analysis.Payload → Prop
  | .reference ids marker => ids ≠ [] ∧ marker ≠ ""
  | .need _ => True
  | .block _ => True

instance : DecidablePred IsComplete
  | .reference ids marker => inferInstanceAs (Decidable (ids ≠ [] ∧ marker ≠ ""))
  | .need _ => .isTrue trivial
  | .block _ => .isTrue trivial

/-- An entry that is accepted in stored content: it is complete, and a reference has a
link. -/
def Exportable (entry : Analysis.Entry) : Prop :=
  (isReference entry = true → entry.link ≠ none) ∧ IsComplete entry.payload

theorem exportable_of_not_reference {entry : Analysis.Entry} (other : ¬ isReference entry = true) :
    Exportable entry := by
  refine ⟨fun reference => absurd reference other, ?_⟩
  cases payload : entry.payload with
  | reference ids marker => exact absurd (isReference_iff.mpr ⟨ids, marker, payload⟩) other
  | need fields => trivial
  | block text => trivial

theorem reports_eq_nil_iff [Libraries] {entries : List Analysis.Entry} {objects : List Value}
    (all : List.Forall₂ Stores entries objects)
    (references : ∀ entry ∈ entries, isReference entry) :
    objects.flatMap reportOn = [] ↔ ∀ entry ∈ entries, Exportable entry := by
  induction all with
  | nil => simp
  | @cons entry object entries objects first _ ih =>
      rw [List.forall_mem_cons] at references
      obtain ⟨ids, marker, payload⟩ := isReference_iff.mp references.1
      rw [List.flatMap_cons, List.append_eq_nil_iff, List.forall_mem_cons, ih references.2,
        first.reportOn_eq_nil_iff payload]
      simp [Exportable, IsComplete, references.1, payload]

theorem needExtend_of_stores [Libraries] {entries : List Analysis.Entry} {objects : List Value}
    (all : List.Forall₂ Stores entries objects) (urlField : String) (title : Option String) :
    ∃ written, needExtend urlField title objects = .ok written ∧
      (written.report = [] ↔ ∀ entry ∈ entries, Exportable entry) := by
  obtain ⟨references, found, stored⟩ := referencesOf_of_stores all
  have reports : references.flatMap reportOn = [] ↔ ∀ entry ∈ entries, Exportable entry := by
    rw [reports_eq_nil_iff stored fun entry member => List.of_mem_filter member]
    constructor
    · intro each entry member
      by_cases reference : isReference entry = true
      · exact each entry (List.mem_filter.mpr ⟨member, reference⟩)
      · exact exportable_of_not_reference reference
    · intro each entry member
      exact each entry (List.mem_of_mem_filter member)
  simp only [needExtend, found, bind, Except.bind, pure, Except.pure]
  split
  · rename_i empty
    exact ⟨_, rfl, by simpa using reports.mp (List.isEmpty_iff.mp empty)⟩
  · rename_i refused
    refine ⟨_, rfl, ?_⟩
    rw [← reports, Report.arrange_eq_nil_iff]

theorem stores_of_storedList {entries : List Analysis.Entry} {value : Value}
    (stored : Analysis.Entry.storedList entries = .ok value) :
    ∃ objects, value = .list objects ∧ List.Forall₂ Stores entries objects := by
  obtain ⟨objects, mapped, finished⟩ := Result.bind_eq_ok_iff.mp stored
  cases finished
  refine ⟨objects, rfl, (Result.forall₂_of_mapM mapped).imp fun entry object made => ?_⟩
  obtain ⟨members, found, same⟩ := Result.bind_eq_ok_iff.mp made
  cases same
  exact ⟨members, found, rfl⟩

/-- The objects in the content of all runs store the entries of the runs, in order. -/
theorem storedObjects_of_content {analyses : Tracing.Analyses} {content : Value}
    (stored : analyses.content = .ok content) :
    ∃ objects, Commands.storedObjects content = .ok objects ∧
      List.Forall₂ Stores (analyses.runs.flatMap fun kept => kept.2.content) objects := by
  obtain ⟨members, mapped, finished⟩ := Result.bind_eq_ok_iff.mp stored
  cases finished
  have each := Result.forall₂_of_mapM mapped
  have lists : ∃ lists, members.mapM (fun member => member.2.items) = .ok lists ∧
      List.Forall₂ Stores (analyses.runs.flatMap fun kept => kept.2.content) lists.flatten := by
    clear stored mapped
    generalize analyses.runs = runs at each ⊢
    induction each with
    | nil => exact ⟨[], rfl, .nil⟩
    | cons first _ ih =>
        obtain ⟨lists, items, later⟩ := ih
        obtain ⟨value, listed, same⟩ := Result.bind_eq_ok_iff.mp first
        cases same
        obtain ⟨objects, rfl, stores⟩ := stores_of_storedList listed
        have listItems : (Value.list objects).items = .ok objects := rfl
        refine ⟨objects :: lists, ?_, List.rel_append stores later⟩
        simp [items, listItems, bind, Except.bind, pure, Except.pure]
  obtain ⟨lists, items, stores⟩ := lists
  refine ⟨lists.flatten, ?_, stores⟩
  simp [Commands.storedObjects, Value.membersOf, items, bind, Except.bind, pure, Except.pure]

/-- The content that completed runs have stored is looked through without a fault. Where
no reference comes from a run without the address of a remote, the content is accepted
exactly when every reference has ids and a marker. -/
theorem needExtend_of_runAll [Libraries] {directory : Path}
    {settings : List (String × Analysis.Settings)}
    {session after : Session} {analyses : Tracing.Analyses}
    (completed : (Tracing.Analyses.ofSettings directory settings).runAll session =
      (analyses, after, none))
    {content : Value} (stored : analyses.content = .ok content)
    (addressed : ∀ kept ∈ analyses.runs, kept.2.address = none →
      ∀ entry ∈ kept.2.content, ¬ isReference entry = true)
    (urlField : String) (title : Option String) :
    ∃ objects written, Commands.storedObjects content = .ok objects ∧
      needExtend urlField title objects = .ok written ∧
      (written.report = [] ↔
        ∀ kept ∈ analyses.runs, ∀ entry ∈ kept.2.content, IsComplete entry.payload) := by
  obtain ⟨objects, found, stores⟩ := storedObjects_of_content stored
  obtain ⟨written, extended, accepted⟩ := needExtend_of_stores stores urlField title
  refine ⟨objects, written, found, extended, accepted.trans ?_⟩
  constructor
  · intro each kept member entry inContent
    exact (each entry (List.mem_flatMap.mpr ⟨kept, member, inContent⟩)).2
  · intro each entry inRuns
    obtain ⟨kept, member, inContent⟩ := List.mem_flatMap.mp inRuns
    have linked : entry.LinkedTo kept.2.address :=
      Tracing.Analyses.linked_of_runAll completed kept member entry (by simp [inContent])
    refine ⟨fun reference noLink => ?_, each kept member entry inContent⟩
    exact addressed kept member (linked.mp noLink) entry inContent reference

/-! ## Single comments -/

/-- What comes of a source file that is one comment, in a repository with a remote. -/
def runOfComment [Libraries] (comment : String) : Tracing.Analyses × Session × Option Fault :=
  let remote : Bytes := Utf8.encode "[remote \"origin\"]\n\turl = https://host/r.git\n".toList
  let source : Bytes := Utf8.encode comment.toList
  let session : Session :=
    { store := ⟨⟨.absolute, []⟩,
        [([".git"], .directory), ([".git", "config"], .file remote), (["a.cpp"], .file source)]⟩
      parser := .knowing [(source, .mk "translation_unit" 0 source.length
        [.mk "comment" 0 source.length []])]
      log := [] }
  let settings : Analysis.Settings := { sources := .paths [⟨.absolute, ["a.cpp"]⟩] }
  (Tracing.Analyses.ofSettings ⟨.absolute, ["out"]⟩ [("project", settings)]).runAll session

theorem content_of_isOk {analyses : Tracing.Analyses} (storable : analyses.content.isOk = true) :
    ∃ content, analyses.content = .ok content := by
  cases stored : analyses.content with
  | error fault => simp [stored, Except.isOk, Except.toBool] at storable
  | ok content => exact ⟨content, rfl⟩

theorem needExtend_accepts_reference :
    (runOfComment "// @need-ids: N1").2.2 = none ∧ ∃ content objects written,
      (runOfComment "// @need-ids: N1").1.content = .ok content ∧
      Commands.storedObjects content = .ok objects ∧
      needExtend "remote_url" none objects = .ok written ∧ written.report = [] := by
  have completed : (runOfComment "// @need-ids: N1").2.2 = none :=
    Option.isNone_iff_eq_none.mp (by decide +kernel)
  obtain ⟨content, stored⟩ := @content_of_isOk (runOfComment "// @need-ids: N1").1
    (by decide +kernel)
  obtain ⟨objects, written, found, extended, accepted⟩ := needExtend_of_runAll
    (Prod.ext rfl (Prod.ext rfl completed)) stored (by decide +kernel) "remote_url" none
  exact ⟨completed, content, objects, written, stored, found, extended,
    accepted.mpr (by decide +kernel)⟩

/-- A marker without ids makes the stored content of its run unfit for export. -/
theorem needExtend_refuses_lone_marker :
    (runOfComment "// @need-ids:").2.2 = none ∧ ∃ content objects written,
      (runOfComment "// @need-ids:").1.content = .ok content ∧
      Commands.storedObjects content = .ok objects ∧
      needExtend "remote_url" none objects = .ok written ∧ written.report ≠ [] := by
  have completed : (runOfComment "// @need-ids:").2.2 = none :=
    Option.isNone_iff_eq_none.mp (by decide +kernel)
  obtain ⟨content, stored⟩ := @content_of_isOk (runOfComment "// @need-ids:").1
    (by decide +kernel)
  obtain ⟨objects, found, stores⟩ := storedObjects_of_content stored
  obtain ⟨written, extended, accepted⟩ := needExtend_of_stores stores "remote_url" none
  refine ⟨completed, content, objects, written, stored, found, extended, fun empty => ?_⟩
  have incomplete : ¬ ∀ entry ∈ (runOfComment "// @need-ids:").1.runs.flatMap
      fun kept => kept.2.content, IsComplete entry.payload := by
    decide +kernel
  exact incomplete fun entry member => (accepted.mp empty entry member).2

end Tracemark.Export
