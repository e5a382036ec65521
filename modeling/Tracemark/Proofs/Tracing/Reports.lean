import Tracemark.Proofs.OneLine.Reports
import Tracemark.Proofs.Schema.Relevance
import Tracemark.Proofs.Tracing.Acceptance

/-!
# Reports on generated settings

The checks of generated settings put the sequences and markers into a set and name the field of a
style that is wrong, so they end in a report only where both can be done.
-/

set_option autoImplicit false

namespace Tracemark

namespace Analysis.Settings

open OneLine

/-- What the checks of settings that want needs have to be able to do: name the fields of the
style, and take the sequences and the markers into a set. -/
structure IsReportable (settings : Settings) : Prop where
  style : ∃ objects, settings.style.IsReportable objects
  sequences : ∀ value ∈ [settings.style.startSequence, settings.style.endSequence,
    settings.blocks.startSequence, settings.blocks.endSequence], value.isScalar = true
  markers : ∃ items, settings.references.markers.items = .ok items ∧
    ∀ item ∈ items, item.isScalar = true

variable {settings : Settings}

theorem exists_checkMarkers_iff :
    (∃ lines, settings.checkMarkers = .ok lines) ↔
      (∀ value ∈ [settings.style.startSequence, settings.style.endSequence,
        settings.blocks.startSequence, settings.blocks.endSequence], value.isScalar = true) ∧
      ∃ items, settings.references.markers.items = .ok items ∧
        ∀ item ∈ items, item.isScalar = true := by
  have taken : ∀ {names : List Value} {rest : Prop},
      (∃ set, Style.asSet names = .ok set ∧ rest) ↔ (∀ name ∈ names, name.isScalar = true) ∧ rest := by
    intro names rest
    rw [← Style.exists_asSet_iff, exists_and_right]
  simp only [checkMarkers, Result.exists_bind_eq_ok_iff, Result.exists_pure_eq_ok, taken]
  simp only [List.forall_mem_cons, List.not_mem_nil, false_imp_iff, implies_true, and_true]
  tauto

theorem exists_report_iff [Libraries] (reports : Schema.ReportsByRelevance)
    (wanted : settings.wantNeeds.truthy = true) (filled : TypesFilled settings.style.fields) :
    (∃ report, settings.check = .ok report) ↔ settings.IsReportable := by
  simp only [check, wanted, if_true, Result.exists_bind_eq_ok_iff, Result.exists_pure_eq_ok,
    and_true, exists_and_right, exists_checkMarkers_iff, Style.exists_report_iff reports filled]
  constructor
  · rintro ⟨style, sequences, markers⟩
    exact ⟨style, sequences, markers⟩
  · rintro ⟨style, sequences, markers⟩
    exact ⟨style, sequences, markers⟩

end Analysis.Settings

namespace Tracing.Project

/-- A project whose settings were generated carries settings of an analysis. Their checks end in a
report, and not in a fault, exactly when the sequences and the markers can be taken into a set and
the fields of the style can be named. -/
theorem exists_report_of_generate [Libraries] (reports : Schema.ReportsByRelevance)
    {project generated : Project} (generates : project.generate = (generated, none)) :
    ∃ members analysis, generated = .members members ∧
      members.get? "analyse_config" = some (.analysis analysis) ∧
      ((∃ report, analysis.check = .ok report) ↔ analysis.IsReportable) := by
  obtain ⟨given, members, discovery, analysis, _, isGenerated, carries⟩ :=
    carries_of_generate generates
  obtain ⟨filled, settings, described, isAnalysis⟩ := carries.analysed
  obtain ⟨source, made⟩ := Analysis.Settings.exists_style_of_ofSection described
  refine ⟨members, analysis, isGenerated, carries.analysis, ?_⟩
  apply Analysis.Settings.exists_report_iff reports
  · rw [isAnalysis]
    rfl
  · rw [isAnalysis]
    exact OneLine.Style.typesFilled_of_settings made

/-- Of two projects whose second field has a default with a number in it, the one with the number
at a position where there is no field gets no report. Nor does one with a number for its markers. -/
theorem exists_report_within_fields :
    let styled (fallback : List Value) : Project := .ofValue (.object
      [("analyse", .object [("oneline_comment_style", .object [("needs_fields", .list [
        .object [("name", .text "title")],
        .object [("name", .text "type"), ("type", .text "list[str]"),
          ("default", .list fallback)]])])])])
    let marked : Project := .ofValue (.object
      [("analyse", .object [("need_id_refs", .object [("markers", .int 5)])])])
    let reports (project : Project) : Prop := ∃ members analysis report,
      project.generate = (.members members, none) ∧
        members.get? "analyse_config" = some (.analysis analysis) ∧ analysis.check = .ok report
    reports (styled [.text "a", .int 5]) ∧
      ¬ reports (styled [.text "a", .text "b", .text "c", .int 5]) ∧ ¬ reports marked := by
  intro styled marked reports
  have reported : ∀ {project : Project} {analysis : Analysis.Settings},
      (∃ members, project.generate = (.members members, none) ∧
        members.get? "analyse_config" = some (.analysis analysis)) →
      (reports project ↔ analysis.IsReportable) := by
    rintro project analysis ⟨members, generates, found⟩
    obtain ⟨_, _, ⟨⟩, isAnalysis, reportIff⟩ :=
      exists_report_of_generate Schema.reportsByRelevance_reference generates
    obtain ⟨⟩ := isAnalysis.symm.trans found
    rw [← reportIff]
    constructor
    · rintro ⟨others, other, report, again, foundAgain, isReport⟩
      cases generates.symm.trans again
      cases found.symm.trans foundAgain
      exact ⟨report, isReport⟩
    · rintro ⟨report, isReport⟩
      exact ⟨members, analysis, report, generates, found, isReport⟩
  let objects (fallback : List Value) : List Members :=
    [[("name", .text "title"), ("type", .text "str")],
      [("name", .text "type"), ("type", .text "list[str]"), ("default", .list fallback)]]
  have styledIff : ∀ fallback, reports (styled fallback) ↔ Analysis.Settings.IsReportable
      { wantNeeds := .bool true, style := { fields := .list ((objects fallback).map .object) } } :=
    fun fallback => reported ⟨_, rfl, rfl⟩
  have markedIff : reports marked ↔ Analysis.Settings.IsReportable
      { wantNeeds := .bool true, references := ⟨.int 5⟩ } :=
    reported ⟨_, rfl, rfl⟩
  refine ⟨(styledIff _).mpr ⟨⟨objects _, rfl, ?_, ?_⟩, ?_, ?_⟩, ?_, ?_⟩
  · simp [objects, Members.get?, Value.isScalar]
  · rintro ⟨field, position, points⟩
    obtain ⟨members, isField, loose⟩ := points.loose
    obtain ⟨texts, item, rest, found, rfl, _⟩ := loose.items
    have beyond : 2 ≤ texts.length := points.beyond
    -- Only the second field has a default, and its items are too few to reach beyond the fields.
    rcases field with _ | _ | field
    · cases isField
      cases found
    · cases isField
      have lengths := congrArg List.length (Value.list.inj (Option.some.inj found))
      simp only [List.length_append, List.length_map, List.length_cons, List.length_nil] at lengths
      omega
    · cases isField
  · simp [Value.isScalar]
  · exact ⟨_, rfl, by simp [Value.isScalar]⟩
  · rw [styledIff]
    rintro ⟨⟨others, isList, _, within⟩, _, _⟩
    have same : objects _ = others :=
      List.map_injective_iff.mpr (fun _ _ => Value.object.inj) (Value.list.inj isList)
    subst same
    refine within ⟨1, 3, ?_, ⟨_, rfl, ⟨_, rfl⟩, rfl, ["a", "b", "c"], .int 5, [], rfl, rfl, ?_⟩, ?_,
      by decide⟩
    · simp only [objects, List.forall_mem_cons, List.not_mem_nil, false_imp_iff, implies_true,
        and_true]
      decide
    · intro characters isText
      cases isText
    · intro later members after found
      rcases later with _ | _ | later
      · omega
      · omega
      · cases found
  · rw [markedIff]
    rintro ⟨_, _, _, isItems, _⟩
    cases isItems

end Tracing.Project

end Tracemark
