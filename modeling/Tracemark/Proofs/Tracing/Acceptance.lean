import Tracemark.Proofs.OneLine.Reading
import Tracemark.Proofs.Tracing.Generation

/-!
# Accepted configurations

What the checks of a configuration guarantee of every project whose settings were generated.
-/

set_option autoImplicit false

namespace Tracemark

open Schema (Satisfies)

theorem Language.exists_ofSetting?_of_mem {text : String} (known : text ∈ all.map name) :
    ∃ language, ofSetting? (.text text) = some language := by
  rw [← Option.isSome_iff_exists, ofSetting?, ofName?, List.find?_isSome]
  obtain ⟨language, member, isName⟩ := List.mem_map.mp known
  exact ⟨language, member, by simp [isName]⟩

theorem Discovery.Settings.exists_language_of_check [Libraries] {settings : Settings}
    (accepted : settings.check = []) :
    ∃ language, Language.ofSetting? settings.language = some language := by
  have satisfied := Schema.fieldReports_eq_nil_iff.mp accepted
    ("comment_type", [.types [.string], .oneOfTexts (Language.all.map Language.name)],
      settings.language)
    (by simp [schemas, toMembers])
  obtain ⟨_, ⟨text, known, isText⟩, _⟩ := satisfied
  obtain ⟨language, isLanguage⟩ := Language.exists_ofSetting?_of_mem known
  exact ⟨language, (congrArg Language.ofSetting? isText).trans isLanguage⟩

namespace Analysis.Settings

/-- The style of described settings is described itself. -/
theorem exists_style_of_ofSection {content filled : Value} {settings : Settings}
    (described : ofSection content none = (filled, .ok settings)) :
    ∃ given, (OneLine.Style.ofSettings given).2 = .ok settings.style := by
  unfold ofSection at described
  split at described
  · cases described
    exact ⟨.null, rfl⟩
  · split at described
    · rename_i members _
      obtain ⟨_, made⟩ := Prod.mk.inj described
      obtain ⟨style, isStyle, made⟩ := Result.bind_eq_ok_iff.mp made
      obtain ⟨references, _, made⟩ := Result.bind_eq_ok_iff.mp made
      obtain ⟨blocks, _, made⟩ := Result.bind_eq_ok_iff.mp made
      obtain ⟨own, isOwn, made⟩ := Result.bind_eq_ok_iff.mp made
      refine ⟨_, isStyle.trans ?_⟩
      cases made
      unfold ofMembers at isOwn
      split at isOwn
      · cases isOwn
      · cases isOwn
        rfl
    · cases described

theorem addPart_eq_nil_iff {headline : String} {lines : List String}
    {report : List String × List String} :
    (addPart headline lines report).1 ++ (addPart headline lines report).2 = [] ↔
      lines = [] ∧ report.1 ++ report.2 = [] := by
  cases lines with
  | nil => simp [addPart]
  | cons line rest => simp [addPart]

theorem check_style [Libraries] {settings : Settings} (wanted : settings.wantNeeds.truthy = true)
    (accepted : settings.check = .ok []) : settings.style.check = .ok [] := by
  simp only [check, wanted, if_true] at accepted
  obtain ⟨lines, isStyle, accepted⟩ := Result.bind_eq_ok_iff.mp accepted
  obtain ⟨markers, _, accepted⟩ := Result.bind_eq_ok_iff.mp accepted
  have empty := Report.arrange_eq_nil_iff.mp (Except.ok.inj accepted)
  have withBlocks := (addPart_eq_nil_iff.mp empty).2
  have noLines : lines = [] := by
    split at withBlocks
    · exact (addPart_eq_nil_iff.mp (addPart_eq_nil_iff.mp withBlocks).2).1
    · exact (addPart_eq_nil_iff.mp withBlocks).1
  rw [isStyle, noLines]

end Analysis.Settings

namespace Tracing

/-! ## Projects -/

namespace Project

/-- The project has all that tracing looks up: generated settings for a known language, a style
with a layout, and where remote links are wanted, a pattern for them. -/
structure Ready (wantRemote : Bool) (members : ProjectMembers) (discovery : Discovery.Settings)
    (analysis : Analysis.Settings) (layout : OneLine.Layout) (objects : List Members) : Prop where
  discovered : members.get? "source_discover_config" = some (.discovery discovery)
  analysed : members.get? "analyse_config" = some (.analysis analysis)
  spoken : ∃ language, Language.ofSetting? discovery.language = some language
  style : analysis.style.HasLayout layout objects
  required : ∀ name ∈ OneLine.Style.requiredNames, name ∈ layout.names
  pattern : wantRemote = true →
    ∃ template, members.get? "remote_url_pattern" = some (.plain (.text template))

theorem pattern_of_patternLines {members : ProjectMembers} (accepted : patternLines true members = []) :
    ∃ template, members.get? "remote_url_pattern" = some (.plain (.text template)) := by
  unfold patternLines at accepted
  split at accepted
  · cases accepted
  · rename_i template isPattern
    exact ⟨template, isPattern⟩
  · cases accepted

theorem ready_of_check [Libraries] {given members : ProjectMembers} {discovery : Discovery.Settings}
    {analysis : Analysis.Settings} (carries : Carries given members discovery analysis)
    {wantRemote : Bool} {name : String}
    (accepted : check (.ok wantRemote) name (.members members) = .ok []) :
    ∃ layout objects, Ready wantRemote members discovery analysis layout objects := by
  obtain ⟨discoveryReport, isDiscovery, accepted⟩ := Result.bind_eq_ok_iff.mp accepted
  obtain ⟨analysisReport, isAnalysis, accepted⟩ := Result.bind_eq_ok_iff.mp accepted
  have empty : analysisReport ++ discoveryReport ++ patternLines wantRemote members = [] := by
    by_contra reported
    simp only [bind, Except.bind, List.isEmpty_iff, reported, if_false] at accepted
    cases accepted
  simp only [List.append_eq_nil_iff] at empty
  obtain ⟨⟨rfl, rfl⟩, noPattern⟩ := empty
  simp only [discoveryLines, carries.discovery, Except.ok.injEq] at isDiscovery
  simp only [analysisLines, carries.analysis] at isAnalysis
  obtain ⟨filled, settings, described, isGenerated⟩ := carries.analysed
  obtain ⟨section_, made⟩ := Analysis.Settings.exists_style_of_ofSection described
  -- Generated settings always want needs, so the check of the style is not skipped.
  have checked := Analysis.Settings.check_style (by rw [isGenerated]; rfl) isAnalysis
  have sameStyle : analysis.style = settings.style := by rw [isGenerated]
  obtain ⟨layout, objects, has, required⟩ := OneLine.Style.exists_layout (sameStyle ▸ made) checked
  refine ⟨layout, objects, carries.discovery, carries.analysis,
    Discovery.Settings.exists_language_of_check isDiscovery, has, required, ?_⟩
  intro wanted
  rw [wanted] at noPattern
  exact pattern_of_patternLines noPattern

end Project

/-! ## Settings -/

namespace Settings

variable {settings : Settings}

theorem satisfies_of_checkSchema [Libraries] (accepted : settings.checkSchema = .ok [])
    {name : String} {schema : List Schema.Keyword} (listed : (name, schema) ∈ schemas) :
    ∃ setting, settings.get name = .ok setting ∧ Satisfies schema setting.value := by
  obtain ⟨lines, mapped, arranged⟩ := Result.bind_eq_ok_iff.mp accepted
  have empty := Report.arrange_eq_nil_iff.mp (Except.ok.inj arranged)
  obtain ⟨line, isLine, checked⟩ := Result.exists_of_mem_mapM mapped listed
  obtain ⟨setting, isSetting, made⟩ := Result.bind_eq_ok_iff.mp checked
  have noLine : line = none := by
    rw [List.filterMap_eq_nil_iff] at empty
    exact empty line isLine
  cases made
  exact ⟨setting, isSetting, Schema.best?_eq_none_iff.mp (Option.map_eq_none_iff.mp noLine)⟩

/-- Accepted settings satisfy their schemas, and so does every project. -/
theorem parts_of_check [Libraries] (accepted : settings.check = .ok []) :
    settings.checkSchema = .ok [] ∧ settings.checkProjects = .ok [] := by
  obtain ⟨schema, isSchema, accepted⟩ := Result.bind_eq_ok_iff.mp accepted
  obtain ⟨projects, isProjects, accepted⟩ := Result.bind_eq_ok_iff.mp accepted
  have empty := Report.arrange_eq_nil_iff.mp (Except.ok.inj accepted)
  obtain ⟨rfl, rfl⟩ := List.append_eq_nil_iff.mp empty
  exact ⟨isSchema, isProjects⟩

/-- Every project of accepted settings is ready to be traced. -/
theorem exists_ready [Libraries] {given : Projects} {entries : List (String × Project)}
    (accepted : settings.check = .ok [])
    (isSetting : settings.get "projects" = .ok (.projects (.named entries)))
    (generates : given.generate = (.named entries, none)) {name : String} {project : Project}
    (member : (name, project) ∈ entries) :
    ∃ members discovery analysis layout objects remote, project = .members members ∧
      settings.get "set_remote_url" = .ok remote ∧
      Project.Ready remote.value.truthy members discovery analysis layout objects := by
  obtain ⟨acceptedSchema, acceptedProjects⟩ := parts_of_check accepted
  obtain ⟨remote, isRemote, _⟩ := satisfies_of_checkSchema acceptedSchema
    (show ("set_remote_url", [.types [.boolean]]) ∈ schemas by simp [schemas])
  obtain ⟨own, projects, _, isNamed, related⟩ := Projects.exists_named_of_generate generates
  cases isNamed
  obtain ⟨⟨_, first⟩, _, rfl, generated⟩ := OneLine.exists_related related.flip member
  obtain ⟨given, members, discovery, analysis, _, rfl, carries⟩ := Project.carries_of_generate generated
  refine ⟨members, discovery, analysis, ?_⟩
  obtain ⟨setting, again, checked⟩ := Result.bind_eq_ok_iff.mp acceptedProjects
  cases isSetting.symm.trans again
  obtain ⟨_, ⟨⟩, checked⟩ := Result.bind_eq_ok_iff.mp checked
  obtain ⟨reports, mapped, arranged⟩ := Result.bind_eq_ok_iff.mp checked
  have empty := Report.arrange_eq_nil_iff.mp (Except.ok.inj arranged)
  obtain ⟨report, isReport, reported⟩ := Result.exists_of_mem_mapM mapped member
  have noReport : report = [] := List.flatten_eq_nil_iff.mp empty report isReport
  rw [isRemote, noReport] at reported
  obtain ⟨layout, objects, ready⟩ := Project.ready_of_check carries reported
  exact ⟨layout, objects, remote, rfl, isRemote, ready⟩

end Settings

end Tracing

end Tracemark
