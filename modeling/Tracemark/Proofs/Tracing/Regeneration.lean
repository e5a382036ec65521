import Tracemark.Proofs.OneLine.Reading
import Tracemark.Proofs.Tracing.Generation

/-!
# Generating settings again

Generating settings changes a project in two ways: the settings are put beside the sections that
describe them, and fields that leave out their type are given one. A section in which every type is
filled in stays as it is, and it describes the settings that it described before. So what was
generated is up to date, and generating it again changes nothing.
-/

set_option autoImplicit false

namespace Tracemark

/-! ## Types that are filled in -/

namespace OneLine

theorem withType_filled {given filled : Value} (fills : withType given = .ok filled) :
    withType filled = .ok filled := by
  cases given with
  | object members =>
      obtain rfl := Except.ok.inj fills
      have typed := withType_object fills
      exact congrArg (fun members => Except.ok (Value.object members)) (if_pos typed)
  | list _ | text _ =>
      simp only [withType] at fills
      split at fills
      · rename_i present
        cases fills
        exact if_pos present
      · cases fills
  | _ => cases fills

theorem withTypes_filled {given filled : List Value} (fills : withTypes given = (filled, none)) :
    withTypes filled = (filled, none) := by
  induction given generalizing filled with
  | nil =>
      cases fills
      rfl
  | cons field rest ih =>
      rcases first : withType field with cause | value
      · simp [withTypes, first] at fills
      · rcases others : withTypes rest with ⟨values, cause⟩
        simp only [withTypes, first, others, Prod.mk.injEq] at fills
        obtain ⟨rfl, rfl⟩ := fills
        simp only [withTypes, withType_filled first, ih others]

theorem fillTypes_filled {given filled : Value} (fills : fillTypes given = (filled, none)) :
    fillTypes filled = (filled, none) := by
  cases given with
  | list fields =>
      rcases each : withTypes fields with ⟨values, cause⟩
      simp only [fillTypes, each, Prod.mk.injEq] at fills
      obtain ⟨rfl, rfl⟩ := fills
      simp only [fillTypes, withTypes_filled each]
  | object _ | text _ =>
      obtain rfl : _ = filled := congrArg Prod.fst fills
      exact fills
  | _ => cases fills

/-- Settings whose types are filled in describe the same style. -/
theorem Style.ofSettings_filled {given filled : Value} {style : Style}
    (made : ofSettings given = (filled, .ok style)) : ofSettings filled = (filled, .ok style) := by
  cases given with
  | null =>
      cases made
      rfl
  | object members =>
      simp only [ofSettings] at made
      split at made
      · cases made
      · rename_i known
        split at made
        · rename_i absent
          cases made
          simp only [ofSettings, known, absent]
        · rename_i fields _
          rcases fills : fillTypes fields with ⟨types, _ | mismatch⟩
          · simp only [fills] at made
            cases made
            have found : Members.get? (Members.put "needs_fields" types members) "needs_fields" =
                some types := by rw [Members.get?_put, if_pos rfl]
            have stillKnown : (Members.put "needs_fields" types members).find?
                (fun member => !memberNames.contains member.1) = none := by
              simp only [List.find?_eq_none, Bool.not_eq_true', Bool.not_eq_false] at known ⊢
              exact (@Members.forall_key_put_iff _ _ _ (memberNames.contains · = true)
                (by decide)).mpr known
            simp only [ofSettings, stillKnown, found, fillTypes_filled fills,
              Members.put_of_get? found]
            simp [Members.get?_put]
          · simp only [fills] at made
            cases made
  | _ => cases made

end OneLine

/-! ## Sections on an analysis -/

namespace Analysis.Settings

/-- The member on the style is not read with the others. -/
theorem ofMembers_put_style {members : Members} {style : OneLine.Style}
    {references : Reference.Settings} {blocks : Block.Settings} {settings : Settings}
    (made : ofMembers members style references blocks = .ok settings) (content : Value) :
    ofMembers (members.put "oneline_comment_style" content) style references blocks =
      .ok settings := by
  have known : refuseUnknown "SourceAnalyseConfig" memberNames
      (members.filter fun member => !isSubsection member.1) = .ok () := by
    unfold ofMembers at made
    split at made
    · cases made
    · assumption
  have stillKnown : refuseUnknown "SourceAnalyseConfig" memberNames
      ((members.put "oneline_comment_style" content).filter fun member =>
        !isSubsection member.1) = .ok () := by
    simp only [refuseUnknown_eq_ok_iff, List.mem_filter, and_imp] at known ⊢
    exact (@Members.forall_key_put_iff _ _ _
      (fun key => (!isSubsection key) = true → key ∈ memberNames) (by decide)).mpr known
  simp only [ofMembers, known, stillKnown, Members.get?_put] at made ⊢
  simpa using made

/-- The members of a section, with another content of the one on the style if there is one. -/
def withStyle (members : Members) (content : Value) : Members :=
  if members.has "oneline_comment_style" then members.put "oneline_comment_style" content
  else members

/-- The parts of a section that says something are read one by one, and the section is kept with
the types of its style filled in. -/
theorem ofSection_object_eq_ok_iff {members : Members} (told : members ≠ [])
    {found : Option Discovered} {filled : Value} {settings : Settings} :
    ofSection (.object members) found = (filled, .ok settings) ↔
      ∃ content style references blocks own,
        OneLine.Style.ofSettings ((members.get? "oneline_comment_style").getD .null) =
          (content, .ok style) ∧
        Reference.Settings.ofSection ((members.get? "need_id_refs").getD .null) = .ok references ∧
        Block.Settings.ofSection ((members.get? "marked_rst").getD .null) = .ok blocks ∧
        ofMembers members style references blocks = .ok own ∧
        filled = .object (withStyle members content) ∧ settings = own.withDiscovered found := by
  have truthy : (Value.object members).truthy = true := by simp [Value.truthy, told]
  rcases styled : OneLine.Style.ofSettings
    ((members.get? "oneline_comment_style").getD .null) with ⟨content, style⟩
  simp only [ofSection, truthy, styled, Bool.not_true, Bool.false_eq_true, ↓reduceIte,
    Prod.mk.injEq, Result.bind_eq_ok_iff]
  constructor
  · rintro ⟨rfl, style, rfl, references, isReferences, blocks, isBlocks, own, isOwn, isSettings⟩
    cases isSettings
    exact ⟨content, style, references, blocks, own, ⟨rfl, rfl⟩, isReferences, isBlocks, isOwn,
      rfl, rfl⟩
  · rintro ⟨_, style, references, blocks, own, ⟨rfl, rfl⟩, isReferences, isBlocks, isOwn, rfl, rfl⟩
    exact ⟨rfl, style, rfl, references, isReferences, blocks, isBlocks, own, isOwn, rfl⟩

/-- A section whose types are filled in describes the same settings. -/
theorem ofSection_filled {content filled : Value} {found : Option Discovered} {settings : Settings}
    (made : ofSection content found = (filled, .ok settings)) :
    ofSection filled found = (filled, .ok settings) := by
  by_cases told : content.truthy = true
  · cases content with
    | object members =>
        have some : members ≠ [] := by simpa [Value.truthy] using told
        obtain ⟨content, style, references, blocks, own, styled, isReferences, isBlocks, isOwn,
          rfl, rfl⟩ := (ofSection_object_eq_ok_iff some).mp made
        by_cases present : Members.has members "oneline_comment_style" = true
        · have grown : withStyle members content =
              Members.put "oneline_comment_style" content members := if_pos present
          have holds : (withStyle members content).get? "oneline_comment_style" = .some content := by
            rw [grown, Members.get?_put, if_pos rfl]
          have others : ∀ name, "oneline_comment_style" ≠ name →
              (withStyle members content).get? name = Members.get? members name := by
            intro name other
            rw [grown, Members.get?_put, if_neg other]
          have still : (withStyle members content).has "oneline_comment_style" = true := by
            rw [Members.has_iff_get?_isSome, holds, Option.isSome_some]
          have someStill : withStyle members content ≠ [] := by
            intro empty
            simp [empty, Members.has] at still
          refine (ofSection_object_eq_ok_iff someStill).mpr
            ⟨content, style, references, blocks, own, ?_, ?_, ?_, ?_, ?_, rfl⟩
          · rw [holds, Option.getD_some, OneLine.Style.ofSettings_filled styled]
          · rw [others _ (by decide), isReferences]
          · rw [others _ (by decide), isBlocks]
          · rw [grown, ofMembers_put_style isOwn]
          · exact congrArg Value.object ((if_pos still).trans (Members.put_of_get? holds)).symm
        · have same : withStyle members content = members := if_neg present
          rwa [same] at made ⊢
    | _ => simp [ofSection, told] at made
  · have same : content = filled := by simpa [ofSection, told] using congrArg Prod.fst made
    exact same ▸ made

end Analysis.Settings

/-! ## Projects -/

namespace Tracing

namespace Project

/-- The project carries the settings that its own sections describe, and there is nothing to be
filled in. -/
structure UpToDate (members : ProjectMembers) (discovery : Discovery.Settings)
    (analysis : Analysis.Settings) : Prop extends Carries members members discovery analysis where
  filled : (Analysis.Settings.ofSection (members.sectionOf "analyse") none).1 =
    members.sectionOf "analyse"
  isPlain : ∀ member, members.get? "analyse" = some member → member = .plain member.value

theorem generate_of_upToDate {members : ProjectMembers} {discovery : Discovery.Settings}
    {analysis : Analysis.Settings} (current : UpToDate members discovery analysis) :
    (Project.members members).generate = (.members members, none) := by
  obtain ⟨filled, settings, described, rfl⟩ := current.analysed
  obtain rfl : filled = members.sectionOf "analyse" := by simpa [described] using current.filled
  simp only [generate, current.discovered, ProjectMembers.put_of_get? current.discovery, described]
  rcases found : members.get? "analyse" with _ | member
  · dsimp only
    rw [ProjectMembers.put_of_get? current.analysis]
  · have isSection : members.get? "analyse" = some (.plain (members.sectionOf "analyse")) := by
      rw [ProjectMembers.sectionOf, found]
      exact congrArg some (current.isPlain member found)
    dsimp only
    rw [ProjectMembers.put_of_get? isSection, ProjectMembers.put_of_get? current.analysis]

theorem get?_analyse_of_generate {given members : ProjectMembers}
    (generates : (Project.members given).generate = (.members members, none)) :
    members.get? "analyse" = (given.get? "analyse").map fun _ =>
      .plain (Analysis.Settings.ofSection (given.sectionOf "analyse") none).1 := by
  simp only [generate] at generates
  split at generates
  · cases generates
  · rcases described : Analysis.Settings.ofSection (given.sectionOf "analyse") none with
      ⟨filled, _ | settings⟩
    · rw [described] at generates
      cases generates
    · simp only [described] at generates
      cases generates
      rw [ProjectMembers.get?_put, if_neg (by decide)]
      refine (ProjectMembers.get?_filled_self _ filled).trans ?_
      rw [ProjectMembers.get?_put, if_neg (by decide)]

theorem sectionOf_analyse_of_generate {given members : ProjectMembers}
    (generates : (Project.members given).generate = (.members members, none)) :
    members.sectionOf "analyse" =
      (Analysis.Settings.ofSection (given.sectionOf "analyse") none).1 := by
  rw [ProjectMembers.sectionOf, get?_analyse_of_generate generates]
  cases found : given.get? "analyse" with
  | none =>
      -- Without a section there is nothing to fill in, and none is put.
      rw [ProjectMembers.sectionOf, found]
      rfl
  | some member => rfl

theorem upToDate_of_generate {project generated : Project}
    (generates : project.generate = (generated, none)) :
    ∃ members discovery analysis, generated = .members members ∧
      UpToDate members discovery analysis := by
  obtain ⟨given, members, discovery, analysis, rfl, rfl, carries⟩ := carries_of_generate generates
  obtain ⟨filled, settings, described, rfl⟩ := carries.analysed
  have untouched : members.sectionOf "source_discover" = given.sectionOf "source_discover" := by
    rw [ProjectMembers.sectionOf, carries.others _ (by decide), ProjectMembers.sectionOf]
  have isFilled : members.sectionOf "analyse" = filled := by
    rw [sectionOf_analyse_of_generate generates, described]
  have again : Analysis.Settings.ofSection (members.sectionOf "analyse") none =
      (filled, .ok settings) := by
    rw [isFilled, Analysis.Settings.ofSection_filled described]
  refine ⟨members, discovery, _, rfl, ⟨untouched ▸ carries.discovered,
    ⟨filled, settings, again, rfl⟩, carries.discovery, carries.analysis, fun _ _ => rfl⟩, ?_, ?_⟩
  · rw [again, isFilled]
  · intro member found
    rw [get?_analyse_of_generate generates, Option.map_eq_some_iff] at found
    obtain ⟨_, _, rfl⟩ := found
    rfl

end Project

namespace Projects

theorem generateAll_of_unchanged {projects : List (String × Project)}
    (unchanged : ∀ entry ∈ projects, entry.2.generate = (entry.2, none)) :
    generateAll projects = (projects, none) := by
  induction projects with
  | nil => rfl
  | cons entry rest ih =>
      obtain ⟨first, others⟩ := List.forall_mem_cons.mp unchanged
      rw [generateAll, first, ih others]

/-- What was generated is up to date in every project: generating it again succeeds and changes
nothing. -/
theorem generate_again {given generated : Projects}
    (generates : given.generate = (generated, none)) :
    generated.generate = (generated, none) ∧
      ∃ projects, generated = .named projects ∧ ∀ entry ∈ projects,
        ∃ members discovery analysis, entry.2 = .members members ∧
          Project.UpToDate members discovery analysis := by
  obtain ⟨own, projects, rfl, rfl, each⟩ := exists_named_of_generate generates
  have current : ∀ entry ∈ projects, ∃ members discovery analysis, entry.2 = .members members ∧
      Project.UpToDate members discovery analysis := by
    intro entry member
    obtain ⟨_, _, _, made⟩ := OneLine.exists_related each.flip member
    exact Project.upToDate_of_generate made
  have unchanged : generateAll projects = (projects, none) := by
    refine generateAll_of_unchanged fun entry member => ?_
    obtain ⟨members, discovery, analysis, isProject, upToDate⟩ := current entry member
    rw [isProject, Project.generate_of_upToDate upToDate]
  refine ⟨?_, projects, rfl, current⟩
  rw [generate, unchanged]

/-- A project whose fields leave out their types, and one that says nothing: the first generation
changes them, and the second does not. -/
theorem generate_again_of_untyped :
    let given : Projects := .ofValue (.object
      [("p", .object [("analyse", .object
        [("get_rst", .bool true), ("oneline_comment_style", .object [("needs_fields", .list
          [.object [("name", .text "title")],
            .object [("name", .text "type"), ("default", .text "impl")]])])])]),
        ("q", .object [])])
    let generated := given.generate.1
    given.value.same generated.value = false ∧ generated.generate = (generated, none) := by
  intro given generated
  have generates : given.generate = (generated, none) := Prod.ext rfl (by rfl)
  exact ⟨by decide +kernel, (generate_again generates).1⟩

end Projects

end Tracing

end Tracemark
