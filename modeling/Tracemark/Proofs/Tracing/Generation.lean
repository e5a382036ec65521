import Mathlib.Data.List.Forall2
import Tracemark.Tracing.Settings

/-!
# Generated settings of projects

Every project whose settings were generated carries them beside its sections.
-/

set_option autoImplicit false

namespace Tracemark.Tracing

namespace ProjectMembers

/-- Giving a name a member changes what is found under that name, and nothing else. -/
theorem get?_put (name other : String) (member : ProjectMember) (members : ProjectMembers) :
    (members.put name member).get? other = if name = other then some member else members.get? other := by
  induction members with
  | nil => by_cases same : name = other <;> simp [put, get?, same]
  | cons current rest ih =>
      rw [put]
      split
      · rename_i replaced
        rw [beq_iff_eq] at replaced
        by_cases same : name = other <;> simp [get?, replaced, same]
      · rename_i kept
        by_cases here : current.1 = other
        · have different : name ≠ other := fun same => kept (by simp [here, same])
          simp [get?, here, different]
        · simpa [get?, here] using ih

/-- Giving a name the member that it has changes nothing. -/
theorem put_of_get? {members : ProjectMembers} {name : String} {member : ProjectMember}
    (found : members.get? name = some member) : members.put name member = members := by
  induction members with
  | nil => cases found
  | cons current rest ih =>
      rw [put]
      split
      · rename_i here
        rw [beq_iff_eq] at here
        have same : current.2 = member := by simpa [get?, here] using found
        rw [← here, ← same]
      · rename_i elsewhere
        rw [ih (by simpa [get?, elsewhere] using found)]

/-- Filling in the section on the analysis touches no other member. -/
theorem get?_filled (members : ProjectMembers) (filled : Value) {name : String}
    (different : name ≠ "analyse") :
    (match members.get? "analyse" with
      | some _ => members.put "analyse" (.plain filled)
      | none => members).get? name = members.get? name := by
  split
  · rw [get?_put, if_neg different.symm]
  · rfl

/-- The section on the analysis is filled in where there is one. -/
theorem get?_filled_self (members : ProjectMembers) (filled : Value) :
    (match members.get? "analyse" with
      | some _ => members.put "analyse" (.plain filled)
      | none => members).get? "analyse" = (members.get? "analyse").map fun _ => .plain filled := by
  split
  · rename_i present
    rw [get?_put, if_pos rfl, present, Option.map_some]
  · rename_i absent
    rw [absent, Option.map_none]

end ProjectMembers

namespace SettingTable

/-- Giving a name a setting changes what is found under that name, and nothing else. -/
theorem get?_put (name other : String) (setting : Setting) (table : SettingTable) :
    (table.put name setting).get? other = if name = other then some setting else table.get? other := by
  induction table with
  | nil => by_cases same : name = other <;> simp [put, get?, same]
  | cons current rest ih =>
      rw [put]
      split
      · rename_i replaced
        rw [beq_iff_eq] at replaced
        by_cases same : name = other <;> simp [get?, replaced, same]
      · rename_i kept
        by_cases here : current.1 = other
        · have different : name ≠ other := fun same => kept (by simp [here, same])
          simp [get?, here, different]
        · simpa [get?, here] using ih

end SettingTable

namespace Project

/-- The project carries the settings that its sections describe. The analysis looks for needs,
in the language that files are discovered for. -/
structure Carries (given members : ProjectMembers) (discovery : Discovery.Settings)
    (analysis : Analysis.Settings) : Prop where
  discovered : Discovery.Settings.ofSection (given.sectionOf "source_discover") = .ok discovery
  analysed : ∃ filled settings,
    Analysis.Settings.ofSection (given.sectionOf "analyse") none = (filled, .ok settings) ∧
      analysis = { settings with wantNeeds := .bool true, language := discovery.language }
  discovery : members.get? "source_discover_config" = some (.discovery discovery)
  analysis : members.get? "analyse_config" = some (.analysis analysis)
  others : ∀ name, name ∉ ["source_discover_config", "analyse_config", "analyse"] →
    members.get? name = given.get? name

theorem carries_of_generate {project generated : Project}
    (generates : project.generate = (generated, none)) :
    ∃ given members discovery analysis, project = .members given ∧ generated = .members members ∧
      Carries given members discovery analysis := by
  cases project with
  | other value => cases generates
  | members given =>
      simp only [generate] at generates
      split at generates
      · cases generates
      · rename_i discovery discovered
        rcases described : Analysis.Settings.ofSection (given.sectionOf "analyse") none with
          ⟨filled, _ | settings⟩
        · rw [described] at generates
          cases generates
        · simp only [described] at generates
          cases generates
          refine ⟨given, _, discovery, _, rfl, rfl, discovered, ⟨filled, settings, described, rfl⟩,
            ?_, ?_, fun name other => ?_⟩
          · rw [ProjectMembers.get?_put, if_neg (by decide)]
            refine (ProjectMembers.get?_filled _ filled (by decide)).trans ?_
            rw [ProjectMembers.get?_put, if_pos rfl]
          · rw [ProjectMembers.get?_put, if_pos rfl]
          · simp only [List.mem_cons, List.not_mem_nil, or_false, not_or] at other
            rw [ProjectMembers.get?_put, if_neg (Ne.symm other.2.1)]
            refine (ProjectMembers.get?_filled _ filled other.2.2).trans ?_
            rw [ProjectMembers.get?_put, if_neg (Ne.symm other.1)]

end Project

namespace Projects

theorem forall₂_of_generateAll {given generated : List (String × Project)}
    (generates : generateAll given = (generated, none)) :
    List.Forall₂ (fun entry result => result.1 = entry.1 ∧ entry.2.generate = (result.2, none))
      given generated := by
  induction given generalizing generated with
  | nil =>
      cases generates
      exact .nil
  | cons entry rest ih =>
      obtain ⟨name, project⟩ := entry
      rw [generateAll] at generates
      split at generates
      · cases generates
      · rename_i first made
        rcases others : generateAll rest with ⟨later, fault⟩
        rw [others] at generates
        cases generates
        exact .cons ⟨rfl, made⟩ (ih others)

theorem exists_named_of_generate {given generated : Projects}
    (generates : given.generate = (generated, none)) :
    ∃ own projects, given = .named own ∧ generated = .named projects ∧
      List.Forall₂ (fun entry result => result.1 = entry.1 ∧ entry.2.generate = (result.2, none))
        own projects := by
  cases given with
  | other value => cases generates
  | named own =>
      rcases made : generateAll own with ⟨projects, fault⟩
      simp only [generate, made, Prod.mk.injEq] at generates
      obtain ⟨rfl, rfl⟩ := generates
      exact ⟨own, projects, rfl, rfl, forall₂_of_generateAll made⟩

end Projects

end Tracemark.Tracing
