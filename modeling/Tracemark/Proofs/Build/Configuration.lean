import Tracemark.Build.Setup
import Tracemark.Proofs.Build.Pages
import Tracemark.Proofs.Tracing.Generation

/-!
# Projects of a build

The projects of a build are given among its own settings or loaded from a configuration file.
Only those that are loaded get generated settings, so only they can be traced.
-/

set_option autoImplicit false

namespace Tracemark

namespace Tracing

/-! ## Projects as they are given -/

/-- The members of a project that was only given are plain. -/
theorem Project.plain_of_ofValue {value : Value} {members : ProjectMembers}
    (given : Project.ofValue value = .members members) {name : String} {member : ProjectMember}
    (found : members.get? name = some member) : ∃ plain, member = .plain plain := by
  cases value with
  | object own =>
      cases given
      obtain ⟨entry, isFound, rfl⟩ := Option.map_eq_some_iff.mp found
      obtain ⟨pair, _, rfl⟩ := List.mem_map.mp (List.mem_of_find?_eq_some isFound)
      exact ⟨pair.2, rfl⟩
  | _ => cases given

theorem Projects.exists_of_mem_ofValue {value : Value} {projects : List (String × Project)}
    (given : Projects.ofValue value = .named projects) {name : String} {project : Project}
    (member : (name, project) ∈ projects) : ∃ own, Project.ofValue own = project := by
  cases value with
  | object entries =>
      cases given
      obtain ⟨entry, _, same⟩ := List.mem_map.mp member
      exact ⟨entry.2, congrArg Prod.snd same⟩
  | _ => cases given

/-- Only where there are no projects does generating settings change nothing. -/
theorem Projects.generate_eq_self_iff {given : Members} {generated : Projects}
    (generates : (Projects.ofValue (.object given)).generate = (generated, none)) :
    generated = Projects.ofValue (.object given) ↔ given = [] := by
  obtain ⟨own, projects, isOwn, rfl, related⟩ := Projects.exists_named_of_generate generates
  obtain rfl := Projects.named.inj isOwn
  constructor
  · intro same
    cases given with
    | nil => rfl
    | cons entry rest =>
        rw [Projects.named.inj same] at related
        obtain ⟨_, generatesFirst⟩ := (List.forall₂_cons.mp related).1
        obtain ⟨given, members, discovery, analysis, isGiven, isMembers, carries⟩ :=
          Project.carries_of_generate generatesFirst
        -- Generated settings are not plain.
        obtain ⟨plain, isPlain⟩ := Project.plain_of_ofValue isMembers carries.discovery
        cases isPlain
  · rintro rfl
    cases related
    rfl

namespace SettingTable

section

variable {settingOf : String → Value → Setting} {values : Members} {name : String}

theorem get?_putAll_of_absent (absent : name ∉ values.map (·.1)) (table : SettingTable) :
    (values.foldl (fun table entry => table.put entry.1 (settingOf entry.1 entry.2)) table).get? name =
      table.get? name := by
  induction values generalizing table with
  | nil => rfl
  | cons entry rest ih =>
      simp only [List.map_cons, List.mem_cons, not_or] at absent
      rw [List.foldl_cons, ih absent.2, get?_put, if_neg (Ne.symm absent.1)]

/-- Of settings whose names differ, each one is found after all were put. -/
theorem get?_putAll {value : Value} (distinct : (values.map (·.1)).Nodup)
    (member : (name, value) ∈ values) (table : SettingTable) :
    (values.foldl (fun table entry => table.put entry.1 (settingOf entry.1 entry.2)) table).get? name =
      some (settingOf name value) := by
  induction values generalizing table with
  | nil => cases member
  | cons entry rest ih =>
      obtain ⟨fresh, others⟩ := List.nodup_cons.mp distinct
      rw [List.foldl_cons]
      rcases List.mem_cons.mp member with rfl | later
      · rw [get?_putAll_of_absent fresh, get?_put, if_pos rfl]
      · exact ih others later _

end

end SettingTable

/-- Projects among the settings of a build are read as they are given. -/
theorem Settings.projects_of_hostTable {values : Members} {value : Value}
    (distinct : (values.map (·.1)).Nodup) (member : (hostLabel ++ "projects", value) ∈ values)
    (bare : Bool) :
    Settings.get { host := some (Settings.hostTable values bare) } "projects" =
      .ok (.projects (.ofValue value)) := by
  have found := @SettingTable.get?_putAll
    (fun name value => if name == hostLabel ++ "projects" then .projects (.ofValue value) else .plain value)
    values _ value distinct member
    (if bare then [] else standardSettings.map fun entry => (hostLabel ++ entry.1, entry.2))
  rw [beq_self_eq_true, if_pos rfl] at found
  simp only [Settings.get, Settings.hostTable]
  rw [found]

end Tracing

namespace Build

open Tracing

variable {state after : State}

theorem label_inj {name other : String} : hostLabel ++ name = hostLabel ++ other ↔ name = other := by
  constructor
  · intro same
    have characters := congrArg String.toList same
    rw [String.toList_append, String.toList_append] at characters
    exact String.toList_inj.mp (List.append_cancel_left characters)
  · exact congrArg _

/-! ## Projects that are loaded -/

/-- Settings other than projects leave the projects as they are. -/
theorem takeSettings_cons_of_other {name : String} {value : Value} (other : name ≠ "projects")
    (rest : Members) (state : State) :
    ∃ settings,
      settings.get? (hostLabel ++ "projects") = state.settings.get? (hostLabel ++ "projects") ∧
      (takeSettings ((name, value) :: rest)).run.run state =
        (takeSettings rest).run.run { state with settings := settings } := by
  rw [takeSettings]
  split
  · refine ⟨state.settings.put (hostLabel ++ name) (.plain value), ?_, ?_⟩
    · rw [SettingTable.get?_put, if_neg (mt label_inj.mp other)]
    · rw [if_neg (by simpa using other)]
      rfl
  · exact ⟨state.settings, rfl, rfl⟩

theorem takeSettings_of_absent {members : Members} (absent : "projects" ∉ members.map (·.1))
    (state : State) :
    ∃ settings,
      settings.get? (hostLabel ++ "projects") = state.settings.get? (hostLabel ++ "projects") ∧
      (takeSettings members).run.run state = (.ok (), { state with settings := settings }) := by
  induction members generalizing state with
  | nil => exact ⟨state.settings, rfl, rfl⟩
  | cons entry rest ih =>
      simp only [List.map_cons, List.mem_cons, not_or] at absent
      obtain ⟨settings, kept, ran⟩ := takeSettings_cons_of_other (Ne.symm absent.1) rest state
      obtain ⟨last, keptRest, ranRest⟩ := ih absent.2 { state with settings := settings }
      exact ⟨last, keptRest.trans kept, ran.trans ranRest⟩

/-- Projects that are loaded get generated settings, or else nothing is loaded. -/
theorem takeSettings_of_member {members : Members} {value : Value}
    (distinct : (members.map (·.1)).Nodup) (member : ("projects", value) ∈ members) (state : State) :
    ∃ settings,
      (takeSettings members).run.run state =
          (match ((Projects.ofValue value).generate).2 with
            | none => .ok ()
            | some fault => .error fault, { state with settings := settings }) ∧
        (((Projects.ofValue value).generate).2 = none →
          settings.get? (hostLabel ++ "projects") =
            some (.projects ((Projects.ofValue value).generate).1)) := by
  induction members generalizing state with
  | nil => cases member
  | cons entry rest ih =>
      obtain ⟨fresh, others⟩ := List.nodup_cons.mp distinct
      rcases List.mem_cons.mp member with rfl | later
      · have known : (standardSettings.get? "projects").isSome = true := rfl
        rw [takeSettings, if_pos known, if_pos (beq_self_eq_true _)]
        rcases (Projects.ofValue value).generate with ⟨generated, fault⟩
        cases fault with
        | some cause => exact ⟨state.settings, rfl, nofun⟩
        | none =>
            obtain ⟨settings, kept, ran⟩ := takeSettings_of_absent fresh
              { state with settings := state.settings.put (hostLabel ++ "projects") (.projects generated) }
            refine ⟨settings, ran, fun _ => kept.trans ?_⟩
            rw [SettingTable.get?_put, if_pos rfl]
      · have other : entry.1 ≠ "projects" := fun same =>
          fresh (List.mem_map.mpr ⟨_, later, same.symm⟩)
        obtain ⟨settings, _, ran⟩ := takeSettings_cons_of_other other rest state
        obtain ⟨last, ranRest, found⟩ := ih others later { state with settings := settings }
        exact ⟨last, ran.trans ranRest, found⟩

/-! ## Both ways -/

/-- No project whose members are as they were given can be traced. -/
theorem call_fails_of_given [Libraries] {value : Value}
    (given : Settings.get { host := some state.settings } "projects" = .ok (.projects (.ofValue value)))
    (call : Call) : (call.run.run.run state).1.isOk = false := by
  rcases ran : call.run.run.run state with ⟨result, after⟩
  rcases Result.run_bind_cases ran with ⟨fault, _, rfl⟩ | ⟨traced, middle, isTraced, _⟩
  · rfl
  · obtain ⟨setting, project, discovery, _, _, _, _, _, _, _, isSetting, isProject, isMember, _⟩ :=
      traceProject_eq_ok isTraced
    cases given.symm.trans isSetting
    obtain ⟨projects, name, isNamed, _, inProjects⟩ := exists_project_of_projectMembers isProject
    obtain ⟨entry, isGiven⟩ := Projects.exists_of_mem_ofValue (Setting.projects.inj isNamed) inProjects
    obtain ⟨plain, isPlain⟩ := Project.plain_of_ofValue isGiven isMember
    cases isPlain

/-- Projects that are given among the settings of a build stay as they are given, and none of
them can be traced. The same projects loaded from a file carry the settings generated from
their sections, or loading ends where generating them does. So the two ways agree only where
there are no projects. -/
theorem projects_of_both_ways [Libraries] {given values members : Members} (bare : Bool)
    (valuesDistinct : (values.map (·.1)).Nodup)
    (inValues : (hostLabel ++ "projects", .object given) ∈ values)
    (membersDistinct : (members.map (·.1)).Nodup)
    (inMembers : ("projects", .object given) ∈ members) (state : State) :
    let own : State := { state with settings := Settings.hostTable values bare }
    let loaded := (takeSettings members).run.run state
    Settings.get { host := some own.settings } "projects" =
        .ok (.projects (.ofValue (.object given))) ∧
      (∀ call : Call, (call.run.run.run own).1.isOk = false) ∧
      (match (Projects.ofValue (.object given)).generate with
        | (_, some fault) => loaded.1 = .error fault
        | (generated, none) =>
            loaded.1 = .ok () ∧
              Settings.get { host := some loaded.2.settings } "projects" = .ok (.projects generated) ∧
              (∃ projects, generated = .named projects ∧
                List.Forall₂ (fun entry project => project.1 = entry.1 ∧
                  ∃ sections carried discovery analysis, Project.ofValue entry.2 = .members sections ∧
                    project.2 = .members carried ∧
                    Project.Carries sections carried discovery analysis) given projects) ∧
              (generated = Projects.ofValue (.object given) ↔ given = [])) := by
  intro own loaded
  have read := Settings.projects_of_hostTable valuesDistinct inValues bare
  obtain ⟨settings, ran, found⟩ := takeSettings_of_member membersDistinct inMembers state
  refine ⟨read, fun call => call_fails_of_given read call, ?_⟩
  rcases generates : (Projects.ofValue (.object given)).generate with ⟨generated, fault⟩
  rw [generates] at ran found
  cases fault with
  | some cause => exact congrArg Prod.fst ran
  | none =>
      refine ⟨congrArg Prod.fst ran, ?_, ?_, Projects.generate_eq_self_iff generates⟩
      · have isSettings : loaded.2.settings = settings := congrArg (fun outcome => outcome.2.settings) ran
        simp only [Settings.get, isSettings, found rfl]
      · obtain ⟨sections, projects, isGiven, isGenerated, related⟩ :=
          Projects.exists_named_of_generate generates
        obtain rfl := Projects.named.inj isGiven
        refine ⟨projects, isGenerated, (List.forall₂_map_left_iff.mp related).imp fun entry project both => ?_⟩
        obtain ⟨sameName, generatesOne⟩ := both
        exact ⟨sameName, Project.carries_of_generate generatesOne⟩

/-- A project with a source directory and nothing else, given and loaded. -/
theorem projects_of_both_ways_differ :
    let given : Members := [("p", .object [("source_discover", .object [("src_dir", .text "../src")])])]
    let state := buildOf [] []
    let own : State :=
      { state with settings := Settings.hostTable [("src_trace_projects", .object given)] false }
    let loaded :=
      (takeSettings [("set_local_url", .bool true), ("projects", .object given)]).run.run state
    Settings.get { host := some own.settings } "projects" =
        .ok (.projects (.ofValue (.object given))) ∧
      (∀ call : Call, (call.run.run.run own).1.isOk = false) ∧ loaded.1 = .ok () ∧
      ∃ generated, Settings.get { host := some loaded.2.settings } "projects" =
          .ok (.projects generated) ∧
        generated ≠ Projects.ofValue (.object given) := by
  intro given state own loaded
  have succeeds : ((Projects.ofValue (.object given)).generate).2.isNone = true := by
    decide +kernel
  obtain ⟨read, fails, outcome⟩ := @projects_of_both_ways _ given
    [("src_trace_projects", .object given)]
    [("set_local_url", .bool true), ("projects", .object given)] false (by decide)
    List.mem_cons_self (by decide) (List.mem_cons_of_mem _ List.mem_cons_self) state
  rcases generates : (Projects.ofValue (.object given)).generate with ⟨generated, fault⟩
  rw [generates] at succeeds outcome
  obtain rfl := Option.isNone_iff_eq_none.mp succeeds
  obtain ⟨isLoaded, isRead, _, agree⟩ := outcome
  exact ⟨read, fails, isLoaded, generated, isRead, fun same => List.cons_ne_nil _ _ (agree.mp same)⟩

end Build

end Tracemark
