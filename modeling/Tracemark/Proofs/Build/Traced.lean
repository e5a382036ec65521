import Tracemark.Proofs.Analysis.Completion
import Tracemark.Proofs.Build.SourceFile
import Tracemark.Proofs.Value

/-!
# What a directive finds

Tracing a project changes no file. Where the paths of a build were read, so were the source
directory of the project and the files of its needs.
-/

set_option autoImplicit false

namespace Tracemark

/-! ## Sources of needs -/

namespace Tracing.Analyses

variable {name : String} {settings : Analysis.Settings} {session after : Session}
  {run : Analysis.Run}

theorem store_of_runProject [Libraries]
    (ran : (runProject name settings).run.run session = (.ok run, after)) :
    after.store = session.store :=
  ((onlyNotes_runProject name settings).keeps ran).1

/-- The needs of a run stand in its files, and are linked to where they stand. -/
theorem place_of_mem_needs [Libraries]
    (ran : (runProject name settings).run.run session = (.ok run, after))
    {paths : List Path} (lists : settings.sources.asPaths = .ok paths) {entry : Analysis.Entry}
    (member : entry ∈ run.needs) :
    (∃ path ∈ paths, entry.file = path.absolute session.store.working) ∧
      ∃ log, (run.linkSource session.store.working).link entry.file (entry.row + 1) =
        (log, .ok entry.link) := by
  obtain ⟨started, middle, language, listed, isStarted, sameStore, proceeds, files, warnings, rfl⟩ :=
    exists_filled_of_runProject ran
  obtain rfl := (Analysis.Run.startedBy_of_start isStarted).settings
  obtain rfl : paths = listed := Except.ok.inj (lists.symm.trans proceeds.lists)
  simp only [Analysis.Run.filled, Analysis.Run.byRow, List.mem_mergeSort, List.mem_flatMap] at member
  obtain ⟨path, isListed, inFile⟩ := member
  obtain ⟨_, isFile, linked⟩ := proceeds.entry_of_mem isListed inFile
  exact sameStore ▸ ⟨⟨path, isListed, isFile⟩, linked⟩

end Tracing.Analyses

/-! ## Discovered files -/

namespace Discovery

theorem mem_of_filterM {entries kept : List Path} {accepted : Path → Except Fault Bool}
    (filtered : entries.filterM accepted = .ok kept) {path : Path} (member : path ∈ kept) :
    path ∈ entries := by
  have gathered : ∀ (rest done all : List Path), rest.filterAuxM accepted done = .ok all →
      ∀ other ∈ all, other ∈ done ∨ other ∈ rest := by
    intro rest
    induction rest with
    | nil =>
        intro done all finished other inAll
        cases finished
        exact .inl inAll
    | cons first rest ih =>
        intro done all finished other inAll
        obtain ⟨isAccepted, _, later⟩ := Result.bind_eq_ok_iff.mp finished
        rcases ih _ all later other inAll with inDone | inRest
        · cases isAccepted with
          | false => exact .inl inDone
          | true =>
              rcases List.mem_cons.mp inDone with isFirst | inDone
              · exact .inr (isFirst ▸ List.mem_cons_self)
              · exact .inl inDone
        · exact .inr (List.mem_cons_of_mem _ inRest)
  obtain ⟨all, finished, reversed⟩ := Result.bind_eq_ok_iff.mp filtered
  cases reversed
  exact (gathered entries [] all finished path (List.mem_reverse.mp member)).resolve_left
    List.not_mem_nil

/-- Walks yield paths that were read, if the working directory was. -/
def Listing.YieldsRead (listing : Listing) : Prop :=
  ∀ (store : Store) directory requests, store.working.IsRead →
    ∀ path ∈ listing.walk store directory requests, path.IsRead

/-- What is discovered is yielded by a walk. -/
theorem exists_yielded_of_run {store : Store} {listing : Listing} {settings : Settings}
    {found : Found} (ran : (run store listing settings).2 = .ok found) {path : Path}
    (member : path ∈ found.paths) :
    ∃ directory requests, ∃ entry ∈ listing.walk store directory requests,
      path = entry.collapsed store.working := by
  unfold run at ran
  split at ran
  · cases ran
  · split at ran
    · cases ran
    · split at ran
      · cases ran
      · cases ran
        cases member
      · dsimp only at ran
        split at ran
        · cases ran
        · obtain ⟨paths, selected, rfl⟩ := Result.map_eq_ok_iff.mp ran
          obtain ⟨kept, filtered, sorted⟩ := Result.bind_eq_ok_iff.mp selected
          cases sorted
          obtain ⟨entry, inKept, rfl⟩ := List.mem_map.mp (List.mem_mergeSort.mp member)
          exact ⟨_, _, entry, mem_of_filterM filtered inKept, rfl⟩

end Discovery

namespace Build

/-! ## Runs of steps -/

namespace Step

variable {α : Type} {state after : State}

theorem run_ofExcept_eq_ok_iff {result : Except Fault α} {value : α} :
    (ofExcept result).run.run state = (.ok value, after) ↔ result = .ok value ∧ after = state := by
  constructor
  · intro ran
    cases ran
    exact ⟨rfl, rfl⟩
  · rintro ⟨rfl, rfl⟩
    rfl

theorem run_get_eq_ok_iff {value : State} :
    (get : Step State).run.run state = (.ok value, after) ↔ value = state ∧ after = state := by
  constructor
  · intro ran
    cases ran
    exact ⟨rfl, rfl⟩
  · rintro ⟨rfl, rfl⟩
    rfl

theorem run_pure_eq_ok_iff {value result : α} :
    (pure value : Step α).run.run state = (.ok result, after) ↔ result = value ∧ after = state := by
  constructor
  · intro ran
    cases ran
    exact ⟨rfl, rfl⟩
  · rintro ⟨rfl, rfl⟩
    rfl

theorem run_modify_eq_ok_iff {change : State → State} {value : Unit} :
    (modify change : Step Unit).run.run state = (.ok value, after) ↔ after = change state := by
  constructor
  · intro ran
    cases ran
    rfl
  · rintro rfl
    rfl

theorem run_setting_eq_ok_iff {name : String} {value : Tracing.Setting} :
    (setting name).run.run state = (.ok value, after) ↔
      Tracing.Settings.get { host := some state.settings } name = .ok value ∧ after = state := by
  have outcome : (setting name).run.run state =
      (Tracing.Settings.get { host := some state.settings } name, state) := rfl
  rw [outcome, Prod.mk.injEq]
  exact and_congr_right' eq_comm

theorem run_inSession (action : Action α) :
    (inSession action).run.run state = ((action.run.run state.session).1,
      { state with session := (action.run.run state.session).2 }) := rfl

theorem run_inSession_eq_ok_iff {action : Action α} {value : α} :
    (inSession action).run.run state = (.ok value, after) ↔
      ∃ session, action.run.run state.session = (.ok value, session) ∧
        after = { state with session := session } := by
  rw [run_inSession, Prod.mk.injEq]
  constructor
  · rintro ⟨succeeded, rfl⟩
    exact ⟨_, Prod.ext succeeded rfl, rfl⟩
  · rintro ⟨session, acted, rfl⟩
    rw [acted]
    exact ⟨rfl, rfl⟩

end Step

/-! ## Paths of a build -/

def projectLocation? : Tracing.Project → Option Path
  | .members members =>
      match Tracing.ProjectMembers.get? members "source_discover_config" with
      | some (.discovery settings) => settings.directory.asPath.toOption
      | _ => none
  | .other _ => none

namespace State

def locations (state : State) : List Path :=
  match Tracing.Settings.get { host := some state.settings } "projects" with
  | .ok (.projects (.named projects)) => projects.filterMap fun entry => projectLocation? entry.2
  | _ => []

/-- All paths that a build starts from were read. -/
structure PathsRead (state : State) : Prop where
  working : state.session.store.working.IsRead
  configuration : state.configurationDirectory.IsRead
  output : state.output.IsRead
  listing : state.listing.YieldsRead
  locations : ∀ path ∈ state.locations, path.IsRead

end State

variable {state after : State}

/-- A project whose members are found is one of the configured ones, and its name is a text. -/
theorem exists_project_of_projectMembers {setting : Tracing.Setting} {project : Value}
    {members : Tracing.ProjectMembers} (found : projectMembers setting project = .ok members) :
    ∃ projects name, setting = .projects (.named projects) ∧ project = .text name ∧
      (name, .members members) ∈ projects := by
  unfold projectMembers at found
  split at found
  · rename_i projects named
    split at found
    · split at found <;> cases found
    · rename_i name given isFound
      cases found
      have isNamed : setting = .projects (.named projects) := by
        cases setting <;> simp_all [Tracing.Setting.asProjects]
      have isName : project.same (.text name) = true := by
        simpa using List.find?_some isFound
      exact ⟨projects, name, isNamed, Value.same_text_iff.mp isName, List.mem_of_find?_eq_some isFound⟩
    · cases found
  · cases found

theorem mem_locations {setting : Tracing.Setting} {project : Value}
    {members : Tracing.ProjectMembers} {discovery : Discovery.Settings} {location : Path}
    (isSetting : Tracing.Settings.get { host := some state.settings } "projects" = .ok setting)
    (isProject : projectMembers setting project = .ok members)
    (isMember : members.get? "source_discover_config" = some (.discovery discovery))
    (isLocation : discovery.directory = .path location) : location ∈ state.locations := by
  obtain ⟨projects, name, rfl, _, inProjects⟩ := exists_project_of_projectMembers isProject
  rw [State.locations, isSetting]
  refine List.mem_filterMap.mpr ⟨_, inProjects, ?_⟩
  simp [projectLocation?, isMember, isLocation, Place.asPath, Except.toOption]

/-- Settings are seen from the directory of the configuration or from one below it. -/
theorem settingsDirectory_eq_ok {base : Path}
    (ran : settingsDirectory.run.run state = (.ok base, after)) :
    after = state ∧ ∃ below, base = state.configurationDirectory.join below ∧ below.IsRead := by
  simp only [settingsDirectory, Result.run_bind_eq_ok_iff, Step.run_get_eq_ok_iff,
    Step.run_setting_eq_ok_iff] at ran
  obtain ⟨current, middle, ⟨rfl, rfl⟩, setting, state, ⟨_, rfl⟩, ran⟩ := ran
  have here : state.configurationDirectory = state.configurationDirectory.join Path.here := by
    simp [Path.join, Path.here, Path.isAbsolute]
  split at ran
  · rename_i name _
    obtain ⟨rfl, rfl⟩ := Step.run_pure_eq_ok_iff.mp ran
    refine ⟨rfl, ?_⟩
    split
    · exact ⟨Path.here, here, by decide⟩
    · exact ⟨_, rfl, (Path.isRead_ofText name).parent⟩
  · split at ran
    · cases ran
    · obtain ⟨rfl, rfl⟩ := Step.run_pure_eq_ok_iff.mp ran
      exact ⟨rfl, Path.here, here, by decide⟩

theorem isRead_optionPath {base path : Path} {value : Value} (baseRead : base.IsRead)
    (given : optionPath base value = .ok path) : path.IsRead := by
  unfold optionPath at given
  split at given
  · rename_i name
    cases given
    exact (Path.isRead_ofText name).absolute baseRead
  · cases given

/-- Source files are yielded by a walk or named by an option, and have no dots. -/
theorem exists_given_of_mem_sourceFiles {store : Store} {listing : Discovery.Listing}
    {files : List Path} {options : Members} {source : Path} {settings : Discovery.Settings}
    (found : sourceFiles store listing options source settings = .ok files) {path : Path}
    (member : path ∈ files) :
    ∃ given, path = given.collapsed store.working ∧
      ((∃ directory requests, given ∈ listing.walk store directory requests) ∨
        ∃ value, optionPath source value = .ok given) := by
  unfold sourceFiles at found
  split at found
  · simp only [Result.bind_eq_ok_iff] at found
    obtain ⟨given, isGiven, resolved, resolves, finished⟩ := found
    cases finished
    rw [List.mem_singleton.mp member, Path.resolve_eq_ok resolves]
    exact ⟨given, rfl, .inr ⟨_, isGiven⟩⟩
  · have ran : ∃ directory discovered,
        (Discovery.run store listing { settings with directory := .path directory }).2 =
          .ok discovered ∧ files = discovered.paths := by
      split at found <;>
        (simp only [Result.bind_eq_ok_iff] at found
         obtain ⟨directory, _, discovered, ran, finished⟩ := found
         cases finished
         exact ⟨directory, discovered, ran, rfl⟩)
    obtain ⟨directory, discovered, ran, rfl⟩ := ran
    obtain ⟨place, requests, entry, yielded, rfl⟩ := Discovery.exists_yielded_of_run ran member
    exact ⟨entry, rfl, .inl ⟨place, requests, yielded⟩⟩

theorem exists_location_of_sourceDirectory {working base source : Path}
    {settings : Discovery.Settings} (found : sourceDirectory working base settings = .ok source) :
    ∃ location, settings.directory = .path location ∧
      source = (base.join location).collapsed working := by
  unfold sourceDirectory at found
  split at found
  · rename_i location isLocation
    exact ⟨location, isLocation, Path.resolve_eq_ok found⟩
  · cases found

theorem get?_of_projectMember {members : Tracing.ProjectMembers} {member : Tracing.ProjectMember}
    {name : String} (isMember : projectMember members name = .ok member) :
    members.get? name = some member := by
  unfold projectMember at isMember
  split at isMember
  · cases isMember
  · rename_i found
    cases isMember
    exact found

theorem discoverySettings_eq_ok {member : Tracing.ProjectMember} {settings : Discovery.Settings}
    (found : discoverySettings member = .ok settings) : member = .discovery settings := by
  cases member with
  | discovery own =>
      cases found
      rfl
  | _ => cases found

theorem analysisSettings_eq_ok {member : Tracing.ProjectMember} {settings : Analysis.Settings}
    (found : analysisSettings member = .ok settings) : member = .analysis settings := by
  cases member with
  | analysis own =>
      cases found
      rfl
  | _ => cases found

/-- What a directive has analysed: the project, its source directory, and the name and the
settings of the run. -/
structure Assignment where
  members : Tracing.ProjectMembers
  source : Path
  name : String
  settings : Analysis.Settings
deriving Repr

def assignment (options : Value) : Step Assignment := do
  Step.ofExcept (checkOptions options)
  let project ← Step.ofExcept (options.index "project")
  let named ← Step.ofExcept options.membersOf
  let members ← Step.ofExcept (projectMembers (← Step.setting "projects") project)
  let discoveryMember ← Step.ofExcept (projectMember members "source_discover_config")
  let base ← settingsDirectory
  let discovery ← Step.ofExcept (discoverySettings discoveryMember)
  let state ← get
  let store := state.session.store
  let source ← Step.ofExcept (sourceDirectory store.working base discovery)
  let files ← Step.ofExcept (sourceFiles store state.listing named source discovery)
  modify fun current =>
    { current with
      dependencies := current.dependencies ++
        files.map fun file => (file.collapsed store.working).text }
  let analysisMember ← Step.ofExcept (projectMember members "analyse_config")
  let analysis ← Step.ofExcept (analysisSettings analysisMember)
  let repository ← Step.ofExcept (repositoryPlace store.working base analysis.repository)
  return {
    members := members
    source := source
    name := project.shown
    settings :=
      { analysis with
        directory := .path source
        sources := .paths files
        repository := repository } }

theorem traceProject_eq [Libraries] (options : Value) :
    traceProject options = do
      let assigned ← assignment options
      let run ← Step.inSession (Tracing.Analyses.runProject assigned.name assigned.settings)
      return ⟨assigned.members, assigned.source, run⟩ := by
  simp only [traceProject, assignment, bind_assoc, pure_bind]

/-- What is looked up for an assignment. It adds dependencies to the state, and nothing else. -/
theorem assignment_eq_ok {options : Value} {assigned : Assignment}
    (ran : (assignment options).run.run state = (.ok assigned, after)) :
    ∃ setting project discovery base named files analysis dependencies,
      Tracing.Settings.get { host := some state.settings } "projects" = .ok setting ∧
      options.index "project" = .ok project ∧
      projectMembers setting project = .ok assigned.members ∧
      assigned.members.get? "source_discover_config" = some (.discovery discovery) ∧
      settingsDirectory.run.run state = (.ok base, state) ∧
      sourceDirectory state.session.store.working base discovery = .ok assigned.source ∧
      sourceFiles state.session.store state.listing named assigned.source discovery = .ok files ∧
      assigned.members.get? "analyse_config" = some (.analysis analysis) ∧
      assigned.settings.sources = .paths files ∧ assigned.settings.style = analysis.style ∧
      after = { state with dependencies := dependencies } := by
  simp only [assignment, Result.run_bind_eq_ok_iff, Step.run_get_eq_ok_iff,
    Step.run_ofExcept_eq_ok_iff, Step.run_setting_eq_ok_iff, Step.run_modify_eq_ok_iff,
    Step.run_pure_eq_ok_iff, and_assoc, exists_and_left, exists_eq_left] at ran
  obtain ⟨_, _, project, isIndex, named, _, setting, isSetting, members, isProject, member, isMember,
    base, found, ranBase, discovery, isDiscovery, source, isSource, files, isFiles, _, other, isOther,
    analysis, isAnalysis, repository, _, rfl, rfl⟩ := ran
  obtain ⟨rfl, _⟩ := settingsDirectory_eq_ok ranBase
  obtain rfl := discoverySettings_eq_ok isDiscovery
  obtain rfl := analysisSettings_eq_ok isAnalysis
  exact ⟨setting, project, discovery, base, named, files, analysis, _, isSetting, isIndex, isProject,
    get?_of_projectMember isMember, ranBase, isSource, isFiles, get?_of_projectMember isOther, rfl,
    rfl, rfl⟩

theorem traceProject_eq_ok_iff [Libraries] {options : Value} {traced : Traced} :
    (traceProject options).run.run state = (.ok traced, after) ↔
      ∃ assigned middle session, (assignment options).run.run state = (.ok assigned, middle) ∧
        (Tracing.Analyses.runProject assigned.name assigned.settings).run.run middle.session =
          (.ok traced.run, session) ∧
        traced.members = assigned.members ∧ traced.source = assigned.source ∧
        after = { middle with session := session } := by
  rw [traceProject_eq]
  simp only [Result.run_bind_eq_ok_iff, Step.run_inSession_eq_ok_iff, Step.run_pure_eq_ok_iff]
  constructor
  · rintro ⟨assigned, middle, isAssigned, run, _, ⟨session, ran, rfl⟩, rfl, rfl⟩
    exact ⟨assigned, middle, session, isAssigned, ran, rfl, rfl, rfl⟩
  · rintro ⟨assigned, middle, session, isAssigned, ran, sameMembers, sameSource, rfl⟩
    refine ⟨assigned, middle, isAssigned, traced.run, _, ⟨session, ran, rfl⟩, ?_, rfl⟩
    rw [← sameMembers, ← sameSource]

/-- What tracing a project looks up and does: it adds dependencies and records, and nothing
else. -/
theorem traceProject_eq_ok [Libraries] {options : Value} {traced : Traced}
    (ran : (traceProject options).run.run state = (.ok traced, after)) :
    ∃ setting project discovery base named files name settings session dependencies,
      Tracing.Settings.get { host := some state.settings } "projects" = .ok setting ∧
      projectMembers setting project = .ok traced.members ∧
      traced.members.get? "source_discover_config" = some (.discovery discovery) ∧
      settingsDirectory.run.run state = (.ok base, state) ∧
      sourceDirectory state.session.store.working base discovery = .ok traced.source ∧
      sourceFiles state.session.store state.listing named traced.source discovery = .ok files ∧
      settings.sources = .paths files ∧
      (Tracing.Analyses.runProject name settings).run.run state.session = (.ok traced.run, session) ∧
      session.store = state.session.store ∧
      after = { state with session := session, dependencies := dependencies } := by
  obtain ⟨assigned, _, session, isAssigned, ranProject, isMembers, isSource, rfl⟩ :=
    traceProject_eq_ok_iff.mp ran
  obtain ⟨setting, project, discovery, base, named, files, analysis, dependencies, isSetting, _,
    isProject, isMember, ranBase, located, isFiles, _, sources, _, rfl⟩ := assignment_eq_ok isAssigned
  rw [isMembers, isSource]
  exact ⟨setting, project, discovery, base, named, files, _, _, session, dependencies, isSetting,
    isProject, isMember, ranBase, located, isFiles, sources, ranProject,
    Tracing.Analyses.store_of_runProject ranProject, rfl⟩

/-- What is known of a traced project. -/
structure Traced.IsFound (traced : Traced) : Prop where
  rooted : traced.source.isAbsolute = true
  read : traced.source.IsRead
  needs : ∀ entry ∈ traced.run.needs, entry.file.IsRead

theorem isFound_of_traceProject [Libraries] (read : state.PathsRead) {options : Value}
    {traced : Traced}
    (ran : (traceProject options).run.run state = (.ok traced, after)) : traced.IsFound := by
  obtain ⟨setting, project, discovery, base, named, files, name, settings, session, dependencies,
    isSetting, isProject, isMember, ranBase, isSource, isFiles, sources, ranProject, _⟩ :=
    traceProject_eq_ok ran
  obtain ⟨_, below, rfl, belowRead⟩ := settingsDirectory_eq_ok ranBase
  obtain ⟨location, isLocation, source⟩ := exists_location_of_sourceDirectory isSource
  have located := mem_locations isSetting isProject isMember isLocation
  have baseRead := belowRead.absolute read.configuration
  have sourceRead : traced.source.IsRead :=
    source ▸ ((read.locations location located).absolute baseRead).collapsed read.working
  have filesRead : ∀ path ∈ files, path.IsRead := by
    intro path member
    obtain ⟨given, rfl, ⟨place, requests, yielded⟩ | ⟨value, isGiven⟩⟩ :=
      exists_given_of_mem_sourceFiles isFiles member
    · exact (read.listing _ place requests read.working given yielded).collapsed read.working
    · exact (isRead_optionPath sourceRead isGiven).collapsed read.working
  refine ⟨source ▸ rfl, sourceRead, fun entry member => ?_⟩
  obtain ⟨⟨path, listed, isFile⟩, _⟩ :=
    Tracing.Analyses.place_of_mem_needs ranProject (by rw [sources]; rfl) member
  exact isFile ▸ (filesRead path listed).absolute read.working

/-- The files of needs do not depend on a working directory, and needs are linked to where they
stand. -/
theorem place_of_traceProject [Libraries] {options : Value} {traced : Traced}
    (ran : (traceProject options).run.run state = (.ok traced, after)) {entry : Analysis.Entry}
    (member : entry ∈ traced.run.needs) :
    entry.file.isAbsolute = true ∧
      ∃ log, (traced.run.linkSource state.session.store.working).link entry.file (entry.row + 1) =
        (log, .ok entry.link) := by
  obtain ⟨_, _, _, _, _, files, _, settings, _, _, _, _, _, _, _, isFiles, sources, ranProject, _⟩ :=
    traceProject_eq_ok ran
  obtain ⟨⟨path, listed, isFile⟩, linked⟩ :=
    Tracing.Analyses.place_of_mem_needs ranProject (by rw [sources]; rfl) member
  refine ⟨?_, linked⟩
  obtain ⟨given, rfl, _⟩ := exists_given_of_mem_sourceFiles isFiles listed
  rw [isFile, Path.absolute_of_isAbsolute rfl]
  rfl

end Build

end Tracemark
