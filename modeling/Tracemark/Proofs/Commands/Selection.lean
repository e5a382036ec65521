import Tracemark.Commands.Analyse
import Tracemark.Proofs.Analysis.Merging
import Tracemark.Proofs.Analysis.Storing

/-!
# Chosen projects

The command may be asked for some projects of a configuration only. It then stores what it
would store of them together with the others.
-/

set_option autoImplicit false

namespace Tracemark

namespace Tracing

open Analysis (Run)

/-! ## Runs of chosen projects -/

theorem mem_names_putRun {name other : String} {run : Run} {runs : List (String × Run)} :
    other ∈ (putRun name run runs).map (·.1) ↔ other = name ∨ other ∈ runs.map (·.1) := by
  induction runs with
  | nil => simp [putRun]
  | cons current rest ih =>
      rw [putRun]
      split
      · rename_i same
        simp [beq_iff_eq.mp same]
      · rw [List.map_cons, List.mem_cons, ih, List.map_cons, List.mem_cons]
        exact or_left_comm

theorem filter_putRun (wanted : String → Bool) (name : String) (run : Run)
    (runs : List (String × Run)) :
    (putRun name run runs).filter (fun kept => wanted kept.1) =
      if wanted name then putRun name run (runs.filter fun kept => wanted kept.1)
      else runs.filter fun kept => wanted kept.1 := by
  induction runs with
  | nil => cases isWanted : wanted name <;> simp [putRun, isWanted]
  | cons current rest ih =>
      rw [putRun]
      by_cases same : current.1 = name
      · cases isWanted : wanted name <;> simp [putRun, same, isWanted]
      · rw [if_neg (by simpa using same), List.filter_cons, List.filter_cons, ih]
        cases isWanted : wanted name <;> cases wanted current.1 <;> simp [putRun, same]

namespace Analyses

variable {analyses done : Analyses} {session after : Session}

theorem runEach_cons_eq_none_iff [Libraries] {name : String} {settings : Analysis.Settings}
    {rest : List (String × Analysis.Settings)} :
    analyses.runEach session ((name, settings) :: rest) = (done, after, none) ↔
      ∃ run middle, (runProject name settings).run.run session = (.ok run, middle) ∧
        { analyses with runs := putRun name run analyses.runs }.runEach middle rest =
          (done, after, none) := by
  rw [runEach]
  split
  · rename_i failed
    constructor
    · intro ran
      cases ran
    · rintro ⟨run, middle, ran, _⟩
      cases failed.symm.trans ran
  · rename_i run middle ran
    constructor
    · intro later
      exact ⟨run, middle, ran, later⟩
    · rintro ⟨other, left, again, later⟩
      cases ran.symm.trans again
      exact later

/-- Runs add to the projects that have one, and change neither files nor where output goes. -/
theorem keeps_of_runEach [Libraries] {projects : List (String × Analysis.Settings)}
    (ran : analyses.runEach session projects = (done, after, none)) :
    after.store = session.store ∧ done.directory = analyses.directory ∧
      ∀ name, name ∈ done.runs.map (·.1) ↔
        name ∈ analyses.runs.map (·.1) ∨ name ∈ projects.map (·.1) := by
  induction projects generalizing analyses session with
  | nil =>
      cases ran
      simp
  | cons project rest ih =>
      obtain ⟨name, settings⟩ := project
      obtain ⟨run, middle, first, later⟩ := runEach_cons_eq_none_iff.mp ran
      obtain ⟨store, directory, names⟩ := ih later
      refine ⟨store.trans ((onlyNotes_runProject name settings).keeps first).1, directory, fun other => ?_⟩
      rw [names other, mem_names_putRun, List.map_cons, List.mem_cons]
      exact or_assoc.trans or_left_comm

/-- The projects that are left out take nothing from the others. -/
theorem runEach_filter [Libraries] (wanted : String → Bool)
    {projects : List (String × Analysis.Settings)}
    (ran : analyses.runEach session projects = (done, after, none)) {few : Analyses}
    (chosen : few.runs = analyses.runs.filter fun kept => wanted kept.1) {other : Session}
    (store : other.store = session.store) (alike : session.parser.CapturesAlike other.parser) :
    ∃ fewDone later,
      few.runEach other (projects.filter fun project => wanted project.1) = (fewDone, later, none) ∧
        fewDone.runs = done.runs.filter fun kept => wanted kept.1 := by
  induction projects generalizing analyses session few other with
  | nil =>
      cases ran
      exact ⟨few, other, rfl, chosen⟩
  | cons project rest ih =>
      obtain ⟨name, settings⟩ := project
      obtain ⟨run, middle, first, rests⟩ := runEach_cons_eq_none_iff.mp ran
      have notes := onlyNotes_runProject name settings
      have putChosen := filter_putRun wanted name run analyses.runs
      rw [List.filter_cons]
      cases isWanted : wanted name with
      | false =>
          rw [isWanted] at putChosen
          obtain ⟨keptStore, keptParser⟩ := notes.keeps first
          exact ih rests (chosen.trans putChosen.symm) (store.trans keptStore.symm)
            (keptParser ▸ alike)
      | true =>
          rw [isWanted, if_pos rfl, ← chosen] at putChosen
          obtain ⟨left, second, leftStore, leftAlike⟩ := notes.exists_run first store alike
          obtain ⟨fewDone, later, fewRests, runs⟩ :=
            @ih _ _ rests { few with runs := putRun name run few.runs } putChosen.symm left
              leftStore leftAlike
          exact ⟨fewDone, later, runEach_cons_eq_none_iff.mpr ⟨run, left, second, fewRests⟩, runs⟩

/-- The marked content of chosen runs is what belongs to them of all marked content. -/
theorem content_filter (wanted : String → Bool) {content : Members}
    (stored : analyses.content = .ok (.object content)) {few : Analyses}
    (chosen : few.runs = analyses.runs.filter fun kept => wanted kept.1) :
    few.content = .ok (.object (content.filter fun member => wanted member.1)) := by
  obtain ⟨members, mapped, same⟩ := Result.bind_eq_ok_iff.mp stored
  cases same
  refine Result.bind_eq_ok_iff.mpr ⟨_, chosen ▸ Result.mapM_filter ?_ mapped, rfl⟩
  intro kept member isStored
  rw [Result.fst_of_named isStored]

/-- Marked content is kept by the names of the projects that were run. -/
theorem exists_content {value : Value} (stored : analyses.content = .ok value) :
    ∃ content : Members, value = .object content ∧
      content.map (·.1) = analyses.runs.map (·.1) := by
  obtain ⟨members, mapped, same⟩ := Result.bind_eq_ok_iff.mp stored
  cases same
  exact ⟨members, rfl, Result.map_of_mapM (fun _ _ isStored => Result.fst_of_named isStored) mapped⟩

end Analyses

end Tracing

theorem Tracing.Analyses.dumpContent_iff {analyses : Tracing.Analyses} {session : Session}
    {written : Store} :
    ((analyses.dumpContent session).2 = none ∧ (analyses.dumpContent session).1.store = written) ↔
      Analysis.storeJson session.store (analyses.directory.child Analysis.contentFile)
        analyses.content = (written, none) := by
  rw [Tracing.Analyses.dumpContent]
  rcases Analysis.storeJson session.store (analyses.directory.child Analysis.contentFile)
    analyses.content with ⟨store, fault⟩
  cases fault <;> simp

namespace Commands

open Tracing (Analyses)

def configuration [Libraries] (store : Store) (file : Path) :
    Except Fault (Tracing.Settings × List (String × Tracing.Project)) :=
  loadSection store file >>= readSettings

/-- The names of the projects of a configuration file; none if it cannot be read. -/
def configuredProjects [Libraries] (store : Store) (file : Path) : List String :=
  match configuration store file with
  | .ok (_, projects) => projects.map (·.1)
  | .error _ => []

/-- Where output goes: where the request says, or else where the configuration does. -/
def outputDirectory [Libraries] (store : Store) (request : AnalyseRequest) : Except Fault Path :=
  match request.directory with
  | some location => .ok location
  | none => do
      let (settings, _) ← configuration store request.configuration
      (← settings.get "outdir").asPath

theorem refuseMissing_eq_ok_iff {known wanted : List String} :
    refuseMissing known wanted = .ok () ↔ ∀ name ∈ wanted, name ∈ known := by
  rw [refuseMissing, refuseFor]
  cases missing : wanted.filter fun name => !known.contains name with
  | nil => simpa using List.filter_eq_nil_iff.mp missing
  | cons name others =>
      have isMissing : name ∈ wanted.filter fun name => !known.contains name :=
        missing ▸ List.mem_cons_self
      obtain ⟨isWanted, unknown⟩ := List.mem_filter.mp isMissing
      have refused : ¬∀ name ∈ wanted, name ∈ known := by
        intro allKnown
        simp [allKnown name isWanted] at unknown
      simp [refused]

theorem refuseMismatch_eq_ok_iff {α : Type} {result : Except Fault α} {value : α} :
    refuseMismatch result = .ok value ↔ result = .ok value := by
  cases result <;> simp [refuseMismatch, Except.mapError]

variable {session : Session} {listing : Discovery.Listing} {request : AnalyseRequest}

theorem outputDirectory_of_configuration [Libraries] {store : Store} {settings : Tracing.Settings}
    {projects : List (String × Tracing.Project)}
    (configured : configuration store request.configuration = .ok (settings, projects)) :
    outputDirectory store request =
      match request.directory with
      | some location => .ok location
      | none => settings.get "outdir" >>= Tracing.Setting.asPath := by
  simp only [outputDirectory, configured]
  rfl

theorem prepare_eq_ok_iff [Libraries] {store : Store} {analyses : Analyses} :
    prepare store listing request = .ok analyses ↔
      ∃ settings projects prepared directory,
        configuration store request.configuration = .ok (settings, projects) ∧
        (∀ name ∈ request.projects, name ∈ projects.map (·.1)) ∧
        (projects.filter fun project =>
            request.projects.isEmpty || request.projects.contains project.1).mapM
          (fun project => do
            return (project.1, ← prepareProject store listing request.configuration.parent project.2)) =
          .ok prepared ∧
        outputDirectory store request = .ok directory ∧
        analyses = .ofSettings directory prepared := by
  constructor
  · intro prepares
    simp only [prepare, Result.bind_eq_ok_iff, refuseMismatch_eq_ok_iff] at prepares
    obtain ⟨content, loaded, ⟨settings, projects⟩, isRead, _, known, prepared, mapped, directed⟩ :=
      prepares
    have configured : configuration store request.configuration = .ok (settings, projects) :=
      Result.bind_eq_ok_iff.mpr ⟨content, loaded, isRead⟩
    have allKnown := refuseMissing_eq_ok_iff.mp known
    have output := outputDirectory_of_configuration configured
    cases given : request.directory with
    | some location =>
        simp only [given] at directed output
        cases directed
        exact ⟨settings, projects, prepared, location, configured, allKnown, mapped, output, rfl⟩
    | none =>
        simp only [given, Result.bind_eq_ok_iff] at directed output
        obtain ⟨setting, isSet, directory, isPath, finished⟩ := directed
        cases finished
        exact ⟨settings, projects, prepared, directory, configured, allKnown, mapped,
          output.trans (Result.bind_eq_ok_iff.mpr ⟨setting, isSet, isPath⟩), rfl⟩
  · rintro ⟨settings, projects, prepared, directory, configured, known, mapped, directed, rfl⟩
    rw [outputDirectory_of_configuration configured] at directed
    obtain ⟨content, loaded, isRead⟩ := Result.bind_eq_ok_iff.mp configured
    simp only [prepare, Result.bind_eq_ok_iff, refuseMismatch_eq_ok_iff]
    refine ⟨content, loaded, (settings, projects), isRead, (), refuseMissing_eq_ok_iff.mpr known,
      prepared, mapped, ?_⟩
    cases given : request.directory with
    | some location =>
        simp only [given] at directed
        cases directed
        rfl
    | none =>
        simp only [given, Result.bind_eq_ok_iff] at directed
        obtain ⟨setting, isSet, isPath⟩ := directed
        simp only [Result.bind_eq_ok_iff]
        exact ⟨setting, isSet, directory, isPath, rfl⟩

/-- The command succeeds when it can prepare and run all analyses and store what they found. -/
theorem analyse_succeeds_iff [Libraries] {written : Store} :
    ((analyse session listing request).fault = none ∧
        (analyse session listing request).store = written) ↔
      ∃ analyses done after, prepare session.store listing request = .ok analyses ∧
        analyses.runAll session = (done, after, none) ∧
        Analysis.storeJson after.store (done.directory.child Analysis.contentFile) done.content =
          (written, none) := by
  unfold analyse
  constructor
  · rintro ⟨unfailing, isWritten⟩
    split at unfailing
    · cases unfailing
    · rename_i analyses prepared
      split at unfailing
      · cases unfailing
      · rename_i done after ran
        simp only [prepared, ran] at isWritten
        have stored := @Analyses.dumpContent_iff done { after with log := [] } written
        exact ⟨analyses, done, after, prepared, ran, stored.mp ⟨unfailing, isWritten⟩⟩
  · rintro ⟨analyses, done, after, prepared, ran, stored⟩
    simp only [prepared, ran]
    exact Analyses.dumpContent_iff.mpr stored

def AnalyseRequest.only (request : AnalyseRequest) (wanted : List String) : AnalyseRequest :=
  { request with projects := wanted }

/-- Without a choice, all projects of the configuration are prepared. -/
theorem projects_of_prepare [Libraries] {store : Store} {analyses : Analyses}
    (everything : request.projects = []) (prepared : prepare store listing request = .ok analyses) :
    outputDirectory store request = .ok analyses.directory ∧ analyses.runs = [] ∧
      analyses.settings.map (·.1) = configuredProjects store request.configuration := by
  obtain ⟨settings, projects, all, directory, isRead, _, mapped, directed, rfl⟩ :=
    prepare_eq_ok_iff.mp prepared
  simp only [everything, List.isEmpty_nil, Bool.true_or, List.filter_true] at mapped
  refine ⟨directed, rfl, ?_⟩
  simp only [configuredProjects, isRead]
  exact Result.map_of_mapM (fun _ _ isPrepared => Result.fst_of_named isPrepared) mapped

theorem prepare_only [Libraries] {store : Store} {analyses : Analyses} {wanted : List String}
    (everything : request.projects = []) (prepared : prepare store listing request = .ok analyses)
    (nonempty : wanted ≠ [])
    (configured : ∀ name ∈ wanted, name ∈ configuredProjects store request.configuration) :
    prepare store listing (request.only wanted) = .ok
      { analyses with settings := analyses.settings.filter fun project => wanted.contains project.1 } := by
  obtain ⟨settings, projects, all, directory, isRead, _, mapped, directed, rfl⟩ :=
    prepare_eq_ok_iff.mp prepared
  simp only [everything, List.isEmpty_nil, Bool.true_or, List.filter_true] at mapped
  simp only [configuredProjects, isRead] at configured
  refine prepare_eq_ok_iff.mpr ⟨settings, projects, _, directory, isRead, configured, ?_, directed, rfl⟩
  have chosen : (request.only wanted).projects.isEmpty = false := by
    simpa [AnalyseRequest.only] using nonempty
  simp only [chosen, Bool.false_or]
  refine Result.mapM_filter ?_ mapped
  intro project kept isPrepared
  exact congrArg wanted.contains (Result.fst_of_named isPrepared)

/-- Projects do not influence each other: where the command succeeds for all projects it also
succeeds for some of them, and stores what belongs to them of what it stores for all. The second
call may have a parser of its own, if it captures the comments of equal contents in the same
order. -/
theorem analyse_only [Libraries] {again : Session} {wanted : List String}
    (everything : request.projects = []) (succeeds : (analyse session listing request).fault = none)
    (sameFiles : again.store = session.store)
    (alike : session.parser.CapturesAlike again.parser) (nonempty : wanted ≠ [])
    (configured : ∀ name ∈ wanted, name ∈ configuredProjects session.store request.configuration) :
    ∃ (directory : Path) (content : Members),
      outputDirectory session.store request = .ok directory ∧
      (∀ name, name ∈ content.map (·.1) ↔
        name ∈ configuredProjects session.store request.configuration) ∧
      (analyse session listing request).store.readText (directory.child Analysis.contentFile) =
        .ok (Json.write (.object content)).toList ∧
      (analyse again listing (request.only wanted)).fault = none ∧
      (analyse again listing (request.only wanted)).store.readText
          (directory.child Analysis.contentFile) =
        .ok (Json.write (.object (content.filter fun member => wanted.contains member.1))).toList := by
  obtain ⟨analyses, done, after, prepared, ran, stored⟩ := analyse_succeeds_iff.mp ⟨succeeds, rfl⟩
  obtain ⟨output, fresh, names⟩ := projects_of_prepare everything prepared
  obtain ⟨kept, directory, ranNames⟩ := Analyses.keeps_of_runEach ran
  obtain ⟨place, value, made, isContent, writes⟩ := Analysis.storeJson_eq_none_iff.mp stored
  obtain ⟨content, rfl, contentNames⟩ := Analyses.exists_content isContent
  rw [directory] at made writes
  -- The chosen projects run as they did among the others.
  have preparedFew := prepare_only everything prepared nonempty configured
  obtain ⟨fewDone, later, fewRan, fewRuns⟩ :=
    @Analyses.runEach_filter _ _ _ _ _ wanted.contains _ ran
      { analyses with settings := analyses.settings.filter fun project => wanted.contains project.1 }
      (by simp [fresh]) again sameFiles alike
  obtain ⟨fewKept, fewDirectory, _⟩ := Analyses.keeps_of_runEach fewRan
  have fewContent := Analyses.content_filter wanted.contains isContent fewRuns
  -- What is written instead can be written in the same place.
  obtain ⟨fewWritten, fewWrites⟩ := Store.exists_write writes
    (Utf8.encode (Json.write (.object (content.filter fun member => wanted.contains member.1))).toList)
  have fewStored : Analysis.storeJson later.store (fewDone.directory.child Analysis.contentFile)
      fewDone.content = (fewWritten, none) := by
    rw [fewDirectory, fewKept, sameFiles, ← kept]
    exact Analysis.storeJson_eq_none_iff.mpr ⟨place, _, made, fewContent, fewWrites⟩
  obtain ⟨fewSucceeds, fewStore⟩ :=
    analyse_succeeds_iff.mpr ⟨_, fewDone, later, sameFiles ▸ preparedFew, fewRan, fewStored⟩
  refine ⟨analyses.directory, content, output, fun name => ?_, (Store.readText_of_write writes).2,
    fewSucceeds, fewStore ▸ (Store.readText_of_write fewWrites).2⟩
  rw [contentNames, ranNames name, fresh, names]
  simp

/-- Two projects with a file each. The files have the same content, but are in different
languages. The second project is asked for alone. -/
theorem analyse_only_second :
    let toml := "[codelinks.projects.p.source_discover]\nsrc_dir = \"s\"\n\n" ++
      "[codelinks.projects.q.source_discover]\nsrc_dir = \"t\"\ncomment_type = \"python\"\n"
    let discovery (members : Members) : Value := .object [("source_discover", .object members)]
    let _ : Libraries := { Libraries.reference with
      readToml := fun text =>
        if text = toml.toList then
          .ok (.object [("codelinks", .object [("projects", .object [
            ("p", discovery [("src_dir", .text "s")]),
            ("q", discovery [("src_dir", .text "t"), ("comment_type", .text "python")])])])])
        else .error "" }
    let source := Utf8.encode "// @T, I # @U, J".toList
    let parser : Syntax.Parser := .inPreorder fun language content =>
      let start := if language = .python then 9 else 0
      .mk "root" 0 content.length [.mk "comment" start content.length []]
    let session : Session :=
      ⟨⟨⟨.absolute, []⟩, [(["s"], .directory), (["s", "a.c"], .file source), (["t"], .directory),
        (["t", "b.py"], .file source), (["c.toml"], .file (Utf8.encode toml.toList))]⟩, parser, []⟩
    let again : Session := { session with log := [.debug "once more"] }
    let listing : Discovery.Listing := ⟨fun _ directory _ =>
      [if directory.name = "s" then directory.child "a.c" else directory.child "b.py"]⟩
    let request : AnalyseRequest := { configuration := ⟨.absolute, ["c.toml"]⟩ }
    configuredProjects session.store request.configuration = ["p", "q"] ∧
      ∃ (directory : Path) (content : Members),
        outputDirectory session.store request = .ok directory ∧
        (∀ name, name ∈ content.map (·.1) ↔ name ∈ ["p", "q"]) ∧
        (analyse session listing request).store.readText (directory.child Analysis.contentFile) =
          .ok (Json.write (.object content)).toList ∧
        (analyse again listing (request.only ["q"])).fault = none ∧
        (analyse again listing (request.only ["q"])).store.readText
            (directory.child Analysis.contentFile) =
          .ok (Json.write (.object (content.filter fun member => ["q"].contains member.1))).toList := by
  intro toml discovery _ source parser session again listing request
  have names : configuredProjects session.store request.configuration = ["p", "q"] := by
    decide +kernel
  have succeeds : (analyse session listing request).fault.isNone = true := by
    decide +kernel
  have stored := @analyse_only session listing request _ again ["q"] rfl
    (Option.isNone_iff_eq_none.mp succeeds) rfl (fun _ _ => rfl) (by decide) (by rw [names]; decide)
  rw [names] at stored
  exact ⟨names, stored⟩

end Commands

end Tracemark
