import Tracemark.Proofs.Analysis.Extraction
import Tracemark.Tracing.Analyses

/-!
# Completed runs

A run comes to its end exactly when each of its files can be read and each comment
in them can be extracted, and it then holds what the files yield one by one.
-/

set_option autoImplicit false

namespace Tracemark

namespace Action

variable {α β : Type}

/-- The action only adds records to the log. Neither they nor its result depend on what the log
holds before, and of the parser only what it captures matters. -/
def OnlyNotes (action : Action α) : Prop :=
  ∀ store (parser : Syntax.Parser), ∃ result records, ∀ other, parser.CapturesAlike other → ∀ log,
    action.run.run ⟨store, other, log⟩ = (result, ⟨store, other, log ++ records⟩)

theorem onlyNotes_ofExcept (result : Except Fault α) : OnlyNotes (ofExcept result) := by
  intro store parser
  refine ⟨result, [], fun other _ log => ?_⟩
  rw [List.append_nil]
  rfl

theorem onlyNotes_pure (value : α) : OnlyNotes (pure value : Action α) :=
  onlyNotes_ofExcept (.ok value)

theorem onlyNotes_throw (fault : Fault) : OnlyNotes (throw fault : Action α) :=
  onlyNotes_ofExcept (.error fault)

theorem onlyNotes_store : OnlyNotes Action.store := by
  intro store parser
  refine ⟨.ok store, [], fun other _ log => ?_⟩
  rw [List.append_nil]
  rfl

theorem onlyNotes_note (record : Log.Record) : OnlyNotes (note record) :=
  fun _ _ => ⟨.ok (), [record], fun _ _ _ => rfl⟩

namespace OnlyNotes

theorem bind {first : Action α} {second : α → Action β} (firstNotes : first.OnlyNotes)
    (secondNotes : ∀ value, (second value).OnlyNotes) : (first >>= second).OnlyNotes := by
  intro store parser
  obtain ⟨result, records, outcome⟩ := firstNotes store parser
  cases result with
  | error fault =>
      refine ⟨.error fault, records, fun other alike log => ?_⟩
      rw [ExceptT.run_bind, StateT.run_bind, outcome other alike]
      rfl
  | ok value =>
      obtain ⟨later, more, laterOutcome⟩ := secondNotes value store parser
      refine ⟨later, records ++ more, fun other alike log => ?_⟩
      rw [ExceptT.run_bind, StateT.run_bind, outcome other alike, ← List.append_assoc]
      exact laterOutcome other alike (log ++ records)

variable {action : Action α} {session after : Session} {result : Except Fault α}

theorem keeps (notes : action.OnlyNotes) (ran : action.run.run session = (result, after)) :
    after.store = session.store ∧ after.parser = session.parser := by
  obtain ⟨_, _, outcome⟩ := notes session.store session.parser
  obtain ⟨_, rfl⟩ :=
    Prod.mk.inj (ran.symm.trans (outcome session.parser (fun _ _ => rfl) session.log))
  exact ⟨rfl, rfl⟩

/-- The action has the same result in every session with the same files whose parser captures
comments in the same order. -/
theorem exists_run (notes : action.OnlyNotes) (ran : action.run.run session = (result, after))
    {other : Session} (store : other.store = session.store)
    (alike : session.parser.CapturesAlike other.parser) :
    ∃ later, action.run.run other = (result, later) ∧ later.store = after.store ∧
      after.parser.CapturesAlike later.parser := by
  obtain ⟨otherStore, otherParser, otherLog⟩ := other
  obtain rfl : otherStore = session.store := store
  obtain ⟨_, _, outcome⟩ := notes session.store session.parser
  obtain ⟨rfl, rfl⟩ :=
    Prod.mk.inj (ran.symm.trans (outcome session.parser (fun _ _ => rfl) session.log))
  exact ⟨_, outcome otherParser alike otherLog, rfl, alike⟩

end OnlyNotes

end Action

namespace Git

open Tracemark.Action

theorem onlyNotes_locateRoot (directory : Path) : (locateRoot directory).OnlyNotes := by
  refine onlyNotes_store.bind fun store => (onlyNotes_ofExcept _).bind fun root => ?_
  cases root with
  | some root => exact onlyNotes_pure _
  | none => exact (onlyNotes_note _).bind fun _ => onlyNotes_pure _

theorem onlyNotes_remoteAddress (root : Path) (name : String) :
    (remoteAddress root name).OnlyNotes := by
  refine onlyNotes_store.bind fun store => (onlyNotes_ofExcept _).bind fun present => ?_
  cases present with
  | false => exact (onlyNotes_note _).bind fun _ => onlyNotes_pure _
  | true =>
      refine (onlyNotes_ofExcept _).bind fun sections => (onlyNotes_ofExcept _).bind fun found => ?_
      cases found with
      | some address => exact onlyNotes_pure _
      | none => exact (onlyNotes_note _).bind fun _ => onlyNotes_pure _

theorem onlyNotes_currentRevision (root : Path) : (currentRevision root).OnlyNotes := by
  refine onlyNotes_store.bind fun store => (onlyNotes_ofExcept _).bind fun present => ?_
  cases present with
  | false => exact (onlyNotes_note _).bind fun _ => onlyNotes_pure _
  | true =>
      refine (onlyNotes_ofExcept _).bind fun content => ?_
      cases readHead content with
      | revision text => exact onlyNotes_pure _
      | reference path =>
          refine (onlyNotes_ofExcept _).bind fun referenced => ?_
          cases referenced with
          | false => exact (onlyNotes_note _).bind fun _ => onlyNotes_pure _
          | true => exact (onlyNotes_ofExcept _).bind fun _ => onlyNotes_pure _

end Git

namespace Analysis.Run

open Tracemark.Action

/-! ## Starting -/

theorem onlyNotes_findRepository (settings : Settings) : (findRepository settings).OnlyNotes := by
  unfold findRepository
  split
  · exact onlyNotes_store.bind fun _ => (onlyNotes_ofExcept _).bind fun _ => onlyNotes_pure _
  · exact (onlyNotes_ofExcept _).bind fun _ => Git.onlyNotes_locateRoot _
  · exact onlyNotes_throw _

/-- A run that has gathered nothing. -/
structure IsNew (run : Run) : Prop where
  comments : run.comments = []
  references : run.references = []
  needs : run.needs = []
  blocks : run.blocks = []
  content : run.content = []

structure StartedBy (settings : Settings) (run : Run) : Prop where
  settings : run.settings = settings
  isNew : run.IsNew
  unaddressed : run.repository = none → run.address = none

variable {name : String} {settings : Settings} {session after : Session} {run : Run}

/-- Starting looks up the repository, its remote and its revision, one after the other. -/
theorem start_eq_ok_iff :
    (start name settings).run.run session = (.ok run, after) ↔
      ∃ repository address revision located addressed,
        (findRepository settings).run.run session = (.ok repository, located) ∧
        (match repository with
          | some root => Git.remoteAddress root "origin"
          | none => pure none : Action (Option String)).run.run located =
            (.ok address, addressed) ∧
        (match repository with
          | some root => Git.currentRevision root
          | none => pure none : Action (Option String)).run.run addressed = (.ok revision, after) ∧
        run = ⟨name, settings, repository, address, revision, [], [], [], [], [], [], []⟩ := by
  unfold start
  constructor
  · intro started
    obtain ⟨repository, located, isLocated, lookedUp⟩ := Result.run_bind_eq_ok_iff.mp started
    refine ⟨repository, ?_⟩
    cases repository <;>
      (simp only [Result.run_bind_eq_ok_iff] at lookedUp
       obtain ⟨address, addressed, isAddressed, revision, revised, isRevised, finished⟩ := lookedUp
       cases finished
       exact ⟨address, revision, located, addressed, isLocated, isAddressed, isRevised, rfl⟩)
  · rintro ⟨repository, address, revision, located, addressed, isLocated, isAddressed, isRevised, rfl⟩
    refine Result.run_bind_eq_ok_iff.mpr ⟨repository, located, isLocated, ?_⟩
    cases repository <;>
      (simp only [Result.run_bind_eq_ok_iff]
       exact ⟨address, addressed, isAddressed, revision, after, isRevised, rfl⟩)

theorem startedBy_of_start (started : (start name settings).run.run session = (.ok run, after)) :
    run.StartedBy settings := by
  obtain ⟨repository, address, revision, located, addressed, _, isAddressed, _, rfl⟩ :=
    start_eq_ok_iff.mp started
  refine ⟨rfl, ⟨rfl, rfl, rfl, rfl, rfl⟩, ?_⟩
  rintro rfl
  cases isAddressed
  rfl

theorem onlyNotes_start (name : String) (settings : Settings) : (start name settings).OnlyNotes := by
  refine (onlyNotes_findRepository settings).bind fun repository => ?_
  cases repository with
  | none =>
      exact (onlyNotes_pure _).bind fun _ => (onlyNotes_pure _).bind fun _ => onlyNotes_pure _
  | some root =>
      exact (Git.onlyNotes_remoteAddress _ _).bind fun _ =>
        (Git.onlyNotes_currentRevision _).bind fun _ => onlyNotes_pure _

/-- Only the settings on the repository and the directory matter to the start of a run. -/
theorem start_of_others (started : (start name settings).run.run session = (.ok run, after))
    {others : Settings} (repository : others.repository = settings.repository)
    (directory : others.directory = settings.directory) :
    (start name others).run.run session = (.ok { run with settings := others }, after) := by
  have same : findRepository others = findRepository settings := by
    simp only [findRepository, repository, directory]
  obtain ⟨root, address, revision, located, addressed, isLocated, isAddressed, isRevised, rfl⟩ :=
    start_eq_ok_iff.mp started
  exact start_eq_ok_iff.mpr ⟨root, address, revision, located, addressed, same ▸ isLocated,
    isAddressed, isRevised, rfl⟩

/-! ## Collecting comments -/

def commentsIn (session : Session) (language : Language) (path : Path) : List Comment :=
  match fileComments session language path with
  | .ok found => found.map fun cursor => ⟨cursor, some (path.absolute session.store.working)⟩
  | .error _ => []

theorem file_of_mem_commentsIn {language : Language} {path : Path} {comment : Comment}
    (member : comment ∈ commentsIn session language path) :
    comment.file = some (path.absolute session.store.working) := by
  unfold commentsIn at member
  split at member
  · obtain ⟨cursor, _, rfl⟩ := List.mem_map.mp member
    rfl
  · cases member

def IsReadable (session : Session) (language : Language) (path : Path) : Prop :=
  (fileComments session language path).isOk = true

theorem addFile_eq (run : Run) (file : Path) (found : List Syntax.Cursor) :
    ∃ files, run.addFile file found =
      { run with
        files := files
        comments := run.comments ++ found.map fun cursor => ⟨cursor, some file⟩ } := by
  unfold addFile
  split
  · rename_i empty
    exact ⟨run.files, by simp [List.isEmpty_iff.mp empty]⟩
  · exact ⟨_, rfl⟩

theorem collect_of_readable {language : Language} {paths : List Path}
    (readable : ∀ path ∈ paths, IsReadable session language path) (run : Run) :
    ∃ files, run.collect session language paths =
      ({ run with
          files := files
          comments := run.comments ++ paths.flatMap (commentsIn session language) }, none) := by
  induction paths generalizing run with
  | nil => exact ⟨run.files, by simp [collect]⟩
  | cons path rest ih =>
      obtain ⟨first, others⟩ := List.forall_mem_cons.mp readable
      cases found : fileComments session language path with
      | error fault =>
          rw [IsReadable, found] at first
          cases first
      | ok cursors =>
          obtain ⟨added, isAdded⟩ := run.addFile_eq (path.absolute session.store.working) cursors
          obtain ⟨files, collected⟩ := ih others (run.addFile (path.absolute session.store.working) cursors)
          refine ⟨files, ?_⟩
          simp only [collect, found, collected]
          simp [isAdded, commentsIn, found]

theorem readable_of_collect {language : Language} {paths : List Path} {collected : Run}
    (collects : run.collect session language paths = (collected, none)) :
    ∀ path ∈ paths, IsReadable session language path := by
  induction paths generalizing run with
  | nil => simp
  | cons path rest ih =>
      simp only [collect] at collects
      split at collects
      · cases collects
      · rename_i cursors found
        refine List.forall_mem_cons.mpr ⟨?_, ih collects⟩
        rw [IsReadable, found]
        rfl

/-! ## Taking all steps -/

def entriesIn [Libraries] (session : Session) (language : Language) (run : Run) (kind : Kind)
    (path : Path) :
    List Entry :=
  (commentsIn session language path).flatMap fun comment =>
    (extractComment run.settings (run.linkSource session.store.working) language comment).ofKind kind

/-- The language and the files of a run that nothing will stop: every file can be read,
and every comment extracted. -/
structure Proceeds [Libraries] (session : Session) (run : Run) (language : Language)
    (paths : List Path) :
    Prop where
  speaks : Language.ofSetting run.settings.language = .ok language
  lists : run.settings.sources.asPaths = .ok paths
  readable : ∀ path ∈ paths, IsReadable session language path
  sound : ∀ path ∈ paths, ∀ comment ∈ commentsIn session language path,
    (extractComment run.settings (run.linkSource session.store.working) language comment).fault =
      none

theorem ofSetting?_of_ofSetting {value : Value} {language : Language}
    (speaks : Language.ofSetting value = .ok language) :
    Language.ofSetting? value = some language := by
  unfold Language.ofSetting at speaks
  split at speaks
  · cases speaks
    assumption
  · cases speaks

theorem exists_proceeds [Libraries] {completed : Run} {log : List Log.Record} (isNew : run.IsNew)
    (completes : run.complete session = (completed, log, none)) :
    ∃ language paths, run.Proceeds session language paths := by
  unfold complete at completes
  split at completes
  · cases completes
  · rename_i created creates
    split at completes
    · cases completes
    · rename_i extracted _ extracts
      unfold create at creates
      split at creates
      · cases creates
      · rename_i language speaks
        split at creates
        · cases creates
        · rename_i paths lists
          have readable := readable_of_collect creates
          obtain ⟨files, collected⟩ := collect_of_readable readable run
          obtain ⟨rfl, _⟩ := Prod.mk.inj (collected.symm.trans creates)
          obtain ⟨_, _, unfailing⟩ := by simpa only [extract, Prod.mk.injEq] using extracts
          rw [fault_extractAll_eq_none_iff, ofSetting?_of_ofSetting speaks, isNew.comments] at unfailing
          refine ⟨language, paths, speaks, lists, readable, fun path listed comment member => ?_⟩
          exact unfailing comment (List.mem_append_right _ (List.mem_flatMap.mpr ⟨path, listed, member⟩))

/-- The run with all that it takes from files. What it counts and warns of is left open. -/
def filled [Libraries] (session : Session) (language : Language) (run : Run) (paths : List Path)
    (files : List (Path × Nat)) (warnings : List Warning) : Run :=
  let taken (kind : Kind) : List Entry := paths.flatMap (entriesIn session language run kind)
  { run with
    files := files
    comments := paths.flatMap (commentsIn session language)
    references := taken .reference
    needs := byRow (taken .need)
    blocks := taken .block
    content := inOrder (taken .reference ++ byRow (taken .need) ++ taken .block)
    warnings := warnings }

namespace Proceeds

variable {language : Language} {paths : List Path}

theorem fault_extractComment [Libraries] (proceeds : run.Proceeds session language paths) :
    ∀ comment ∈ paths.flatMap (commentsIn session language),
      (extractComment run.settings (run.linkSource session.store.working) language comment).fault =
        none := by
  intro comment member
  obtain ⟨path, listed, inFile⟩ := List.mem_flatMap.mp member
  exact proceeds.sound path listed comment inFile

theorem ofKind_extractAll [Libraries] (proceeds : run.Proceeds session language paths)
    (kind : Kind) :
    (extractAll run.settings (run.linkSource session.store.working) language
      (paths.flatMap (commentsIn session language))).ofKind kind =
      paths.flatMap (entriesIn session language run kind) := by
  rw [Analysis.ofKind_extractAll proceeds.fault_extractComment, List.flatMap_assoc]
  rfl

/-- An entry that was taken from a file is of the kind asked for, stands in the file, and
is linked to its line. -/
theorem entry_of_mem [Libraries] (proceeds : run.Proceeds session language paths) {path : Path}
    (listed : path ∈ paths) {kind : Kind} {entry : Entry}
    (member : entry ∈ entriesIn session language run kind path) :
    entry.payload.kind = kind ∧ entry.file = path.absolute session.store.working ∧
      ∃ log, (run.linkSource session.store.working).link entry.file (entry.row + 1) =
        (log, .ok entry.link) := by
  obtain ⟨comment, inFile, inComment⟩ := List.mem_flatMap.mp member
  have found := foundIn_of_mem_extractComment (proceeds.sound path listed comment inFile) inComment
  refine ⟨found.kind, ?_, found.linked⟩
  exact Option.some.inj (found.file.symm.trans (file_of_mem_commentsIn inFile))

/-- What is merged was taken from one of the files. -/
theorem taken_of_mem_content [Libraries] (proceeds : run.Proceeds session language paths)
    {files : List (Path × Nat)} {warnings : List Warning} {entry : Entry}
    (member : entry ∈ (filled session language run paths files warnings).content) :
    ∃ path ∈ paths, entry.file = path.absolute session.store.working ∧
      ∃ log, (run.linkSource session.store.working).link entry.file (entry.row + 1) =
        (log, .ok entry.link) := by
  simp only [filled, inOrder, byRow, List.mem_mergeSort, List.mem_append] at member
  have taken : ∃ kind, entry ∈ paths.flatMap (entriesIn session language run kind) := by
    rcases member with (reference | need) | block
    · exact ⟨_, reference⟩
    · exact ⟨_, need⟩
    · exact ⟨_, block⟩
  obtain ⟨kind, inPaths⟩ := taken
  obtain ⟨path, listed, inFile⟩ := List.mem_flatMap.mp inPaths
  exact ⟨path, listed, (proceeds.entry_of_mem listed inFile).2⟩

theorem complete_eq [Libraries] (isNew : run.IsNew)
    (proceeds : run.Proceeds session language paths) :
    ∃ files warnings log,
      run.complete session = (filled session language run paths files warnings, log, none) := by
  obtain ⟨files, collected⟩ := collect_of_readable proceeds.readable run
  have creates : run.create session = run.collect session language paths := by
    simp only [create, proceeds.speaks, proceeds.lists]
  have unfailing := fault_extractAll_eq_none_iff.mpr proceeds.fault_extractComment
  have references := proceeds.ofKind_extractAll .reference
  have needs := proceeds.ofKind_extractAll .need
  have blocks := proceeds.ofKind_extractAll .block
  simp only [complete, creates, collected, extract, isNew.comments, List.nil_append,
    ofSetting?_of_ofSetting proceeds.speaks, Option.getD_some]
  -- Collecting changes nothing that links depend on.
  simp only [linkSource, Extraction.ofKind] at unfailing references needs blocks ⊢
  simp only [unfailing, references, needs, blocks, merge, isNew.references, isNew.needs,
    isNew.blocks, isNew.content, List.nil_append]
  exact ⟨files, _, _, rfl⟩

end Proceeds

/-! ## Sessions with the same files

Neither the log is looked at, nor more of the parser than what it captures. -/

section Alike

variable {other : Session} (store : other.store = session.store)
  (alike : session.parser.CapturesAlike other.parser)
include store alike

theorem fileComments_of_alike (language : Language) (path : Path) :
    fileComments other language path = fileComments session language path := by
  rw [fileComments, fileComments, store]
  refine bind_congr fun content => ?_
  cases content with
  | none => rfl
  | some content => exact congrArg Except.ok (alike language content).symm

theorem collect_of_alike (language : Language) (run : Run) (paths : List Path) :
    run.collect other language paths = run.collect session language paths := by
  induction paths generalizing run with
  | nil => rfl
  | cons path rest ih => simp only [collect, fileComments_of_alike store alike, store, ih]

theorem complete_of_alike [Libraries] (run : Run) : run.complete other = run.complete session := by
  simp only [complete, create, collect_of_alike store alike, store]

end Alike

end Analysis.Run

namespace Tracing.Analyses

open Analysis (Run)

variable {name : String} {settings : Analysis.Settings} {session after : Session} {run : Run}

theorem runProject_of_start [Libraries] {started : Run} {middle : Session} {log : List Log.Record}
    {fault : Option Fault}
    (isStarted : (Run.start name settings).run.run session = (.ok started, middle))
    (completes : started.complete middle = (run, log, fault)) :
    (runProject name settings).run.run session =
      (fault.elim (.ok run) .error, { middle with log := middle.log ++ log }) := by
  have reads : (get : Action Session).run.run middle = (.ok middle, middle) := rfl
  rw [runProject, Result.run_bind_of_ok isStarted, Result.run_bind_of_ok reads, completes]
  cases fault <;> rfl

theorem runProject_eq_ok_iff [Libraries] :
    (runProject name settings).run.run session = (.ok run, after) ↔
      ∃ started middle log, (Run.start name settings).run.run session = (.ok started, middle) ∧
        started.complete middle = (run, log, none) ∧
        after = { middle with log := middle.log ++ log } := by
  constructor
  · intro ran
    obtain ⟨started, middle, isStarted, _⟩ := Result.run_bind_eq_ok_iff.mp ran
    rcases completes : started.complete middle with ⟨completed, log, fault⟩
    rw [runProject_of_start isStarted completes] at ran
    cases fault with
    | some cause => cases ran
    | none =>
        cases ran
        exact ⟨started, middle, log, isStarted, completes, rfl⟩
  · rintro ⟨started, middle, log, isStarted, completes, rfl⟩
    exact runProject_of_start isStarted completes

/-- Running a project changes no file, and what came of other projects before does not matter. -/
theorem onlyNotes_runProject [Libraries] (name : String) (settings : Analysis.Settings) :
    (runProject name settings).OnlyNotes := by
  intro store parser
  obtain ⟨result, records, starts⟩ := Run.onlyNotes_start name settings store parser
  cases result with
  | error fault =>
      exact ⟨.error fault, records, fun other alike log =>
        Result.run_bind_of_error (starts other alike log) _⟩
  | ok started =>
      rcases completed : started.complete ⟨store, parser, []⟩ with ⟨run, more, fault⟩
      refine ⟨fault.elim (.ok run) .error, records ++ more, fun other alike log => ?_⟩
      have same := @Run.complete_of_alike ⟨store, parser, []⟩ ⟨store, other, log ++ records⟩ rfl
        alike _ started
      rw [runProject_of_start (starts other alike log) (same.trans completed), List.append_assoc]

/-- A project that was run holds what its files yield. -/
theorem exists_filled_of_runProject [Libraries]
    (ran : (runProject name settings).run.run session = (.ok run, after)) :
    ∃ started middle language paths,
      (Run.start name settings).run.run session = (.ok started, middle) ∧
        middle.store = session.store ∧ started.Proceeds middle language paths ∧
        ∃ files warnings, run = Run.filled middle language started paths files warnings := by
  obtain ⟨started, middle, log, isStarted, completes, _⟩ := runProject_eq_ok_iff.mp ran
  have isNew := (Run.startedBy_of_start isStarted).isNew
  obtain ⟨language, paths, proceeds⟩ := Run.exists_proceeds isNew completes
  obtain ⟨files, warnings, log, completed⟩ := proceeds.complete_eq isNew
  have kept : middle.store = session.store := ((Run.onlyNotes_start name settings).keeps isStarted).1
  have same : run = Run.filled middle language started paths files warnings :=
    congrArg Prod.fst (completes.symm.trans completed)
  exact ⟨started, middle, language, paths, isStarted, kept, proceeds, files, warnings, same⟩

/-- A run that nothing stops comes to its end. -/
theorem exists_runProject_of_proceeds [Libraries] {started : Run} {middle : Session}
    {language : Language} {paths : List Path}
    (isStarted : (Run.start name settings).run.run session = (.ok started, middle))
    (proceeds : started.Proceeds middle language paths) :
    ∃ files warnings after, (runProject name settings).run.run session =
      (.ok (Run.filled middle language started paths files warnings), after) := by
  obtain ⟨files, warnings, log, completed⟩ :=
    proceeds.complete_eq (Run.startedBy_of_start isStarted).isNew
  exact ⟨files, warnings, _, runProject_eq_ok_iff.mpr
    ⟨started, middle, log, isStarted, completed, rfl⟩⟩

end Tracing.Analyses

end Tracemark
