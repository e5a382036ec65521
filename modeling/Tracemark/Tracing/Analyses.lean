import Tracemark.Analysis.Run
import Tracemark.Json.Reader

/-!
# Analyses of projects

The projects of one configuration are analysed one after the other. What they hold
is stored together, and so are the warnings.
-/

set_option autoImplicit false

namespace Tracemark.Tracing

/-- The settings of projects, where output goes, and the runs that came to an
end. -/
structure Analyses where
  settings : List (String × Analysis.Settings)
  directory : Path
  runs : List (String × Analysis.Run)
deriving Repr

def warningsPath (directory : Path) : Path :=
  (directory.child "warnings").child "codelinks_warnings.json"

/-- Keeps a run for a project: one that was there before is replaced where it
stands, a new one comes last. -/
def putRun (name : String) (run : Analysis.Run) :
    List (String × Analysis.Run) → List (String × Analysis.Run)
  | [] => [(name, run)]
  | current :: rest =>
      if current.1 == name then (name, run) :: rest else current :: putRun name run rest

namespace Analyses

/-- The analyses before anything is done. -/
def ofSettings (directory : Path) (settings : List (String × Analysis.Settings)) : Analyses :=
  ⟨settings, directory, []⟩

/-- Starts a run and takes all its steps. -/
def runProject [Libraries] (name : String) (settings : Analysis.Settings)
    : Action Analysis.Run := do
  let started ← Analysis.Run.start name settings
  let session ← get
  let (run, log, fault) := started.complete session
  set { session with log := session.log ++ log }
  match fault with
  | some cause => throw cause
  | none => return run

/-- Runs projects up to the first fault. Runs that came to an end are kept. -/
def runEach [Libraries] (analyses : Analyses) (session : Session) :
    List (String × Analysis.Settings) → Analyses × Session × Option Fault
  | [] => (analyses, session, none)
  | (name, settings) :: rest =>
      match (runProject name settings).run.run session with
      | (.error fault, after) => (analyses, after, some fault)
      | (.ok run, after) =>
          runEach { analyses with runs := putRun name run analyses.runs } after rest

def runAll [Libraries] (analyses : Analyses) (session : Session)
    : Analyses × Session × Option Fault :=
  analyses.runEach session analyses.settings

def content (analyses : Analyses) : Except Fault Value := do
  return .object (← analyses.runs.mapM fun (name, run) => do
    return (name, ← Analysis.Entry.storedList run.content))

def dumpContent (analyses : Analyses) (session : Session) : Session × Option Fault :=
  let file := analyses.directory.child Analysis.contentFile
  match Analysis.storeJson session.store file analyses.content with
  | (store, some fault) => ({ session with store := store }, some fault)
  | (store, none) =>
      ({ session with
          store := store
          log := session.log ++ [.debug s!"codelinks: marked content dumped to {file.text}"] },
        none)

def warnings (analyses : Analyses) : List Analysis.Warning :=
  analyses.runs.flatMap fun (_, run) => run.warnings

def dumpWarnings (analyses : Analyses) (session : Session) (value : Value) : Session × Option Fault :=
  let (store, fault) :=
    Analysis.storeJson session.store (warningsPath analyses.directory) (.ok value)
  ({ session with store := store }, fault)

def updateWarnings (analyses : Analyses) (session : Session) : Session × Option Fault :=
  analyses.dumpWarnings session
    (.list (analyses.warnings.map fun warning => .object warning.stored.toMembers))

end Analyses

def readJson (store : Store) (file : Path) : Except Fault Value := do
  match Json.readAll (Text.unifyNewlines (← store.readText file)) with
  | .ok value => return value
  | .error refusal => throw refusal.fault

/-- Loads the warnings that were stored below a directory; without a file there are
none to load. -/
def loadWarnings (store : Store) (directory : Path) :
    Except Fault (Option (List Analysis.StoredWarning)) := do
  let file := warningsPath directory
  if ← store.contains file then
    let items ← (← readJson store file).items
    let loaded ← items.mapM fun item =>
      match Analysis.StoredWarning.ofValue item with
      | .ok warning => .ok warning
      | .error cause => .error (.mismatch cause)
    return some loaded
  else return none

end Tracemark.Tracing
