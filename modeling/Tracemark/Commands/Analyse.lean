import Tracemark.Commands.Outcome
import Tracemark.Discovery.Basic
import Tracemark.Tracing.Analyses
import Tracemark.Tracing.Settings

/-!
# The command that analyses projects

The command reads a configuration, discovers the files of the chosen projects,
analyses them and stores the marked content.
-/

set_option autoImplicit false

namespace Tracemark.Commands

structure AnalyseRequest where
  configuration : Path
  projects : List String := []
  directory : Option Path := none
  verbosity : Log.Verbosity := {}
deriving Repr

def loadSection [Libraries] (store : Store) (file : Path) : Except Fault Value :=
  match (store.readText file).toOption.bind fun text => (Libraries.readToml text).toOption with
  | none => .error (.rejected s!"Failed to load CodeLinks configuration from {file.text}")
  | some value => do
      let part := ((← value.membersOf).get? "codelinks").getD .null
      if part.truthy then return part
      else throw (.rejected s!"No 'codelinks' section found in {file.text}")

/-- A value of the wrong kind in a configuration is a reason to refuse it; other
faults stay what they are. -/
def refuseMismatch {α : Type} (result : Except Fault α) : Except Fault α :=
  result.mapError fun fault =>
    match fault with
    | .mismatch _ => .rejected fault.message
    | .invalidStyle _ => .rejected fault.message
    | other => other

def readSettings (content : Value) :
    Except Fault (Tracing.Settings × List (String × Tracing.Project)) := do
  let members ←
    match content with
    | .object members => .ok members
    | other => .error (.mismatch (.notMapping "sphinx_codelinks.config.CodeLinksConfig" other.kindName))
  let (settings, projects) := (← Tracing.Settings.ofMembers members).generate
  return (settings, ← (← projects).asNamed)

def refuseMissing (known wanted : List String) : Except Fault Unit :=
  let missing := wanted.filter fun name => !known.contains name
  refuseFor (if missing.isEmpty then [] else "The following projects are not found:" :: missing)

def generatedSettings (project : Tracing.Project) :
    Except Fault (Discovery.Settings × Analysis.Settings) :=
  match project with
  | .members members =>
      match members.get? "source_discover_config", members.get? "analyse_config" with
      | some (.discovery discovery), some (.analysis analysis) => .ok (discovery, analysis)
      | _, _ => .error .noSuchMember
  | .other _ => .error .noSuchMember

/-- A place below the directory of the configuration; nothing stays nothing. -/
def placeBelow (working base : Path) : Place → Except Fault Place
  | .path location => return .path (← (base.join location).resolve working)
  | .other .null => .ok (.other .null)
  | .other _ => .error (.mismatch .unfit)

def prepareProject [Libraries] (store : Store) (listing : Discovery.Listing) (base : Path)
    (project : Tracing.Project) : Except Fault Analysis.Settings := do
  let (discovery, analysis) ← generatedSettings project
  let report := discovery.check
  refuseFor (if report.isEmpty then [] else "Invalid source discovery configuration:" :: report)
  let directory ← placeBelow store.working base discovery.directory
  let found ← (Discovery.run store listing { discovery with directory := directory }).2
  let repository ← placeBelow store.working base analysis.repository
  let prepared : Analysis.Settings :=
    { analysis with
      sources := .paths found.paths
      directory := directory
      repository := repository }
  refuseFor (← prepared.check)
  return prepared

def prepare [Libraries] (store : Store) (listing : Discovery.Listing) (request : AnalyseRequest) :
    Except Fault Tracing.Analyses := do
  let content ← loadSection store request.configuration
  let (settings, projects) ← refuseMismatch (readSettings content)
  refuseMissing (projects.map (·.1)) request.projects
  let chosen := projects.filter fun (name, _) =>
    request.projects.isEmpty || request.projects.contains name
  let prepared ← chosen.mapM fun (name, project) => do
    return (name, ← prepareProject store listing request.configuration.parent project)
  let directory ←
    match request.directory with
    | some location => .ok location
    | none => (← settings.get "outdir").asPath
  return .ofSettings directory prepared

def warningLine (warning : Analysis.Warning) : String :=
  s!"Oneline parser warning in {warning.file.text}:{warning.line} " ++
    s!"- {warning.cause.kind}: {warning.cause.message}"

def analyse [Libraries] (session : Session) (listing : Discovery.Listing)
    (request : AnalyseRequest) : Outcome :=
  let router : Log.Router := { frontend := .console, verbosity := request.verbosity }
  match prepare session.store listing request with
  | .error fault => failed session.store fault
  | .ok analyses =>
      match analyses.runAll session with
      | (_, after, some fault) =>
          { store := after.store, printed := router.routeAll after.log, fault := some fault }
      | (done, after, none) =>
          let lines := done.warnings.flatMap fun warning => router.print .warning (warningLine warning)
          let (last, fault) := done.dumpContent { after with log := [] }
          { store := last.store
            printed := router.routeAll after.log ++ lines ++ router.routeAll last.log
            fault := fault }

end Tracemark.Commands
