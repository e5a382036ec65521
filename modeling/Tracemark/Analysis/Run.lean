import Tracemark.Analysis.Extraction
import Tracemark.Discovery.Content
import Tracemark.Git.Repository
import Tracemark.Json.Writer

/-!
# Runs of an analysis

A run belongs to a project. It collects the comments of the source files,
extracts what they hold, and merges the entries in the order of files and rows.
The steps can be taken one by one and again; what a step gathers comes after what
is there.
-/

set_option autoImplicit false

namespace Tracemark.Analysis

structure Run where
  name : String
  settings : Settings
  repository : Option Path
  address : Option String
  revision : Option String
  files : List (Path × Nat)
  comments : List Comment
  references : List Entry
  needs : List Entry
  blocks : List Entry
  content : List Entry
  warnings : List Warning
deriving Repr

namespace Run

/-- The repository of an analysis: the one that is set, or the one that the source
directory belongs to. -/
def findRepository (settings : Settings) : Action (Option Path) := do
  match settings.repository with
  | .path location => return some (← Action.ofExcept (location.resolve (← Action.store).working))
  | .other .null => Git.locateRoot (← Action.ofExcept settings.directory.asPath)
  | .other _ => throw .noSuchMember

/-- A new run. The repository, its remote and its revision are looked up. -/
def start (name : String) (settings : Settings) : Action Run := do
  let repository ← findRepository settings
  let address ←
    match repository with
    | some root => Git.remoteAddress root "origin"
    | none => pure none
  let revision ←
    match repository with
    | some root => Git.currentRevision root
    | none => pure none
  return {
    name := name
    settings := settings
    repository := repository
    address := address
    revision := revision
    files := []
    comments := []
    references := []
    needs := []
    blocks := []
    content := []
    warnings := [] }

/-- The directory that a run's files are seen from. -/
def project (run : Run) : Place :=
  match run.repository with
  | some root => .path root
  | none => run.settings.directory

/-- The content of a source file with unified line endings, or nothing if the file
is no text. -/
def sourceContent (store : Store) (path : Path) : Except Fault (Option Bytes) := do
  let content ← store.read path
  if Discovery.isTextSample (content.take Discovery.textSampleSize) then
    match Utf8.decode content with
    | .ok text => return some (Utf8.encode (Text.unifyNewlines text))
    | .error cause => throw (.undecodable cause)
  else return none

def fileComments (session : Session) (language : Language) (path : Path) :
    Except Fault (List Syntax.Cursor) := do
  match ← sourceContent session.store path with
  | none => return []
  | some content => return session.parser.captures language content

/-- The run with the comments of a source file. A file without comments is left
out. -/
def addFile (run : Run) (file : Path) (found : List Syntax.Cursor) : Run :=
  if found.isEmpty then run
  else
    { run with
      files := run.files ++ [(file, found.length)]
      comments := run.comments ++ found.map fun cursor => ⟨cursor, some file⟩ }

def collect (session : Session) (language : Language) (run : Run) :
    List Path → Run × Option Fault
  | [] => (run, none)
  | path :: rest =>
      match fileComments session language path with
      | .error fault => (run, some fault)
      | .ok found =>
          collect session language (run.addFile (path.absolute session.store.working) found) rest

def create (session : Session) (run : Run) : Run × Option Fault :=
  match Language.ofSetting run.settings.language with
  | .error fault => (run, some fault)
  | .ok language =>
      match run.settings.sources.asPaths with
      | .error fault => (run, some fault)
      | .ok paths => run.collect session language paths

def linkSource (working : Path) (run : Run) : LinkSource :=
  ⟨working, run.address, run.revision, run.repository.getD Path.here⟩

def extract [Libraries] (working : Path) (run : Run) : Run × List Log.Record × Option Fault :=
  let language := (Language.ofSetting? run.settings.language).getD .cpp
  let found := extractAll run.settings (run.linkSource working) language run.comments
  ({ run with
      references := run.references ++ found.references
      needs := run.needs ++ found.needs
      blocks := run.blocks ++ found.blocks
      warnings := run.warnings ++ found.warnings },
    found.log, found.fault)

def byRow (entries : List Entry) : List Entry :=
  entries.mergeSort fun left right => left.row ≤ right.row

/-- Entries in the order of files and rows. Entries of one row keep their order. -/
def inOrder (entries : List Entry) : List Entry :=
  entries.mergeSort Entry.comesFirst

def merge (run : Run) : Run :=
  let needs := byRow run.needs
  { run with
    needs := needs
    content := inOrder (run.content ++ run.references ++ needs ++ run.blocks) }

/-- A number with a noun, which takes an `s` unless the number is one. -/
def counted (number : Value) (noun : String) : String :=
  if number.same (.int 1) then s!"{number.shown} {noun}" else s!"{number.shown} {noun}s"

def summary (run : Run) : List Log.Record :=
  let label := if run.name.isEmpty then "codelinks" else s!"codelinks [{run.name}]"
  let files := counted (.int run.files.length) "file"
  let markers := counted (.int run.content.length) "marker"
  let comments := counted (.int run.comments.length) "comment"
  let needs := counted (.int run.needs.length) "oneline need"
  let references := counted (.int run.references.length) "id-ref"
  let blocks := counted (.int run.blocks.length) "marked-rst block"
  [.info s!"{label}: {files}, {markers}",
    .debug s!"{label}: {comments}, {needs}, {references}, {blocks}"]

/-- All steps of a run. A fault ends them. -/
def complete [Libraries] (session : Session) (run : Run) : Run × List Log.Record × Option Fault :=
  match run.create session with
  | (created, some fault) => (created, [], some fault)
  | (created, none) =>
      match created.extract session.store.working with
      | (extracted, log, some fault) => (extracted, log, some fault)
      | (extracted, log, none) =>
          let merged := extracted.merge
          (merged, log ++ merged.summary, none)

def orphaned (run : Run) : Run :=
  { run with comments := run.comments.map fun comment => { comment with file := none } }

/-- Reads the needs of comments, each for itself. The warnings of comments before a
fault are kept. -/
def needLines (style : OneLine.Style) : List Comment →
    List Warning × Except Fault (List (List (OneLine.Need × Nat)))
  | [] => ([], .ok [])
  | comment :: rest =>
      match comment.text with
      | .error fault => ([], .error fault)
      | .ok text =>
          let readings := readNeeds style text
          let warnings := warningsOf comment.file comment.startRow readings.found
          match readings.fault with
          | some fault => (warnings, .error fault)
          | none =>
              let (later, others) := needLines style rest
              (warnings ++ later, others.map (needsOf readings.found :: ·))

def readLines (run : Run) : Run × Except Fault (List (List (OneLine.Need × Nat))) :=
  let (warnings, needs) := needLines run.settings.style run.comments
  ({ run with warnings := run.warnings ++ warnings }, needs)

end Run

def contentFile : String := "marked_content.json"

/-- The directory of a file is made if it does not exist. -/
def withDirectory (store : Store) (file : Path) : Store × Option Fault :=
  match store.contains file.parent with
  | .error fault => (store, some fault)
  | .ok true => (store, none)
  | .ok false => store.makeDirectories file.parent false

/-- Writes a value as JSON into a file, whose directory is made first. Whatever
happens then, the directory stays. -/
def storeJson (store : Store) (file : Path) (value : Except Fault Value) : Store × Option Fault :=
  match withDirectory store file with
  | (prepared, some fault) => (prepared, some fault)
  | (prepared, none) =>
      match value with
      | .error fault => (prepared, some fault)
      | .ok content =>
          match prepared.write file (Utf8.encode (Json.write content).toList) with
          | .error fault => (prepared, some fault)
          | .ok written => (written, none)

def Run.dump (store : Store) (directory : Path) (run : Run) : Store × Option Fault :=
  storeJson store (directory.child contentFile) (Entry.storedList run.content)

end Tracemark.Analysis
