import Tracemark.Commands.Analyse
import Tracemark.Commands.Discover
import Tracemark.Commands.Export

/-!
# Command lines

A command line names a command, one operand and options. An option has a long and
possibly a short name; it stands alone or takes the next argument as its value.
-/

set_option autoImplicit false

namespace Tracemark.Commands

inductive Request where
  | analyse (request : AnalyseRequest)
  | discover (settings : Discovery.Settings)
  | write (content output : Path) (urlField : String) (title : Option String)
deriving Repr

/-- The options of a command: those that stand alone and those with a value. The
names of one option stand together, and the first of them is its own. -/
structure Options where
  flags : List (List String) := []
  valued : List (List String) := []
deriving Repr

/-- The arguments of a command: operands, the options that stand alone and those
with values, each in order. -/
structure Arguments where
  operands : List String := []
  flags : List String := []
  values : List (String × String) := []
deriving Repr

namespace Arguments

def option? (options : List (List String)) (name : String) : Option String :=
  (options.find? fun names => names.contains name).bind List.head?

/-- Reads arguments in order. Nothing comes of an unknown option or of one without
its value. -/
def read? (options : Options) : List String → Option Arguments
  | [] => some {}
  | [last] =>
      match option? options.flags last with
      | some name => some { flags := [name] }
      | none => if last.startsWith "-" then none else some { operands := [last] }
  | first :: second :: rest =>
      match option? options.valued first, option? options.flags first with
      | some name, _ => do
          let later ← read? options rest
          return { later with values := (name, second) :: later.values }
      | none, some name => do
          let later ← read? options (second :: rest)
          return { later with flags := name :: later.flags }
      | none, none =>
          if first.startsWith "-" then none
          else do
            let later ← read? options (second :: rest)
            return { later with operands := first :: later.operands }

def operand? (arguments : Arguments) : Option String :=
  match arguments.operands with
  | [operand] => some operand
  | _ => none

def valuesOf (arguments : Arguments) (name : String) : List String :=
  (arguments.values.filter fun value => value.1 == name).map (·.2)

/-- The value of an option; of several the last counts. -/
def value? (arguments : Arguments) (name : String) : Option String :=
  (arguments.valuesOf name).getLast?

/-- Is an option switched on? Of its two names the last one given counts. -/
def switch (arguments : Arguments) (on off : String) (standard : Bool) : Bool :=
  match (arguments.flags.filter fun flag => flag == on || flag == off).getLast? with
  | some flag => flag == on
  | none => standard

def verbosity (arguments : Arguments) : Log.Verbosity :=
  ⟨arguments.flags.contains "--verbose", arguments.flags.contains "--quiet"⟩

end Arguments

namespace Request

def consoleFlags : List (List String) :=
  [["--verbose", "-v"], ["--quiet", "-q"]]

def analyseOptions : Options where
  flags := consoleFlags
  valued := [["--project", "-p"], ["--outdir", "-o"]]

def discoverOptions : Options where
  flags := [["--gitignore"], ["--no-gitignore"], ["--follow-links"], ["--no-follow-links"]]
  valued := [["--excludes", "-e"], ["--includes", "-i"], ["--comment-type", "-c"]]

def exportOptions : Options where
  flags := consoleFlags
  valued := [["--outpath", "-o"], ["--remote-url-field", "-r"], ["--title", "-t"]]

def analyse? (line : List String) : Option Request := do
  let arguments ← Arguments.read? analyseOptions line
  return .analyse {
    configuration := .ofText (← arguments.operand?)
    projects := arguments.valuesOf "--project"
    directory := (arguments.value? "--outdir").map Path.ofText
    verbosity := arguments.verbosity }

def discover? (working : Path) (line : List String) : Option Request := do
  let arguments ← Arguments.read? discoverOptions line
  let texts (name : String) : Value := .list ((arguments.valuesOf name).map .text)
  let standard : Discovery.Settings := {}
  return .discover {
    directory := .path ((Path.ofText (← arguments.operand?)).collapsed working)
    excluded := texts "--excludes"
    included := texts "--includes"
    gitignore := .bool (arguments.switch "--gitignore" "--no-gitignore" true)
    followLinks := .bool (arguments.switch "--follow-links" "--no-follow-links" false)
    language := ((arguments.value? "--comment-type").map .text).getD standard.language }

def export? (working : Path) (line : List String) : Option Request := do
  let arguments ← Arguments.read? exportOptions line
  return .write ((Path.ofText (← arguments.operand?)).collapsed working)
    (.ofText ((arguments.value? "--outpath").getD "needextend.rst"))
    ((arguments.value? "--remote-url-field").getD "remote_url") (arguments.value? "--title")

def ofLine? (working : Path) : List String → Option Request
  | "analyse" :: rest => analyse? rest
  | "discover" :: rest => discover? working rest
  | "write" :: "rst" :: rest => export? working rest
  | _ => none

def usage : String :=
  joined [
    "Usage:",
    "  analyse CONFIG [-p PROJECT]... [-o OUTDIR] [-v] [-q]",
    "  discover SRC_DIR [-e GLOB]... [-i GLOB]... [--no-gitignore] [--follow-links] [-c COMMENT_TYPE]",
    "  write rst JSONPATH [-o OUTPATH] [-r REMOTE_URL_FIELD] [-t TITLE] [-v] [-q]"]

def run [Libraries] (session : Session) (listing : Discovery.Listing) : Request → Outcome
  | .analyse request => Commands.analyse session listing request
  | .discover settings => (Commands.discover session.store listing settings).2
  | .write content output urlField title =>
      exportDirectives session.store content output urlField title

end Request

end Tracemark.Commands
