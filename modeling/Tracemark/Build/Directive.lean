import Tracemark.Build.Basic
import Tracemark.Build.Link
import Tracemark.Discovery.Basic
import Tracemark.Tracing.Analyses
import Tracemark.Value.Filled

/-!
# The directive for source tracing

The directive puts the needs of a project's source files into a document. The
files are analysed, each need is asked of the extension for needs, and with local
links the files are copied into the output directory.
-/

set_option autoImplicit false

namespace Tracemark.Build

/-- Options have to name a project, and a file and a directory exclude each other. -/
def checkOptions (options : Value) : Except Fault Unit := do
  if !(← options.holds "project") then throw .noProject
  if (← options.holds "file") && (← options.holds "directory") then throw .fileAndDirectory

/-- The members of a configured project. Only a text can be the name of one. -/
def projectMembers (setting : Tracing.Setting) (project : Value) :
    Except Fault Tracing.ProjectMembers :=
  match setting.asProjects with
  | .named projects =>
      match projects.find? fun entry => project.same (.text entry.1) with
      | none =>
          if project.isScalar then .error (.missingKey project)
          else .error (.mismatch (.notHashable project.kindName))
      | some (_, .members members) => .ok members
      | some (_, .other _) => .error (.mismatch .unfit)
  | .other _ => .error (.mismatch .unfit)

def projectMember (members : Tracing.ProjectMembers) (name : String) :
    Except Fault Tracing.ProjectMember :=
  match members.get? name with
  | none => .error (.missingKey (.text name))
  | some member => .ok member

def discoverySettings : Tracing.ProjectMember → Except Fault Discovery.Settings
  | .discovery settings => .ok settings
  | _ => .error .noSuchMember

def analysisSettings : Tracing.ProjectMember → Except Fault Analysis.Settings
  | .analysis settings => .ok settings
  | _ => .error .noSuchMember

/-- The directory that the paths of settings are seen from: that of the
configuration file if there is one. -/
def settingsDirectory : Step Path := do
  let directory := (← get).configurationDirectory
  match (← Step.setting "config_from_toml").value with
  | .text name => return if name.isEmpty then directory else directory.join (Path.ofText name).parent
  | value => if value.truthy then throw (.mismatch .unfit) else return directory

def sourceDirectory (working base : Path) (settings : Discovery.Settings) : Except Fault Path :=
  match settings.directory with
  | .path location => (base.join location).resolve working
  | .other _ => .error (.mismatch .unfit)

def optionPath (base : Path) : Value → Except Fault Path
  | .text name => .ok (base.join (.ofText name))
  | _ => .error (.mismatch .unfit)

/-- The source files of a directive: the file that is named, or those that are
discovered in the directory that is named. Without either it is the source
directory. -/
def sourceFiles (store : Store) (listing : Discovery.Listing) (options : Members) (source : Path)
    (settings : Discovery.Settings) : Except Fault (List Path) := do
  match options.get? "file" with
  | some file => return [← (← optionPath source file).resolve store.working]
  | none =>
      let directory ←
        match options.get? "directory" with
        | none => pure source
        | some .null => pure source
        | some directory => optionPath source directory
      return (← (Discovery.run store listing { settings with directory := .path directory }).2).paths

def repositoryPlace (working base : Path) : Place → Except Fault Place
  | .path location => return .path (← (base.join location).resolve working)
  | .other value => if value.truthy then .error (.mismatch .unfit) else .ok (.other value)

def addStringLink (field : Value) (link : StringLink) : Step Unit := do
  let key ← Step.ofExcept field.asKey
  modify fun state => { state with stringLinks := Table.put key link state.stringLinks }

def localStringLink (output : Path) (field : Value) : StringLink :=
  { regex := "^(?P<value>.+?)\\.[^\\.]+#L(?P<lineno>\\d+)"
    url := "\x7b\x7bvalue\x7d\x7d.html#L-\x7b\x7blineno\x7d\x7d"
    name := "\x7b\x7bvalue | replace('" ++ output.text ++ "/', '')\x7d\x7d#L\x7b\x7blineno\x7d\x7d"
    fields := [field] }

def remoteStringLink (url : String) (field : Value) : StringLink :=
  { regex := "^(?P<value>.+)#L(?P<lineno>.*)?"
    url := url
    name := "\x7b\x7bvalue\x7d\x7d#L\x7b\x7blineno\x7d\x7d"
    fields := [field] }

/-- What the pattern of remote links is filled with. -/
def remoteValues (revision : Option String) : Members :=
  [("commit", Analysis.optionalText revision), ("path", .text "\x7b\x7bvalue\x7d\x7d"),
    ("line", .text "\x7b\x7blineno\x7d\x7d")]

def remoteAddress [Libraries] (pattern : Value) (revision : Option String) : Except Fault String :=
  match pattern with
  | .text template => Value.fill (remoteValues revision) template
  | _ => .error .noSuchMember

/-- What the needs of a directive have in common. A field that is nothing gets no
link. -/
structure Rendering where
  document : String
  line : Value
  source : Path
  target : Path
  output : Path
  localField : Value
  remoteField : Value
  remoteSource : Option Path
deriving Repr

def Rendering.targetOf (rendering : Rendering) (file : Path) : Except Fault Path := do
  return rendering.target.join (← (rendering.source.join file).relativeTo rendering.source)

/-- Copies a source file. Line ends become line feeds. -/
def copyFile (file target : Path) : Step Unit := do
  Step.inSession (Action.changeStep fun store => store.makeDirectories target.parent true)
  let text ← Step.ofExcept ((← get).session.store.readText file)
  Step.inSession (Action.changeStore fun store =>
    store.write target (Utf8.encode (Text.unifyNewlines text)))

/-- The names that a need's own fields and its links cannot have. -/
def reservedNames : List String :=
  ["app", "state", "docname", "lineno", "need_type", "title"]

def putLink (field : Value) (link : Option String) (fields : Table Value) :
    Except Fault (Table Value) :=
  match link with
  | none => .ok fields
  | some address => return Table.put (← field.asKey) (.text address) fields

/-- The fields of a request. Their names have to be texts, other than those that a
request has of its own. -/
def requestMember (field : Key × Value) : Except Fault (String × Value) :=
  match field with
  | (.text name, value) =>
      if reservedNames.contains name then .error (.mismatch .unfit) else .ok (name, value)
  | _ => .error (.mismatch .unfit)

def requiredField (fields : Table Value) (name : String) : Except Fault Value :=
  match fields.get? name with
  | some value => .ok value
  | none => .error (.missingKey (.text name))

def needRequest (rendering : Rendering) (fields : Table Value) (localLink remoteLink : Option String) :
    Except Fault NeedsRequest := do
  let own := (fields.erase "title").erase "type"
  let type ← requiredField fields "type"
  let title ← requiredField fields "title"
  let linked ← putLink rendering.remoteField remoteLink
    (← putLink rendering.localField localLink own)
  return .need rendering.document rendering.line type.shown title.shown
    (← linked.mapM requestMember)

/-- The local link of a need and the link back to it, after the file was copied. -/
def localLinks (rendering : Rendering) (entry : Analysis.Entry) (target : Path) :
    Step (Option (String × Path)) := do
  if rendering.localField.truthy then
    copyFile (rendering.source.join entry.file) target
    let (toFile, toPage) ←
      Step.ofExcept (relativePaths (.ofText rendering.document) target rendering.output)
    return some (linkName (linesPart entry.row entry.row) toFile, toPage)
  else return none

def remoteLink (rendering : Rendering) (entry : Analysis.Entry) (target : Path) :
    Except Fault (Option String) := do
  if rendering.remoteField.truthy then
    return some (← remoteLinkName (linesPart entry.row entry.row) target
      ⟨rendering.remoteSource, some rendering.target⟩)
  else return none

/-- Renders a need. The result is its number among the needs that were asked for,
or nothing for a need without fields. -/
def renderNeed (rendering : Rendering) (entry : Analysis.Entry) : Step (Option Nat) := do
  let target ← Step.ofExcept (rendering.targetOf entry.file)
  let links ← localLinks rendering entry target
  let remote ← Step.ofExcept (remoteLink rendering entry target)
  match entry.payload with
  | .need [] => return none
  | .need fields =>
      Step.requestNeeds (← Step.ofExcept (needRequest rendering fields (links.map (·.1)) remote))
      let number := (← get).needs.length
      match links with
      | some (_, toPage) =>
          let id ← Step.ofExcept (requiredField fields "id")
          modify fun state =>
            { state with
              backLinks := state.backLinks.put target.text (entry.row + 1)
                s!"{toPage.text}#{id.shown}" }
      | none => pure ()
      return some number
  | _ => return none

def renderNeeds (rendering : Rendering) : List Analysis.Entry → Step (List Nat)
  | [] => return []
  | entry :: rest => do
      let first ← renderNeed rendering entry
      let others ← renderNeeds rendering rest
      return first.toList ++ others

/-- The field for local links, if they are wanted. Its texts become links. -/
def prepareLocal (output : Path) : Step Value := do
  if ← Step.isSet "set_local_url" then
    let field := (← Step.setting "local_url_field").value
    addStringLink field (localStringLink output field)
    return field
  else return .null

/-- The field for remote links, if they are wanted, and the directory that the
source directory is on the remote side. -/
def prepareRemote [Libraries] (members : Tracing.ProjectMembers) (source : Path)
    (run : Analysis.Run) :
    Step (Value × Option Path) := do
  if ← Step.isSet "set_remote_url" then
    let pattern ← Step.ofExcept (projectMember members "remote_url_pattern")
    if pattern.truthy then
      let field := (← Step.setting "remote_url_field").value
      let remote ←
        match run.repository with
        | some root => Step.ofExcept (source.relativeTo root)
        | none => pure source
      let address ← Step.ofExcept (remoteAddress pattern.value run.revision)
      addStringLink field (remoteStringLink address field)
      return (field, some remote)
    else return (.null, none)
  else return (.null, none)

/-- What a directive finds before it renders: the members of the project, its source
directory, and the run over its source files. -/
structure Traced where
  members : Tracing.ProjectMembers
  source : Path
  run : Analysis.Run
deriving Repr

/-- Analyses the source files that the options name. The document depends on these
files. -/
def traceProject [Libraries] (options : Value) : Step Traced := do
  Step.ofExcept (checkOptions options)
  let project ← Step.ofExcept (options.index "project")
  let named ← Step.ofExcept options.membersOf
  let members ← Step.ofExcept (projectMembers (← Step.setting "projects") project)
  let discoveryMember ← Step.ofExcept (projectMember members "source_discover_config")
  let base ← settingsDirectory
  let discovery ← Step.ofExcept (discoverySettings discoveryMember)
  let state ← get
  let store := state.session.store
  let source ← Step.ofExcept (sourceDirectory store.working base discovery)
  let files ← Step.ofExcept (sourceFiles store state.listing named source discovery)
  modify fun current =>
    { current with
      dependencies := current.dependencies ++
        files.map fun file => (file.collapsed store.working).text }
  let analysisMember ← Step.ofExcept (projectMember members "analyse_config")
  let analysis ← Step.ofExcept (analysisSettings analysisMember)
  let repository ← Step.ofExcept (repositoryPlace store.working base analysis.repository)
  let run ← Step.inSession (Tracing.Analyses.runProject project.shown
    { analysis with
      directory := .path source
      sources := .paths files
      repository := repository })
  return ⟨members, source, run⟩

/-- What the needs of a traced project have in common. Their files are copied to a
directory with the name of the source directory. -/
def prepareRendering [Libraries] (document : String) (line : Value) (traced : Traced)
    : Step Rendering := do
  let output := (← get).output
  let localField ← prepareLocal output
  let (remoteField, remoteSource) ← prepareRemote traced.members traced.source traced.run
  return {
    document := document
    line := line
    source := traced.source
    target := output.join (.ofText traced.source.name)
    output := output
    localField := localField
    remoteField := remoteField
    remoteSource := remoteSource }

/-- Runs the directive in a document, at a line. The result has the numbers of the
needs that were asked for. -/
def directive [Libraries] (options : Value) (document : String) (line : Value) : Step
    (List Nat) := do
  let traced ← traceProject options
  let rendering ← prepareRendering document line traced
  let numbers ← renderNeeds rendering traced.run.needs
  Step.requestNeeds (.document document)
  return numbers

end Tracemark.Build
