import Tracemark.Build.Basic
import Tracemark.Commands.Export
import Tracemark.Tracing.Analyses

/-!
# Set-up of source tracing in a build

Settings, fields and types are registered, the configuration is loaded and
checked, and the stylesheet of the pages is copied.
-/

set_option autoImplicit false

namespace Tracemark.Build

def needsExtension : String := "sphinx_needs"

def missingExtension (extensions : List String) : String :=
  let written (names : List String) : String := (Value.list (names.map Value.text)).written
  let loaded := written extensions.eraseDups
  let configured := written extensions
  "sphinx-codelinks requires sphinx-needs to be loaded as an extension.\n" ++
    "Please ensure 'sphinx_needs' is properly installed and added to your extensions list in conf.py:\n" ++
    "   extensions = ['sphinx_needs', 'sphinx_codelinks', ...]\n" ++
    s!"Currently loaded extensions: {loaded}\nConfigured extensions: {configured}"

/-- What has to be built again when a setting changes, and the kinds of its
values. -/
def settingTraits : List (String × List SettingKind) :=
  [("env", [.text, .nothing]), ("env", [.flag]), ("env", [.text]), ("env", [.flag]),
    ("env", [.text]), ("env", [.text]), ("env", []), ("html", [.flag]), ("html", [.flag])]

def settingRequests : List Request :=
  (Tracing.standardSettings.zip settingTraits).map fun ((name, standard), (rebuild, kinds)) =>
    .addSetting (Tracing.hostLabel ++ name) standard.value rebuild kinds

/-- The priority of a handler for which none is asked. -/
def usualPriority : Nat := 500

def handlerRequests : List Request :=
  [.connect "config-inited" .loadConfiguration 10,
    .connect "config-inited" .registerFields 11,
    .connect "config-inited" .registerTypes usualPriority,
    .connect "config-inited" .checkConfiguration usualPriority,
    .connect "env-before-read-docs" .prepare usualPriority,
    .connect "html-collect-pages" .collectPages usualPriority,
    .connect "html-page-context" .addStylesheet usualPriority,
    .connect "builder-inited" .copyStylesheet usualPriority,
    .connect "build-finished" .emitWarnings usualPriority,
    .connect "build-finished" .reportTiming usualPriority]

def setupRequests : List Request :=
  [.addNode, .addDirective "src-trace"] ++ settingRequests ++ handlerRequests

/-- Sets source tracing up. Without the extension for needs nothing is registered.
The result says that the work can be done in parallel. -/
def setup : Step Value := do
  let extensions := (← get).extensions
  if extensions.contains needsExtension then
    for wanted in setupRequests do
      Step.request wanted
  else
    Step.log { level := .error, message := missingExtension extensions }
    Step.log {
      level := .error
      message := "Failed to initialize sphinx-codelinks due to missing sphinx-needs dependency" }
  return .object [("version", .text "builtin"), ("parallel_read_safe", .bool true),
    ("parallel_write_safe", .bool true)]

/-- The section of a configuration file, or the reason why there is none. -/
def configurationSection [Libraries] (store : Store) (file : Path) : Except String Members :=
  match store.readText file with
  | .error fault => .error (Commands.fileFault file fault)
  | .ok text =>
      match Libraries.readToml text with
      | .error reason => .error reason
      | .ok value =>
          match value.index "codelinks" with
          | .error fault => .error fault.message
          | .ok (.object members) => .ok members
          | .ok _ => .error s!"data must be a dict in {file.text}"

/-- Takes over the settings of a section one by one. Projects get their generated
settings first; if that fails, the settings before them stay. -/
def takeSettings : Members → Step Unit
  | [] => return ()
  | (name, value) :: rest => do
      if (Tracing.standardSettings.get? name).isSome then
        let setting ←
          if name == "projects" then do
            let (generated, fault) := (Tracing.Projects.ofValue value).generate
            match fault with
            | some cause => throw cause
            | none => pure (Tracing.Setting.projects generated)
          else pure (.plain value)
        modify fun state =>
          { state with settings := state.settings.put (Tracing.hostLabel ++ name) setting }
      takeSettings rest

/-- Loads the configuration file, if one is set. A file that is missing or broken
is told in the log. -/
def loadConfiguration [Libraries] : Step Unit := do
  match (← Step.setting "config_from_toml").value with
  | .null => return ()
  | .text name =>
      let state ← get
      let store := state.session.store
      let file ←
        Step.ofExcept ((state.configurationDirectory.join (.ofText name)).resolve store.working)
      if ← Step.ofExcept (store.contains file) then
        match configurationSection store file with
        | .error reason =>
            Step.log {
              level := .warning
              message := s!"Failed to load source tracing configuration from {file.text}: {reason}" }
        | .ok members => takeSettings members
      else
        Step.log {
          level := .warning
          message := s!"Source tracing configuration file {file.text} does not exist. " ++
            "Using configuration from conf.py." }
  | _ => throw (.mismatch .unfit)

def registerField (name : Value) (description : String) : Step Unit := do
  let schema : Value := .object [("type", .text "string")]
  match (← get).fieldInterface with
  | .field => Step.requestNeeds (.field name description schema)
  | .optionWithSchema => Step.requestNeeds (.option name schema)
  | .option => Step.requestNeeds (.option name .null)

def registerFields : Step Unit := do
  registerField (.text "project") "Source-tracing project"
  registerField (.text "file") "Source file"
  registerField (.text "directory") "Source directory"
  if ← Step.isSet "set_local_url" then
    registerField (← Step.setting "local_url_field").value "Local source URL"
  if ← Step.isSet "set_remote_url" then
    registerField (← Step.setting "remote_url_field").value "Remote source URL"

def registerTypes : Step Unit :=
  Step.requestNeeds (.type "srctrace" "Src-Trace" "ST_" "#ffffff" "node")

def checkConfiguration [Libraries] : Step Unit := do
  let report ← Step.ofExcept (Tracing.Settings.check { host := some (← get).settings })
  if report.isEmpty then return ()
  else throw (.refused (Commands.joined report))

def stylesheetText : String :=
  ".highlight \x7b\n    position:relative\n\x7d\n\n" ++
    ".viewcode-back\x7b\n    position: absolute;\n    right:0;\n\x7d\n"

def stylesheetName : String := "ub_sct.css"

def copyStylesheet : Step Unit := do
  let output := (← get).output
  let directory := (output.child "_static").child "source_tracing"
  Step.inSession (Action.changeStep fun store => store.makeDirectories directory true)
  Step.inSession (Action.changeStore fun store =>
    store.write (directory.child stylesheetName) (Utf8.encode stylesheetText.toList))

/-- Prepares a build: time is measured if that is set, and the log of filters of an
earlier build is removed if filters are logged. -/
def prepare : Step Unit := do
  if ← Step.isSet "debug_measurement" then
    modify fun state => { state with measuring := true }
  if ← Step.isSet "debug_filters" then
    let state ← get
    match state.session.store.remove (state.output.child "debug_filters.jsonl") with
    | .ok store => set { state with session := { state.session with store := store } }
    | .error .missingFile => return ()
    | .error fault => throw fault

/-- The directory in which a build keeps warnings, below the output directory. -/
def cacheName : String := "src_trace_cache"

def warningRecord (warning : Analysis.StoredWarning) : Log.BuildRecord :=
  { level := .warning
    message := s!"{warning.file.shown}:{warning.line.shown}: {warning.message.shown}"
    type := warning.type
    subtype := warning.subtype }

def emitWarnings : Step Unit := do
  let state ← get
  let loaded ←
    Step.ofExcept (Tracing.loadWarnings state.session.store (state.output.child cacheName))
  for warning in loaded.getD [] do
    Step.log (warningRecord warning)

def addStylesheet (page template : String) : Step Unit := do
  let state ← get
  let names ← Step.ofExcept (state.backLinks.mapM fun (file, _) => pageName state.output file)
  if names.contains page && template == pageTemplate then
    Step.request (.addStylesheet s!"_static/source_tracing/{stylesheetName}")

/-- The pages of all source files with links. After that there are no links any
more. -/
def collectPages : Step (List Page) := do
  let state ← get
  let pages ← Step.ofExcept (state.backLinks.mapM fun (file, links) =>
    pageOf state.session.store state.output file links)
  modify fun current => { current with backLinks := [] }
  return pages

end Tracemark.Build
