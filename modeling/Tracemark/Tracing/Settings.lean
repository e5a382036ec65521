import Tracemark.Tracing.Projects

/-!
# Settings of tracing

The settings at the top: which links are made, where output goes, and the
projects. They can be attached to the settings of a documentation build, in which
case they are read from there.
-/

set_option autoImplicit false

namespace Tracemark.Tracing

inductive Setting where
  | plain (value : Value)
  | path (location : Path)
  | projects (table : Projects)
deriving Repr

namespace Setting

def value : Setting → Value
  | .plain given => given
  | .path location => .text location.text
  | .projects table => table.value

def ofValue (name : String) (value : Value) : Setting :=
  if name == "projects" then .projects (.ofValue value) else .plain value

/-- The setting of a name in settings of one's own, where the output directory is a
path. -/
def ofOwnValue (name : String) (value : Value) : Setting :=
  match name, value with
  | "outdir", .text characters => .path (.ofText characters)
  | _, _ => ofValue name value

/-- A setting as a path that something is put below. -/
def asPath : Setting → Except Fault Path
  | .path location => .ok location
  | _ => .error (.mismatch .unfit)

def asProjects : Setting → Projects
  | .projects table => table
  | setting => .other setting.value

end Setting

abbrev SettingTable := List (String × Setting)

namespace SettingTable

def get? (table : SettingTable) (name : String) : Option Setting :=
  (table.find? fun entry => entry.1 == name).map (·.2)

/-- Gives a name a setting: one that exists keeps its place, a new one comes last. -/
def put (name : String) (setting : Setting) : SettingTable → SettingTable
  | [] => [(name, setting)]
  | current :: rest =>
      if current.1 == name then (name, setting) :: rest else current :: put name setting rest

end SettingTable

def standardSettings : SettingTable :=
  [("config_from_toml", .plain .null), ("set_local_url", .plain (.bool false)),
    ("local_url_field", .plain (.text "local-url")), ("set_remote_url", .plain (.bool false)),
    ("remote_url_field", .plain (.text "remote-url")), ("outdir", .path ⟨.relative, ["output"]⟩),
    ("projects", .projects (.named [])), ("debug_measurement", .plain (.bool false)),
    ("debug_filters", .plain (.bool false))]

/-- The part before the names of settings that stand among those of a documentation
build. -/
def hostLabel : String := "src_trace_"

/-- Settings of tracing: one's own, and those of the documentation build that they
are attached to. -/
structure Settings where
  own : SettingTable := standardSettings
  host : Option SettingTable := none
deriving Repr

namespace Settings

def ofMembers (members : Members) : Except Fault Settings := do
  match refuseUnknown "CodeLinksConfig" (standardSettings.map (·.1)) members with
  | .error cause => throw (.mismatch cause)
  | .ok () =>
      return { own := members.foldl (fun table (name, value) =>
        table.put name (.ofOwnValue name value)) standardSettings }

/-- The setting of a name: from the documentation build if there is one. -/
def get (settings : Settings) (name : String) : Except Fault Setting :=
  let found :=
    match settings.host with
    | some table => table.get? (hostLabel ++ name)
    | none => settings.own.get? name
  match found with
  | some setting => .ok setting
  | none => .error .noSuchMember

/-- Sets a setting, also in the documentation build if there is one. -/
def set (settings : Settings) (name : String) (value : Value) : Settings :=
  { own := settings.own.put name (.ofOwnValue name value)
    host := settings.host.map fun table =>
      SettingTable.put (hostLabel ++ name) (.ofValue name value) table }

def putProjects (settings : Settings) (projects : Projects) : Settings :=
  match settings.host with
  | some table =>
      { settings with host := some (SettingTable.put (hostLabel ++ "projects") (.projects projects) table) }
  | none => { settings with own := settings.own.put "projects" (.projects projects) }

def generate (settings : Settings) : Settings × Except Fault Projects :=
  match settings.get "projects" with
  | .error fault => (settings, .error fault)
  | .ok setting =>
      let (generated, fault) := setting.asProjects.generate
      (settings.putProjects generated,
        match fault with
        | some cause => .error cause
        | none => .ok generated)

/-- The settings of a documentation build: those given, and unless `bare` the
standard ones for names that are not given. -/
def hostTable (values : Members) (bare : Bool) : SettingTable :=
  let base : SettingTable :=
    if bare then [] else standardSettings.map fun (name, setting) => (hostLabel ++ name, setting)
  values.foldl (fun table (name, value) =>
    let setting : Setting :=
      if name == hostLabel ++ "projects" then .projects (.ofValue value) else .plain value
    table.put name setting) base

/-- Attaches the settings to a documentation build, whose projects are generated
first. -/
def attach (settings : Settings) (values : Members) (bare : Bool) : Except Fault Settings :=
  let table := hostTable values bare
  match table.get? (hostLabel ++ "projects") with
  | none => .ok { settings with host := some table }
  | some setting =>
      let (generated, fault) := setting.asProjects.generate
      match fault with
      | some cause => .error cause
      | none =>
          .ok { settings with host := some (table.put (hostLabel ++ "projects") (.projects generated)) }

def schemas : List (String × List Schema.Keyword) :=
  [("config_from_toml", [.types [.string, .null]]), ("set_local_url", [.types [.boolean]]),
    ("local_url_field", [.types [.string]]), ("set_remote_url", [.types [.boolean]]),
    ("remote_url_field", [.types [.string]]), ("outdir", [.types [.string]]),
    ("projects", Projects.schema)]

def checkSchema [Libraries] (settings : Settings) : Except Fault (List String) := do
  let lines ← schemas.mapM fun (name, schema) => do
    let setting ← settings.get name
    return (Schema.best? schema setting.value).map fun violation =>
      s!"Schema validation error in filed '{name}': {violation.message}"
  return Report.arrange (lines.filterMap id)

def checkProjects [Libraries] (settings : Settings) : Except Fault (List String) := do
  let projects := (← settings.get "projects").asProjects
  projects.check ((settings.get "set_remote_url").map fun setting => setting.value.truthy)

def check [Libraries] (settings : Settings) : Except Fault (List String) := do
  let schema ← settings.checkSchema
  let projects ← settings.checkProjects
  return Report.arrange (schema ++ projects)

end Settings

end Tracemark.Tracing
