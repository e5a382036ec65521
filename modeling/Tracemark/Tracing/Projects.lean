import Tracemark.Analysis.Settings

/-!
# Projects

A project has a section on the discovery of its files and one on their analysis.
From these sections settings are generated, which are kept beside the sections.
-/

set_option autoImplicit false

namespace Tracemark.Tracing

/-- A member of a project: as it was given, or generated settings. -/
inductive ProjectMember where
  | plain (value : Value)
  | discovery (settings : Discovery.Settings)
  | analysis (settings : Analysis.Settings)
deriving Repr

abbrev ProjectMembers := List (String × ProjectMember)

/-- A project, or what was given in the place of one. -/
inductive Project where
  | members (members : ProjectMembers)
  | other (value : Value)
deriving Repr

/-- Projects by name, or what was given in their place. -/
inductive Projects where
  | named (projects : List (String × Project))
  | other (value : Value)
deriving Repr

namespace ProjectMember

def value : ProjectMember → Value
  | .plain given => given
  | .discovery settings => .object settings.toMembers
  | .analysis settings => .object settings.toMembers

/-- Does a member count as true? Generated settings do. -/
def truthy : ProjectMember → Bool
  | .plain given => given.truthy
  | _ => true

end ProjectMember

namespace ProjectMembers

def get? (members : ProjectMembers) (name : String) : Option ProjectMember :=
  (members.find? fun member => member.1 == name).map (·.2)

/-- Gives a name a member: one that exists keeps its place, a new one comes last. -/
def put (name : String) (member : ProjectMember) : ProjectMembers → ProjectMembers
  | [] => [(name, member)]
  | current :: rest =>
      if current.1 == name then (name, member) :: rest else current :: put name member rest

/-- The section of a name; a section that is missing is nothing. -/
def sectionOf (members : ProjectMembers) (name : String) : Value :=
  match get? members name with
  | some member => member.value
  | none => .null

end ProjectMembers

namespace Project

def ofValue : Value → Project
  | .object given => .members (given.map fun (name, value) => (name, .plain value))
  | value => .other value

def value : Project → Value
  | .members given => .object (given.map fun (name, member) => (name, member.value))
  | .other given => given

/-- Generates the settings of a project from its sections. The result is the
project as far as it came, and the fault that stopped it. -/
def generate : Project → Project × Option Fault
  | .other given => (.other given, some .noSuchMember)
  | .members given =>
      match Discovery.Settings.ofSection (ProjectMembers.sectionOf given "source_discover") with
      | .error fault => (.members given, some fault)
      | .ok discovery =>
          let withDiscovery := ProjectMembers.put "source_discover_config" (.discovery discovery) given
          let (filled, analysis) :=
            Analysis.Settings.ofSection (ProjectMembers.sectionOf given "analyse") none
          let withSection :=
            match ProjectMembers.get? withDiscovery "analyse" with
            | some _ => ProjectMembers.put "analyse" (.plain filled) withDiscovery
            | none => withDiscovery
          match analysis with
          | .error fault => (.members withSection, some fault)
          | .ok settings =>
              let generated : Analysis.Settings :=
                { settings with wantNeeds := .bool true, language := discovery.language }
              (.members (ProjectMembers.put "analyse_config" (.analysis generated) withSection), none)

/-- The lines on the discovery of a project; only generated settings can be
checked. -/
def discoveryLines [Libraries] (members : ProjectMembers) : Except Fault (List String) :=
  match ProjectMembers.get? members "source_discover_config" with
  | none => .ok []
  | some (.discovery settings) => .ok settings.check
  | some member => if member.truthy then .error .noSuchMember else .ok []

def analysisLines [Libraries] (members : ProjectMembers) : Except Fault (List String) :=
  match ProjectMembers.get? members "analyse_config" with
  | none => .ok []
  | some (.analysis settings) => settings.check
  | some member => if member.truthy then .error .noSuchMember else .ok []

def patternLines (wantRemote : Bool) (members : ProjectMembers) : List String :=
  match ProjectMembers.get? members "remote_url_pattern" with
  | none =>
      if wantRemote then ["remote_url_pattern must be given, as set_remote_url is enabled"] else []
  | some (.plain (.text _)) => []
  | some _ => ["remote_url_pattern must be a string"]

/-- The lines on a project under its headline. Whether remote links are wanted is
asked for after the generated settings are checked. -/
def check [Libraries] (wantRemote : Except Fault Bool) (name : String) : Project → Except Fault
    (List String)
  | .other _ => .error .noSuchMember
  | .members given => do
      let discovery ← discoveryLines given
      let analysis ← analysisLines given
      let own := patternLines (← wantRemote) given
      let lines := analysis ++ discovery ++ own
      return if lines.isEmpty then []
        else s!"Project '{name}' has the following errors:" :: lines

end Project

namespace Projects

def ofValue : Value → Projects
  | .object given => .named (given.map fun (name, value) => (name, .ofValue value))
  | value => .other value

def value : Projects → Value
  | .named given => .object (given.map fun (name, project) => (name, project.value))
  | .other given => given

def generateAll : List (String × Project) → List (String × Project) × Option Fault
  | [] => ([], none)
  | (name, project) :: rest =>
      match project.generate with
      | (generated, some fault) => ((name, generated) :: rest, some fault)
      | (generated, none) =>
          let (others, fault) := generateAll rest
          ((name, generated) :: others, fault)

def generate : Projects → Projects × Option Fault
  | .named given =>
      let (generated, fault) := generateAll given
      (.named generated, fault)
  | .other given => (.other given, some .noSuchMember)

def asNamed : Projects → Except Fault (List (String × Project))
  | .named given => .ok given
  | .other _ => .error .noSuchMember

def check [Libraries] (wantRemote : Except Fault Bool) (projects : Projects) : Except Fault
    (List String) := do
  let reports ← (← projects.asNamed).mapM fun (name, project) => project.check wantRemote name
  return Report.arrange reports.flatten

def schema : List Schema.Keyword :=
  [.types [.object],
    .otherProperties [] [
      .types [.object],
      .onlyProperties
        ["source_discover", "analyse", "remote_url_pattern", "source_discover_config",
          "analyse_config"]]]

end Projects

end Tracemark.Tracing
