import Tracemark.OneLine.Check

/-!
# Settings of an analysis

What is looked for in comments, where the source files are, and which checks
these settings have to pass.
-/

set_option autoImplicit false

namespace Tracemark

structure Reference.Settings where
  markers : Value := .list [.text "@need-ids:"]
deriving Repr

namespace Reference.Settings

def ofSection (content : Value) : Except Fault Reference.Settings :=
  if !content.truthy then .ok {}
  else
    match content with
    | .object members =>
        match refuseUnknown "NeedIdRefsConfig" ["markers"] members with
        | .error cause => .error (.invalidStyle cause)
        | .ok () => .ok ⟨(Members.get? members "markers").getD ({} : Reference.Settings).markers⟩
    | value =>
        .error (.invalidStyle (.notMapping "sphinx_codelinks.config.NeedIdRefsConfig" value.kindName))

def toMembers (settings : Reference.Settings) : Members :=
  [("markers", settings.markers)]

def check [Libraries] (settings : Reference.Settings) : List String :=
  Schema.fieldReports [("markers", Schema.texts, settings.markers)]

end Reference.Settings

/-- Settings on marked blocks: the texts at which a block starts and ends. -/
structure Block.Settings where
  startSequence : Value := .text "@rst"
  endSequence : Value := .text "@endrst"
deriving Repr

namespace Block.Settings

def ofSection (content : Value) : Except Fault Block.Settings :=
  if !content.truthy then .ok {}
  else
    match content with
    | .object members =>
        match refuseUnknown "MarkedRstConfig" ["start_sequence", "end_sequence"] members with
        | .error cause => .error (.invalidStyle cause)
        | .ok () =>
            let standard : Block.Settings := {}
            .ok {
              startSequence := (Members.get? members "start_sequence").getD standard.startSequence
              endSequence := (Members.get? members "end_sequence").getD standard.endSequence }
    | value =>
        .error (.invalidStyle (.notMapping "sphinx_codelinks.config.MarkedRstConfig" value.kindName))

def toMembers (settings : Block.Settings) : Members :=
  [("start_sequence", settings.startSequence), ("end_sequence", settings.endSequence)]

def checkSchema [Libraries] (settings : Block.Settings) : List String :=
  Schema.fieldReports
    [("start_sequence", [.types [.string]], settings.startSequence),
      ("end_sequence", [.types [.string]], settings.endSequence)]

def checkDistinct (settings : Block.Settings) : List String :=
  if settings.startSequence.same settings.endSequence then
    ["start_sequence and end_sequence cannot be the same."]
  else []

def check [Libraries] (settings : Block.Settings) : List String :=
  settings.checkSchema ++ settings.checkDistinct

end Block.Settings

namespace Analysis

inductive Sources where
  | paths (paths : List Path)
  | given (value : Value)
deriving Repr

namespace Sources

def value : Sources → Value
  | .paths files => .list (files.map fun file => .text file.text)
  | .given setting => setting

/-- The value that the schema is asked about: the items of a list count as texts. -/
def schemaValue : Sources → Value
  | .given (.list items) => .list (items.map fun item => .text item.shown)
  | sources => sources.value

/-- The paths of the source files, where each of them has to be a path. -/
def asPaths : Sources → Except Fault (List Path)
  | .paths files => .ok files
  | .given setting => do
      match ← setting.items with
      | [] => return []
      | _ => throw .noSuchMember

end Sources

structure Settings where
  sources : Sources := .paths []
  directory : Place := .path Path.here
  language : Value := .text "cpp"
  wantReferences : Value := .bool true
  wantNeeds : Value := .bool false
  wantBlocks : Value := .bool false
  repository : Place := .other .null
  references : Reference.Settings := {}
  blocks : Block.Settings := {}
  style : OneLine.Style := OneLine.Style.standard
deriving Repr

structure Discovered where
  paths : List Path
  directory : Place
  language : Value
deriving Repr

namespace Settings

def memberNames : List String :=
  ["src_files", "src_dir", "comment_type", "get_need_id_refs", "get_oneline_needs", "get_rst",
    "git_root", "need_id_refs_config", "marked_rst_config", "oneline_comment_style"]

/-- The members of a section that are not settings of their own. -/
def isSubsection (name : String) : Bool :=
  name == "online_comment_style" || name == "need_id_refs" || name == "marked_rst"

def withDiscovered (settings : Settings) : Option Discovered → Settings
  | none => settings
  | some found =>
      { settings with
        sources := .paths found.paths
        directory := found.directory
        language := found.language }

/-- The settings of the members of a section, given its parts on comments. -/
def ofMembers (members : Members) (style : OneLine.Style) (references : Reference.Settings)
    (blocks : Block.Settings) : Except Fault Settings := do
  match refuseUnknown "SourceAnalyseConfig" memberNames
      (members.filter fun member => !isSubsection member.1) with
  | .error cause => throw (.mismatch cause)
  | .ok () =>
      let standard : Settings := {}
      let part (name : String) (fallback : Value) : Value := (members.get? name).getD fallback
      return {
        sources := ((members.get? "src_files").map Sources.given).getD standard.sources
        directory := ((members.get? "src_dir").map Place.ofValue).getD standard.directory
        language := part "comment_type" standard.language
        wantReferences := part "get_need_id_refs" standard.wantReferences
        wantNeeds := part "get_oneline_needs" standard.wantNeeds
        wantBlocks := part "get_rst" standard.wantBlocks
        repository := ((members.get? "git_root").map Place.ofValue).getD standard.repository
        references := references
        blocks := blocks
        style := style }

/-- The settings that a section describes, and the section with the types of its
fields filled in. What a discovery found replaces what the section says on it. -/
def ofSection (content : Value) (found : Option Discovered) : Value × Except Fault Settings :=
  if !content.truthy then (content, .ok (withDiscovered {} found))
  else
    match content with
    | .object members =>
        let (styleSection, style) :=
          OneLine.Style.ofSettings ((Members.get? members "oneline_comment_style").getD .null)
        let filled :=
          if Members.has members "oneline_comment_style" then
            Members.put "oneline_comment_style" styleSection members
          else members
        let settings : Except Fault Settings := do
          let style ← style
          let references ← Reference.Settings.ofSection
            ((Members.get? members "need_id_refs").getD .null)
          let blocks ← Block.Settings.ofSection ((Members.get? members "marked_rst").getD .null)
          return withDiscovered (← ofMembers members style references blocks) found
        (.object filled, settings)
    | _ => (content, .error .noSuchMember)

def toMembers (settings : Settings) : Members :=
  [("src_files", settings.sources.value), ("src_dir", settings.directory.value),
    ("comment_type", settings.language), ("get_need_id_refs", settings.wantReferences),
    ("get_oneline_needs", settings.wantNeeds), ("get_rst", settings.wantBlocks),
    ("git_root", settings.repository.value),
    ("need_id_refs_config", .object settings.references.toMembers),
    ("marked_rst_config", .object settings.blocks.toMembers),
    ("oneline_comment_style", .object settings.style.toMembers)]

def checkSchema [Libraries] (settings : Settings) : List String :=
  Schema.fieldReports
    [("src_files", Schema.texts, settings.sources.schemaValue),
      ("src_dir", [.types [.string]], settings.directory.value),
      ("comment_type", [.types [.string]], settings.language),
      ("get_need_id_refs", [.types [.boolean]], settings.wantReferences),
      ("get_oneline_needs", [.types [.boolean]], settings.wantNeeds),
      ("get_rst", [.types [.boolean]], settings.wantBlocks),
      ("git_root", [.types [.string, .null]], settings.repository.value)]

/-- The markers that are already taken when they come; `taken` are those before
them, which a new marker joins. -/
def clashing : List Value → List Value → List Value
  | _, [] => []
  | taken, marker :: rest =>
      if marker.isAmong taken then marker :: clashing taken rest
      else clashing (marker :: taken) rest

def clashLines (taken candidates : List Value) : List String :=
  Report.arrange
    ((clashing taken candidates).map fun marker =>
      s!"Marker {marker.shown} is defined multiple times").eraseDups

/-- The report on markers that are used for two things. -/
def checkMarkers (settings : Settings) : Except Fault (List String) := do
  let taken ← OneLine.Style.asSet [settings.style.startSequence, settings.style.endSequence]
  let blocks ← OneLine.Style.asSet [settings.blocks.startSequence, settings.blocks.endSequence]
  let references ← OneLine.Style.asSet (← settings.references.markers.items)
  return clashLines taken (blocks ++ references)

/-- A part of the report under a headline. Headlines of later parts come before
those of earlier ones, and all headlines before the lines. -/
def addPart (headline : String) (lines : List String) (report : List String × List String) :
    List String × List String :=
  if lines.isEmpty then report else (headline :: report.1, report.2 ++ lines)

/-- The whole report on settings of an analysis. Parts that are not wanted are not
checked. -/
def check [Libraries] (settings : Settings) : Except Fault (List String) := do
  let report := ([], [])
  let report :=
    if settings.wantReferences.truthy then
      addPart "NeedIdRefs configuration errors:" settings.references.check report
    else report
  let styleLines ← if settings.wantNeeds.truthy then settings.style.check else .ok []
  let report := addPart "OneLineCommentStyle configuration errors:" styleLines report
  let report :=
    if settings.wantBlocks.truthy then
      addPart "MarkedRst configuration errors:" settings.blocks.check report
    else report
  let own := (← settings.checkMarkers) ++ settings.checkSchema
  let report := addPart "analyse configuration errors:" own report
  return Report.arrange (report.1 ++ report.2)

end Settings

end Analysis

end Tracemark
