import Tracemark.Language
import Tracemark.Path
import Tracemark.Report
import Tracemark.Schema.Best
import Tracemark.Value.Items

/-!
# Settings of the discovery of source files
-/

set_option autoImplicit false

namespace Tracemark

/-- A setting for a path. A text is read as a path; what is no text is kept. -/
inductive Place where
  | path (location : Path)
  | other (value : Value)
deriving Repr

namespace Place

def ofValue : Value → Place
  | .text characters => .path (.ofText characters)
  | value => .other value

def value : Place → Value
  | .path location => .text location.text
  | .other value => value

/-- The path of a place, where nothing else will do. -/
def asPath : Place → Except Fault Path
  | .path location => .ok location
  | .other _ => .error .noSuchMember

end Place

namespace Schema

def fieldReport [Libraries] (field : String) (schema : List Keyword) (value : Value)
    : Option String :=
  (best? schema value).map fun violation =>
    s!"Schema validation error in field '{field}': {violation.message}"

def texts : List Keyword :=
  [.types [.array], .items [.types [.string]]]

def fieldReports [Libraries] (fields : List (String × List Keyword × Value)) : List String :=
  Report.arrange (fields.filterMap fun (field, schema, value) => fieldReport field schema value)

end Schema

/-- A record built from settings may have only members of these names. -/
def refuseUnknown (record : String) (names : List String) (members : Members) :
    Except Mismatch Unit :=
  match members.find? fun member => !names.contains member.1 with
  | some unknown => .error (.unknownMember record unknown.1)
  | none => .ok ()

namespace Discovery

/-- Where source files are looked for, which glob patterns are left out or taken
in, whether ignore files are respected and links followed, and the language. -/
structure Settings where
  directory : Place := .path Path.here
  excluded : Value := .list []
  included : Value := .list []
  gitignore : Value := .bool true
  followLinks : Value := .bool false
  language : Value := .text "cpp"
deriving Repr

namespace Settings

def memberNames : List String :=
  ["src_dir", "exclude", "include", "gitignore", "follow_links", "comment_type"]

def ofMembers (members : Members) : Except Fault Settings := do
  match refuseUnknown "SourceDiscoverConfig" memberNames members with
  | .error cause => throw (.mismatch cause)
  | .ok () =>
      let standard : Settings := {}
      let part (name : String) (fallback : Value) : Value := (members.get? name).getD fallback
      return {
        directory := ((members.get? "src_dir").map Place.ofValue).getD standard.directory
        excluded := part "exclude" standard.excluded
        included := part "include" standard.included
        gitignore := part "gitignore" standard.gitignore
        followLinks := part "follow_links" standard.followLinks
        language := part "comment_type" standard.language }

/-- The settings that a section describes; a section that holds nothing gives the
standard settings. -/
def ofSection (content : Value) : Except Fault Settings :=
  if content.truthy then do ofMembers (← content.membersOf) else .ok {}

def toMembers (settings : Settings) : Members :=
  [("src_dir", settings.directory.value), ("exclude", settings.excluded),
    ("include", settings.included), ("gitignore", settings.gitignore),
    ("follow_links", settings.followLinks), ("comment_type", settings.language)]

def schemas : List (String × List Schema.Keyword) :=
  [("src_dir", [.types [.string]]), ("exclude", Schema.texts), ("include", Schema.texts),
    ("gitignore", [.types [.boolean]]), ("follow_links", [.types [.boolean]]),
    ("comment_type", [.types [.string], .oneOfTexts (Language.all.map Language.name)])]

def check [Libraries] (settings : Settings) : List String :=
  Schema.fieldReports ((schemas.zip settings.toMembers).map fun ((name, schema), (_, value)) =>
    (name, schema, value))

end Settings

end Discovery

end Tracemark
