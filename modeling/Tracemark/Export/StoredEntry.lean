import Tracemark.Discovery.Settings

/-!
# Stored entries

Marked content is stored as objects. Before a stored object is used, its members
are checked against their schemas and against what its type requires.
-/

set_option autoImplicit false

namespace Tracemark.Export

def needType : String := "need"

def referenceType : String := "need-id-refs"

def blockType : String := "rst"

/-- A stored object whose members have the expected names. Members that may be
missing are then nothing. -/
structure StoredEntry where
  filepath : Value
  remoteUrl : Value
  sourceMap : Value
  taggedScope : Value
  type : Value
  marker : Value
  needIds : Value
  need : Value
  rst : Value
deriving Repr

namespace StoredEntry

def requiredNames : List String :=
  ["filepath", "remote_url", "source_map", "tagged_scope", "type"]

def optionalNames : List String :=
  ["marker", "need_ids", "need", "rst"]

/-- The entry of an object. A member of another name is refused before members
that are missing. -/
def ofMembers (members : Members) : Except Mismatch StoredEntry := do
  refuseUnknown "MarkedContentSchema" (requiredNames ++ optionalNames) members
  let missing := requiredNames.filter fun name => !members.has name
  if missing.isEmpty then
    let part (name : String) : Value := (members.get? name).getD .null
    return {
      filepath := part "filepath"
      remoteUrl := part "remote_url"
      sourceMap := part "source_map"
      taggedScope := part "tagged_scope"
      type := part "type"
      marker := part "marker"
      needIds := part "need_ids"
      need := part "need"
      rst := part "rst" }
  else throw (.missingMembers "MarkedContentSchema" missing)

def positionSchema : List Schema.Keyword :=
  [.types [.object],
    .properties [("row", [.types [.integer]]), ("column", [.types [.integer]])],
    .required ["row", "column"]]

def sourceMapSchema : List Schema.Keyword :=
  [.types [.object],
    .properties [("start", positionSchema), ("end", positionSchema)],
    .required ["start", "end"],
    .onlyProperties ["start", "end"]]

def needSchema : List Schema.Keyword :=
  [.types [.object, .null],
    .properties [("title", [.types [.string]]), ("id", [.types [.string]])],
    .required ["title", "id"]]

def checkSchema [Libraries] (entry : StoredEntry) : List String :=
  Schema.fieldReports
    [("filepath", [.types [.string]], entry.filepath),
      ("remote_url", [.types [.string]], entry.remoteUrl),
      ("source_map", sourceMapSchema, entry.sourceMap),
      ("tagged_scope", [.types [.string, .null]], entry.taggedScope),
      ("type", [.types [.string], .oneOfTexts [needType, referenceType, blockType]], entry.type),
      ("marker", [.types [.string, .null]], entry.marker),
      ("need_ids", [.types [.array, .null], .items [.types [.string]]], entry.needIds),
      ("need", needSchema, entry.need),
      ("rst", [.types [.string, .null]], entry.rst)]

def hasType (entry : StoredEntry) (type : String) : Bool :=
  entry.type.same (.text type)

def checkRequired (entry : StoredEntry) : List String :=
  let missingIds := "Need id refs are required for marked content of type 'need_id_refs'"
  if entry.hasType needType && !entry.need.truthy then
    ["Need definition is required for marked content of type 'need'"]
  else if entry.hasType referenceType then
    (if entry.marker.truthy then []
      else ["Marker is required for marked content of type 'need_id_refs'"]) ++
    (if entry.needIds.truthy then [] else [missingIds])
  else if entry.hasType needType && !entry.needIds.truthy then [missingIds]
  else if entry.hasType blockType && !entry.rst.truthy then
    ["RST text is required for marked content of type 'rst'"]
  else []

def check [Libraries] (entry : StoredEntry) : List String :=
  Report.arrange (entry.checkSchema ++ entry.checkRequired)

end StoredEntry

end Tracemark.Export
