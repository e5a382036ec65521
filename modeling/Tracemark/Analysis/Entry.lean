import Tracemark.OneLine.Reading
import Tracemark.Path
import Tracemark.Syntax.Tree

/-!
# Entries and warnings

An entry is a piece of marked content: a reference, a need or a block, with the
place where it stands. A warning tells of a mark that is no need.
-/

set_option autoImplicit false

namespace Tracemark.Analysis

inductive Payload where
  | reference (ids : List String) (marker : String)
  | need (fields : Table Value)
  | block (text : String)
deriving Repr

namespace Payload

def type : Payload → String
  | .reference .. => "need-id-refs"
  | .need _ => "need"
  | .block _ => "rst"

/-- The members of a payload, with the fields of a need as they are given. -/
def toMembers (fieldMembers : Table Value → Members) : Payload → Members
  | .reference ids marker => [("need_ids", .list (ids.map .text)), ("marker", .text marker)]
  | .need fields => [("need", .object (fieldMembers fields))]
  | .block text => [("rst", .text text)]

end Payload

/-- A piece of marked content. The row counts from zero, in the file. -/
structure Entry where
  file : Path
  link : Option String
  row : Nat
  startColumn : Nat
  endColumn : Nat
  scope : Option Syntax.Node
  payload : Payload
deriving Repr

def optionalText (text : Option String) : Value :=
  match text with
  | some characters => .text characters
  | none => .null

namespace Entry

/-- The text of the scope that an entry belongs to; an empty scope is none. -/
def scopeText (entry : Entry) : Except Fault Value :=
  match entry.scope with
  | none => .ok .null
  | some node =>
      if node.data.text.isEmpty then .ok .null
      else
        match Utf8.decode node.data.text with
        | .ok text => .ok (.text (String.ofList text))
        | .error cause => .error (.undecodable cause)

def position (row column : Nat) : Value :=
  .object [("row", .int row), ("column", .int column)]

def sourceMap (entry : Entry) : Value :=
  .object [("start", position entry.row entry.startColumn), ("end", position entry.row entry.endColumn)]

def toMembers (entry : Entry) (fieldMembers : Table Value → Members) : Except Fault Members := do
  let scope ← entry.scopeText
  return [("filepath", .text entry.file.text), ("remote_url", optionalText entry.link),
      ("source_map", entry.sourceMap), ("tagged_scope", scope)] ++
    entry.payload.toMembers fieldMembers ++ [("type", .text entry.payload.type)]

def storedList (entries : List Entry) : Except Fault Value := do
  return .list (← entries.mapM fun entry => do
    return .object (← entry.toMembers Table.storedMembers))

/-- The order of entries: by file, then by row. -/
def comesFirst (left right : Entry) : Bool :=
  match left.file.compare right.file with
  | .lt => true
  | .gt => false
  | .eq => left.row ≤ right.row

end Entry

/-- A warning on a mark that is no need. Lines count from one. -/
structure Warning where
  file : Path
  line : Nat
  cause : OneLine.Warning
deriving Repr

/-- A warning as it is stored. What was read back need not have the kinds of values
that were stored. -/
structure StoredWarning where
  file : Value
  line : Value
  message : Value
  type : Value
  subtype : Value
deriving Repr

namespace StoredWarning

def memberNames : List String :=
  ["file_path", "lineno", "msg", "type", "sub_type"]

def toMembers (warning : StoredWarning) : Members :=
  [("file_path", warning.file), ("lineno", warning.line), ("msg", warning.message),
    ("type", warning.type), ("sub_type", warning.subtype)]

def ofValue (value : Value) : Except Mismatch StoredWarning :=
  match value with
  | .object members =>
      match members.find? fun member => !memberNames.contains member.1 with
      | some unknown => .error (.unknownMember "AnalyseWarning" unknown.1)
      | none =>
          let missing := memberNames.filter fun name => !Members.has members name
          if missing.isEmpty then
            let part (name : String) : Value := (Members.get? members name).getD .null
            .ok ⟨part "file_path", part "lineno", part "msg", part "type", part "sub_type"⟩
          else .error (.missingMembers "AnalyseWarning" missing)
  | _ => .error .unfit

end StoredWarning

namespace Warning

def stored (warning : Warning) : StoredWarning :=
  { file := .text warning.file.text
    line := .int warning.line
    message := .text warning.cause.message
    type := .text "need"
    subtype := .text warning.cause.kind }

end Warning

end Tracemark.Analysis
