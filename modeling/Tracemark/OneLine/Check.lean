import Tracemark.Discovery.Settings
import Tracemark.OneLine.Style

/-!
# Checks of one-line styles

A style is checked against its schema, for the fields that every need has, for
names that occur twice, and for fields without a default after fields with one.
A check can end in a fault when the fields of a style are not objects with names.
-/

set_option autoImplicit false

namespace Tracemark.OneLine.Style

def fieldKeys : List String := ["name", "type", "default"]

def fieldSchema : List Schema.Keyword :=
  let listOfTexts : List Schema.Keyword := Schema.texts
  [.types [.object],
    .properties [
      ("name", [.types [.string]]),
      ("type", [.types [.string], .oneOfTexts [textType, listType]]),
      ("default", [.anyOf [[.types [.string]], listOfTexts]])],
    .required ["name"],
    .onlyProperties fieldKeys,
    .whenMember "type" listType [.properties [("default", listOfTexts)]],
    .whenMember "type" textType [.properties [("default", [.types [.string]])]]]

def fieldsSchema : List Schema.Keyword :=
  [.types [.array], .items fieldSchema]

/-- The name of the field that a violation is reported for: the first step of its
place is taken as a position among the fields. -/
def violatedField (fields : Value) (violation : Schema.Violation) : Except Fault String := do
  match violation.place with
  | .index position :: _ =>
      match fields with
      | .list items =>
          match items[position]? with
          | some field => return (← field.index "name").shown
          | none => throw .outOfRange
      | _ => throw (.mismatch .unfit)
  | .key _ :: _ => throw (.mismatch .unfit)
  | [] => throw .outOfRange

def checkSchema [Libraries] (style : Style) : Except Fault (List String) := do
  let parts := Schema.fieldReports
    [("start_sequence", [.types [.string]], style.startSequence),
      ("end_sequence", [.types [.string]], style.endSequence),
      ("field_split_char", [.types [.string]], style.separator)]
  match Schema.best? fieldsSchema style.fields with
  | none => return parts
  | some violation =>
      let name ← violatedField style.fields violation
      return Report.arrange
        (parts ++ [s!"Schema validation error in need_fields '{name}': {violation.message}"])

/-- The names of the fields, each of which is asked for by index. -/
def fieldNames (style : Style) : Except Fault (List Value) := do
  (← style.fields.items).mapM fun field => field.index "name"

/-- Names that can be put into a set. -/
def asSet (names : List Value) : Except Fault (List Value) :=
  names.mapM fun name =>
    if name.isScalar then .ok name else .error (.mismatch (.notHashable name.kindName))

def requiredNames : List String := ["title", "type"]

def checkRequired (style : Style) : Except Fault (List String) := do
  let names ← asSet (← style.fieldNames)
  let missing := requiredNames.filter fun name => !(Value.text name).isAmong names
  return if missing.isEmpty then []
    else [s!"Missing required fields: {(Value.list (missing.map .text)).written}"]

/-- The report on names that occur again, in order; `seen` are the names so far. -/
def repeatedNames : List Value → List Value → List String
  | _, [] => []
  | seen, name :: rest =>
      let later := repeatedNames (name :: seen) rest
      if name.isAmong seen then s!"Field '{name.shown}' is defined multiple times." :: later
      else later

/-- The names of the fields up to the first that has none or cannot be in a set. -/
def checkUnique (style : Style) : Except Fault (List String) := do
  let names ← (← style.fields.items).mapM fun field => do
    let name ← field.index "name"
    if name.isScalar then return name else throw (.mismatch (.notHashable name.kindName))
  return repeatedNames [] names

/-- The report on fields without a default after a field with one; `first` is the
name of the first field with a default. -/
def misplacedFields : Option Value → List Value → Except Fault (List String)
  | _, [] => .ok []
  | first, field :: rest => do
      let members ← field.membersOf
      match first, isRequired members with
      | none, false => misplacedFields (some (← field.index "name")) rest
      | none, true => misplacedFields none rest
      | some _, false => misplacedFields first rest
      | some earlier, true =>
          let name ← field.index "name"
          let line := s!"Field '{name.shown}' without a default follows field '{earlier.shown}' " ++
            "which has a default. Fields without defaults must be defined before fields with defaults."
          return line :: (← misplacedFields first rest)

def checkOrder (style : Style) : Except Fault (List String) := do
  misplacedFields none (← style.fields.items)

def check [Libraries] (style : Style) : Except Fault (List String) := do
  let schema ← style.checkSchema
  let required ← style.checkRequired
  let unique ← style.checkUnique
  let order ← style.checkOrder
  return Report.arrange (schema ++ required ++ unique ++ order)

def toMembers (style : Style) : Members :=
  [("start_sequence", style.startSequence), ("end_sequence", style.endSequence),
    ("field_split_char", style.separator), ("needs_fields", style.fields)]

end Tracemark.OneLine.Style
