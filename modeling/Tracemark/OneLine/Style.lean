import Tracemark.Value.Items

/-!
# Styles of one-line marks

A style says how a one-line mark begins and ends, what separates its fields, and
which fields it has. Settings come from users, so the parts of a style are values
that need not have the expected kind; what a wrong kind leads to is decided where
the part is used.
-/

set_option autoImplicit false

namespace Tracemark.OneLine

/-- A style. `fields` is a value whose items are the fields, objects with a name,
a type and possibly a default. -/
structure Style where
  startSequence : Value := .text "@"
  endSequence : Value := .text "\n"
  separator : Value := .text ","
  fields : Value
deriving Repr

def textType : String := "str"

def listType : String := "list[str]"

def defaultFields : Value :=
  .list [
    .object [("name", .text "title"), ("type", .text textType)],
    .object [("name", .text "id"), ("type", .text textType)],
    .object [("name", .text "type"), ("default", .text "impl"), ("type", .text textType)],
    .object [("name", .text "links"), ("type", .text listType), ("default", .list [])]]

def Style.standard : Style :=
  { fields := defaultFields }

/-- A field with its type filled in. What already holds the word `type` stays: an
object with that key, a list with that item, a text with that part. Of the other
values only an object can take the type. -/
def withType : Value → Except Mismatch Value
  | .object members =>
      .ok (.object (if Members.has members "type" then members else Members.put "type" (.text textType) members))
  | .list items =>
      if items.any (Value.same (.text "type")) then .ok (.list items)
      else .error (.badIndex "list" "str")
  | .text characters =>
      if characters.contains "type" then .ok (.text characters) else .error (.notAssignable "str")
  | value => .error (.notContainer value.kindName)

/-- Fields with their types filled in, as far as the first one that cannot take a
type, and the reason if there is one. -/
def withTypes : List Value → List Value × Option Mismatch
  | [] => ([], none)
  | field :: rest =>
      match withType field with
      | .error cause => (field :: rest, some cause)
      | .ok filled =>
          let (filledRest, cause) := withTypes rest
          (filled :: filledRest, cause)

/-- The fields of settings with their types filled in. Of an object or a text the
keys or characters are looked at, and only those that hold the word `type` pass. -/
def fillTypes : Value → Value × Option Mismatch
  | .list fields =>
      let (filled, cause) := withTypes fields
      (.list filled, cause)
  | .object members => (.object members, (withTypes (members.map fun member => .text member.1)).2)
  | .text characters =>
      (.text characters, (withTypes (characters.toList.map fun c => .text (String.singleton c))).2)
  | value => (value, some (.notIterable value.kindName))

namespace Style

def memberNames : List String :=
  ["start_sequence", "end_sequence", "field_split_char", "needs_fields"]

def recordName : String := "OneLineCommentStyle"

/-- The style that settings describe, and the settings with the types of the
fields filled in. No settings give the standard style. -/
def ofSettings (settings : Value) : Value × Except Fault Style :=
  match settings with
  | .null => (.null, .ok standard)
  | .object members =>
      match members.find? fun member => !memberNames.contains member.1 with
      | some unknown => (settings, .error (.invalidStyle (.unknownMember recordName unknown.1)))
      | none =>
          let part (name : String) (fallback : Value) : Value :=
            (Members.get? members name).getD fallback
          let style (fields : Value) : Style :=
            { startSequence := part "start_sequence" standard.startSequence
              endSequence := part "end_sequence" standard.endSequence
              separator := part "field_split_char" standard.separator
              fields := fields }
          match Members.get? members "needs_fields" with
          | none => (settings, .ok (style defaultFields))
          | some fields =>
              let (filled, cause) := fillTypes fields
              let grown := Value.object (Members.put "needs_fields" filled members)
              match cause with
              | some mismatch => (grown, .error (.invalidStyle mismatch))
              | none => (grown, .ok (style filled))
  | value =>
      (settings, .error (.invalidStyle
        (.notMapping s!"sphinx_codelinks.config.{recordName}" value.kindName)))

/-- The fields of a style as objects; anything else has no members. -/
def fieldMembers (style : Style) : Except Fault (List Members) := do
  let fields ← style.fields.items
  fields.mapM Value.membersOf

/-- Has a field no default? Such a field has to be given. -/
def isRequired (field : Members) : Bool :=
  match field.get? "default" with
  | none => true
  | some value => value.isNull

def hasType (type : String) (field : Members) : Bool :=
  match field.get? "type" with
  | some value => Value.same value (.text type)
  | none => false

def requiredCount (style : Style) : Except Fault Nat := do
  return ((← style.fieldMembers).filter isRequired).length

def listPositionsOf (fields : List Members) : List Nat :=
  (fields.zipIdx 1).filterMap fun (field, position) =>
    if hasType listType field then some position else none

/-- The positions of a style's list fields. A field is asked for its type by
index. -/
def listPositions (style : Style) : Except Fault (List Nat) := do
  let fields ← style.fields.items
  let types ← fields.mapM fun field => field.index "type"
  return (types.zipIdx 1).filterMap fun (type, position) =>
    if Value.same type (.text listType) then some position else none

end Style

end Tracemark.OneLine
