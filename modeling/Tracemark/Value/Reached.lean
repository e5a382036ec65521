import Tracemark.Fault

/-!
# What a field can reach

A field of a template names a value and possibly a way from it to a part of it. What
is reached there has a text, a written form, and a layout by specifications.
-/

set_option autoImplicit false

namespace Tracemark

open Text.Template

structure Reached where
  shown : String
  written : String
  laidOut : List Char → Except Fault (List Char)

namespace Reached

/-- A text as its specification lays it out, to a width that memory can hold. -/
def arranged (characters specification : List Char) : Except Fault (List Char) :=
  match layout specification with
  | .ok chosen =>
      if chosen.width < widthLimit then .ok (arrange chosen characters) else .error .outOfMemory
  | .error problem => .error (.badTemplate problem)

/-- Only texts can be laid out, unless the specification is empty. -/
def ofValue (value : Value) : Reached where
  shown := value.shown
  written := value.written
  laidOut specification :=
    if specification.isEmpty then .ok value.shown.toList
    else
      match value with
      | .text characters => arranged characters.toList specification
      | _ => .error (.mismatch .unfit)

end Reached

/-- An item of a list by its index, which has to be a number. -/
def itemAt {α : Type} (items : List α) (kindName : String) (key : List Char) : Except Fault α :=
  match readIndex key with
  | .error problem => .error (.badTemplate problem)
  | .ok none => .error (.mismatch (.badIndex kindName "str"))
  | .ok (some index) =>
      match items[index]? with
      | some item => .ok item
      | none => .error .outOfRange

/-- The item of a value, which a text has for each of its characters. A number that is too large
is refused whatever it is an index of. -/
def Value.part (value : Value) (key : List Char) : Except Fault Value :=
  match readIndex key, value with
  | .error problem, _ => .error (.badTemplate problem)
  | .ok _, .text characters =>
      (itemAt characters.toList "str" key).map fun c => .text (String.singleton c)
  | .ok _, other => .error (.mismatch (.notIndexable other.kindName))

end Tracemark
