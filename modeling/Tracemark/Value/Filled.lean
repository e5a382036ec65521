import Tracemark.Libraries

/-!
# Filling templates

The fields of a template are replaced by values of their names. Fields without a
name, or with a number for one, have no value.
-/

set_option autoImplicit false

namespace Tracemark.Value

open Text.Template

def reach [Libraries] : Value → List Access → Except Fault Reached
  | value, [] => .ok (.ofValue value)
  | value, .item key :: rest => do reach (← value.part key) rest
  | value, .member name :: rest => Libraries.reachMember value (String.ofList name) rest

/-- The value that the first part of a field's name stands for. -/
def startOf (values : Members) (first : List Char) : Except Fault Value :=
  match readIndex first with
  | .error problem => .error (.badTemplate problem)
  | .ok (some _) => .error .outOfRange
  | .ok none =>
      if first.isEmpty then .error .outOfRange
      else
        match values.get? (String.ofList first) with
        | some value => .ok value
        | none => .error (.missingKey (.text (String.ofList first)))

def named [Libraries] (values : Members) (name : List Char) : Except Fault Reached := do
  let (first, rest) := splitName name
  let start ← startOf values first
  let (path, problem) := accesses .between rest
  let reached ← start.reach path
  match problem with
  | some cause => throw (.badTemplate cause)
  | none => return reached

def escaped (text : String) : String :=
  String.ofList (text.toList.flatMap fun c =>
    if c.toNat < 0x80 then [c]
    else if c.toNat < 0x100 then '\\' :: 'x' :: Text.hexPadded 2 c.toNat
    else if c.toNat < 0x10000 then '\\' :: 'u' :: Text.hexPadded 4 c.toNat
    else '\\' :: 'U' :: Text.hexPadded 8 c.toNat)

def converted (reached : Reached) : Option Char → Except Fault Reached
  | none => .ok reached
  | some 's' => .ok (.ofValue (.text reached.shown))
  | some 'r' => .ok (.ofValue (.text reached.written))
  | some 'a' => .ok (.ofValue (.text (escaped reached.written)))
  | some c => .error (.badTemplate (.unknownConversion c))

/-- The text of pieces, given how a specification with fields is filled. A problem
after the pieces counts when they are all filled. -/
def fillPieces [Libraries] (values : Members)
    (fillSpecification : List Char → Except Fault (List Char)) :
    List Piece → Option Problem → Except Fault (List Char)
  | [], none => .ok []
  | [], some problem => .error (.badTemplate problem)
  | .literal characters :: rest, problem => do
      return characters ++ (← fillPieces values fillSpecification rest problem)
  | .field field :: rest, problem => do
      let reached ← converted (← named values field.name) field.conversion
      let specification ←
        if field.specification.contains '\x7b' then fillSpecification field.specification
        else .ok field.specification
      let shown ← reached.laidOut specification
      return shown ++ (← fillPieces values fillSpecification rest problem)

/-- Fills a template, with fields nested in specifications up to a depth. -/
def fillTo [Libraries] : Nat → Members → List Char → Except Fault (List Char)
  | 0, _, _ => .error (.badTemplate .tooDeep)
  | depth + 1, values, template =>
      let (parts, problem) := pieces template
      fillPieces values (fillTo depth values) parts problem

/-- Fills a template. A specification may hold fields, but not deeper ones. -/
def fill [Libraries] (values : Members) (template : String) : Except Fault String :=
  (fillTo 2 values template.toList).map String.ofList

end Tracemark.Value
