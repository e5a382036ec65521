import Tracemark.Value.Written

/-!
# Schemas

A schema is a list of keywords, each a condition on a value. Checking a value
collects every violation, in the order of the keywords, with the place in the
value where it arose.
-/

set_option autoImplicit false

namespace Tracemark.Schema

/-- The kinds of values that a schema tells apart. -/
inductive TypeName where
  | string
  | array
  | object
  | boolean
  | integer
  | null
deriving Repr, DecidableEq

/-- A condition on a value. A schema is a list of them. -/
inductive Keyword where
  /-- The value is of one of the kinds. -/
  | types (names : List TypeName)
  /-- The value is one of the texts. -/
  | oneOfTexts (texts : List String)
  /-- Members that exist satisfy their schemas. -/
  | properties (schemas : List (String × List Keyword))
  /-- The members exist. -/
  | required (names : List String)
  /-- An object has no members but these. -/
  | onlyProperties (names : List String)
  /-- Members other than these satisfy the schema. -/
  | otherProperties (names : List String) (schema : List Keyword)
  /-- The items of a list satisfy the schema. -/
  | items (schema : List Keyword)
  /-- The value satisfies one of the schemas. -/
  | anyOf (schemas : List (List Keyword))
  /-- An object whose member is the text, or is missing, satisfies the schema. -/
  | whenMember (name text : String) (schema : List Keyword)
deriving Repr

inductive Step where
  | index (position : Nat)
  | key (name : String)
deriving Repr, DecidableEq

/-- A violation: where it is, what it says, whether it only says that no
alternative fits, whether the value is of the kind that the violated schema asks
for, and the violations of the alternatives, with places relative to its own. -/
inductive Violation where
  | mk (place : List Step) (message : String) (isAlternative fitsType : Bool)
      (alternatives : List Violation)
deriving Repr

namespace Violation

def place : Violation → List Step
  | .mk place _ _ _ _ => place

def message : Violation → String
  | .mk _ message _ _ _ => message

def isAlternative : Violation → Bool
  | .mk _ _ isAlternative _ _ => isAlternative

/-- Is the value of the kind that the violated schema asks for? -/
def fitsType : Violation → Bool
  | .mk _ _ _ fitsType _ => fitsType

def alternatives : Violation → List Violation
  | .mk _ _ _ _ alternatives => alternatives

/-- The violation seen from one step further out. -/
def under (step : Step) : Violation → Violation
  | .mk place message isAlternative fitsType alternatives =>
      .mk (step :: place) message isAlternative fitsType alternatives

end Violation

namespace TypeName

def text : TypeName → String
  | .string => "string"
  | .array => "array"
  | .object => "object"
  | .boolean => "boolean"
  | .integer => "integer"
  | .null => "null"

/-- Is a value of the kind? A floating-point number without a fractional part is
an integer; a truth value is not. -/
def holds : TypeName → Value → Bool
  | .string, .text _ => true
  | .array, .list _ => true
  | .object, .object _ => true
  | .boolean, .bool _ => true
  | .integer, .int _ => true
  | .integer, .real number => number.isWhole
  | .null, .null => true
  | _, _ => false

end TypeName

/-- Is the value of a kind that the schema's own condition on kinds allows? Without
such a condition it is not. -/
def fitsTypes (schema : List Keyword) (value : Value) : Bool :=
  match schema.findSome? fun keyword =>
      match keyword with
      | .types names => some names
      | _ => none with
  | some names => names.any fun name => name.holds value
  | none => false

def otherMembers (names : List String) (members : List (String × Value)) :
    List (String × Value) :=
  members.filter fun member => !names.contains member.1

def extraMessage (names : List String) : String :=
  let sorted := names.mergeSort fun left right => decide (left ≤ right)
  let verb := if names.length == 1 then "was" else "were"
  let listed := String.intercalate ", " (sorted.map Text.quoted)
  s!"Additional properties are not allowed ({listed} {verb} unexpected)"

mutual

/-- The violations of one keyword; `fits` tells whether the value is of a kind that
the keyword's schema allows. -/
def keywordViolations (fits : Bool) : Keyword → Value → List Violation
  | .types names, value =>
      if names.any fun name => name.holds value then []
      else
        let listed := String.intercalate ", " (names.map fun name => s!"'{name.text}'")
        [.mk [] s!"{value.written} is not of type {listed}" false fits []]
  | .oneOfTexts texts, value =>
      if texts.any fun text => Value.same value (.text text) then []
      else
        let listed := (Value.list (texts.map .text)).written
        [.mk [] s!"{value.written} is not one of {listed}" false fits []]
  | .properties schemas, .object members => propertyViolations schemas members
  | .properties _, _ => []
  | .required names, .object members =>
      (names.filter fun name => !Members.has members name).map fun name =>
        .mk [] s!"{Text.quoted name} is a required property" false fits []
  | .required _, _ => []
  | .onlyProperties names, .object members =>
      match otherMembers names members with
      | [] => []
      | extra => [.mk [] (extraMessage (extra.map (·.1))) false fits []]
  | .onlyProperties _, _ => []
  | .otherProperties names schema, .object members =>
      (otherMembers names members).flatMap fun (name, value) =>
        (schemaViolations (fitsTypes schema value) schema value).map (·.under (.key name))
  | .otherProperties _ _, _ => []
  | .items schema, .list values =>
      values.zipIdx.flatMap fun (value, position) =>
        (schemaViolations (fitsTypes schema value) schema value).map (·.under (.index position))
  | .items _, _ => []
  | .anyOf schemas, value =>
      match branchViolations schemas value with
      | none => []
      | some violations =>
          [.mk [] s!"{value.written} is not valid under any of the given schemas" true fits violations]
  | .whenMember name text schema, value =>
      let applies :=
        match value with
        | .object members =>
            match Members.get? members name with
            | some member => Value.same member (.text text)
            | none => true
        | _ => true
      if applies then schemaViolations (fitsTypes schema value) schema value else []

def schemaViolations (fits : Bool) : List Keyword → Value → List Violation
  | [], _ => []
  | keyword :: rest, value => keywordViolations fits keyword value ++ schemaViolations fits rest value

def propertyViolations : List (String × List Keyword) → List (String × Value) → List Violation
  | [], _ => []
  | (name, schema) :: rest, members =>
      (match Members.get? members name with
        | some value =>
            (schemaViolations (fitsTypes schema value) schema value).map (·.under (.key name))
        | none => []) ++ propertyViolations rest members

/-- The violations of all alternatives, unless one of them has none. -/
def branchViolations : List (List Keyword) → Value → Option (List Violation)
  | [], _ => some []
  | schema :: rest, value =>
      match schemaViolations (fitsTypes schema value) schema value with
      | [] => none
      | violations => (branchViolations rest value).map (violations ++ ·)

end

def violations (schema : List Keyword) (value : Value) : List Violation :=
  schemaViolations (fitsTypes schema value) schema value

end Tracemark.Schema
