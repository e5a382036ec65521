import Tracemark.Value.Items

/-!
# Keys

The keys of settings need not be texts: every value but a list or an object can be
a key. Keys are equal when their values are, so that the number one, the truth
value and the floating-point number one are one key.
-/

set_option autoImplicit false

namespace Tracemark

inductive Key where
  | nothing
  | truth (value : Bool)
  | whole (number : Int)
  | real (number : Binary64)
  | text (characters : String)
deriving Repr, DecidableEq

namespace Key

def value : Key → Value
  | .nothing => .null
  | .truth holds => .bool holds
  | .whole number => .int number
  | .real number => .real number
  | .text characters => .text characters

def same (left right : Key) : Bool :=
  Value.sameScalar left.value right.value

def shown (key : Key) : String :=
  key.value.shown

/-- A key in stored content, where all keys are texts. -/
def stored : Key → String
  | .nothing => "null"
  | .truth holds => if holds then "true" else "false"
  | .whole number => toString number
  | .real .undefined => "NaN"
  | .real (.infinite negative) => if negative then "-Infinity" else "Infinity"
  | .real number => number.toText
  | .text characters => characters

def isText : Key → Bool
  | .text _ => true
  | _ => false

end Key

def Value.asKey : Value → Except Fault Key
  | .null => .ok .nothing
  | .bool holds => .ok (.truth holds)
  | .int number => .ok (.whole number)
  | .real number => .ok (.real number)
  | .text characters => .ok (.text characters)
  | value => .error (.mismatch (.notHashable value.kindName))

/-- Entries by key, in the order in which they were put. -/
abbrev Table (α : Type) := List (Key × α)

namespace Table

def get? {α : Type} (table : Table α) (name : String) : Option α :=
  (table.find? fun entry => entry.1.same (.text name)).map (·.2)

/-- Gives a key an entry: one that exists keeps its place and its key, a new one
comes last. -/
def put {α : Type} (key : Key) (new : α) : Table α → Table α
  | [] => [(key, new)]
  | entry :: rest =>
      if entry.1.same key then (entry.1, new) :: rest else entry :: put key new rest

def erase {α : Type} (table : Table α) (name : String) : Table α :=
  table.filter fun entry => !entry.1.same (.text name)

/-- The members in which a table is shown; keys that are shown alike become one, and
the last entry counts. -/
def shownMembers (table : Table Value) : Members :=
  Members.putAll [] (table.map fun (key, value) => (key.shown, value))

/-- The members in which a table is stored. Keys that are stored alike stay apart. -/
def storedMembers (table : Table Value) : Members :=
  table.map fun (key, value) => (key.stored, value)

end Table

end Tracemark
