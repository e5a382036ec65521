import Tracemark.Number.Binary64

/-!
# Values

Settings, stored content and requests are values: nothing, truth values, whole
and floating-point numbers, texts, lists, and objects whose members keep the
order in which they were put.
-/

set_option autoImplicit false

namespace Tracemark

/-- A value. The keys of an object are expected to differ; `Members.put` keeps it
so. -/
inductive Value where
  | null
  | bool (truth : Bool)
  | int (number : Int)
  | real (number : Binary64)
  | text (characters : String)
  | list (items : List Value)
  | object (members : List (String × Value))
deriving Repr, Inhabited

abbrev Members := List (String × Value)

namespace Members

def get? (members : Members) (key : String) : Option Value :=
  (members.find? fun member => member.1 == key).map (·.2)

def has (members : Members) (key : String) : Bool :=
  members.any fun member => member.1 == key

/-- Gives a key a value: a member that exists keeps its place, a new one comes
last. -/
def put (key : String) (value : Value) : Members → Members
  | [] => [(key, value)]
  | member :: rest =>
      if member.1 == key then (key, value) :: rest else member :: put key value rest

def erase (members : Members) (key : String) : Members :=
  members.filter fun member => member.1 != key

def putAll (members : Members) (additions : Members) : Members :=
  additions.foldl (fun current member => put member.1 member.2 current) members

def keys (members : Members) : List String :=
  members.map (·.1)

end Members

namespace Value

/-- Does the value count as true in a condition? Nothing, false, zero and what is
empty do not. -/
def truthy : Value → Bool
  | .null => false
  | .bool truth => truth
  | .int number => number != 0
  | .real number => !number.isZero
  | .text characters => !characters.isEmpty
  | .list items => !items.isEmpty
  | .object members => !members.isEmpty

def isNull : Value → Bool
  | .null => true
  | _ => false

def kindName : Value → String
  | .null => "NoneType"
  | .bool _ => "bool"
  | .int _ => "int"
  | .real _ => "float"
  | .text _ => "str"
  | .list _ => "list"
  | .object _ => "dict"

/-- The whole number that a number or truth value equals, if it is one. -/
def whole? : Value → Option Int
  | .bool truth => some (if truth then 1 else 0)
  | .int number => some number
  | _ => none

/-- Equality of what is not a list, an object or a text: truth values are the
numbers zero and one, and whole and floating-point numbers are compared by
value. -/
def sameScalar : Value → Value → Bool
  | .null, .null => true
  | .text left, .text right => left == right
  | .real left, .real right => left.sameNumber right
  | .real left, right =>
      match right.whole? with
      | some number => left.equalsInt number
      | none => false
  | left, .real right =>
      match left.whole? with
      | some number => right.equalsInt number
      | none => false
  | left, right =>
      match left.whole?, right.whole? with
      | some first, some second => first == second
      | _, _ => false

mutual

/-- Equality of values: numbers by value, lists item by item, objects without
regard to order. -/
def same : Value → Value → Bool
  | .list left, .list right => sameItems left right
  | .object left, .object right => left.length == right.length && sameMembers left right
  | left, right => sameScalar left right

/-- Equality of lists, item by item. -/
def sameItems : List Value → List Value → Bool
  | [], [] => true
  | left :: restLeft, right :: restRight => same left right && sameItems restLeft restRight
  | _, _ => false

/-- Has each member an equal one in the other object? -/
def sameMembers : List (String × Value) → List (String × Value) → Bool
  | [], _ => true
  | (key, value) :: rest, others =>
      (match Members.get? others key with
        | some other => same value other
        | none => false) && sameMembers rest others

end

/-- Can the value be a member of a set or a key? Lists and objects cannot. -/
def isScalar : Value → Bool
  | .list _ => false
  | .object _ => false
  | _ => true

end Value

end Tracemark
