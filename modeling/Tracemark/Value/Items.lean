import Tracemark.Fault
import Tracemark.Text.Search

/-!
# Items and members of values

The operations on values that can fail for the wrong kind of value.
-/

set_option autoImplicit false

namespace Tracemark.Value

/-- The items of a value, in order: those of a list, the characters of a text,
the keys of an object. Other values have none and are refused. -/
def items : Value → Except Fault (List Value)
  | .list entries => .ok entries
  | .text characters => .ok (characters.toList.map fun c => .text (String.singleton c))
  | .object members => .ok (members.map fun member => .text member.1)
  | value => .error (.mismatch (.notIterable value.kindName))

/-- A text, where nothing else fits. -/
def asText : Value → Except Fault (List Char)
  | .text characters => .ok characters.toList
  | _ => .error (.mismatch .unfit)

/-- The members of an object, where a value without members lacks the operation. -/
def membersOf : Value → Except Fault Members
  | .object members => .ok members
  | _ => .error .noSuchMember

/-- Looks a key up by index: an object is asked for the key, a list or text cannot
be indexed by one, and other values cannot be indexed. -/
def index (value : Value) (key : String) : Except Fault Value :=
  match value with
  | .object members =>
      match Members.get? members key with
      | some found => .ok found
      | none => .error (.missingKey (.text key))
  | .list _ => .error (.mismatch (.badIndex "list" "str"))
  | .text _ => .error (.mismatch (.badIndex "str" "str"))
  | other => .error (.mismatch (.notIndexable other.kindName))

/-- Does a value hold a word: an object as a key, a list as an item, a text as a
part? Other values hold nothing and are refused. -/
def holds (value : Value) (word : String) : Except Fault Bool :=
  match value with
  | .object members => .ok (Members.has members word)
  | .list entries => .ok (entries.any (same (.text word)))
  | .text characters => .ok (Text.occursIn word.toList characters.toList)
  | other => .error (.mismatch (.notContainer other.kindName))

/-- The number after a number. Other values have none. -/
def successor : Value → Except Fault Value
  | .bool truth => .ok (.int (if truth then 2 else 1))
  | .int number => .ok (.int (number + 1))
  | .real number => .ok (.real (number.minus (.ofInt (-1))))
  | _ => .error (.mismatch .unfit)

def nat? : Value → Option Nat
  | .bool truth => some (if truth then 1 else 0)
  | .int number => if number < 0 then none else some number.toNat
  | .real number =>
      match number with
      | .finite false mantissa exponent =>
          let (numerator, denominator) := Binary64.magnitude mantissa exponent
          if numerator % denominator == 0 then some (numerator / denominator) else none
      | _ => none
  | _ => none

def isAmong (value : Value) (values : List Value) : Bool :=
  values.any fun other => same other value

end Tracemark.Value
