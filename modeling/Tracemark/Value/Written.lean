import Tracemark.Text.Quoted
import Tracemark.Value.Basic

/-!
# Values in messages

How a value is written in a message: texts in quotes, lists in brackets, objects
in braces, items divided by a comma and a space.
-/

set_option autoImplicit false

namespace Tracemark.Value

mutual

def written : Value → String
  | .null => "None"
  | .bool truth => if truth then "True" else "False"
  | .int number => toString number
  | .real number => number.toText
  | .text characters => Text.quoted characters
  | .list items => "[" ++ String.intercalate ", " (writtenItems items) ++ "]"
  | .object members => "\x7b" ++ String.intercalate ", " (writtenMembers members) ++ "\x7d"

def writtenItems : List Value → List String
  | [] => []
  | item :: rest => written item :: writtenItems rest

def writtenMembers : List (String × Value) → List String
  | [] => []
  | (key, value) :: rest => (Text.quoted key ++ ": " ++ written value) :: writtenMembers rest

end

/-- The text that stands for a value inside a message: a text as it is, anything
else in its written form. -/
def shown : Value → String
  | .text characters => characters
  | value => written value

end Tracemark.Value
