import Tracemark.Git.Remote
import Tracemark.Schema.Basic
import Tracemark.Value.Reached

/-!
# Libraries

What the program takes from libraries. Their answers are parameters of all that asks
for them, and statements that rest on an answer name what it has to be.
-/

set_option autoImplicit false

namespace Tracemark

class Libraries where
  /-- The violation that is reported for a value, out of the first one found and the others. -/
  bestMatch : Schema.Violation → List Schema.Violation → Schema.Violation
  /-- The remote that an address is of. -/
  remote? : List Char → Option Git.Remote
  /-- The value of a configuration in TOML, or what is said about an error in it. -/
  readToml : List Char → Except String Value
  /-- What a member of a value leads to, with the accesses that follow it. -/
  reachMember : Value → String → List Text.Template.Access → Except Fault Reached

end Tracemark
