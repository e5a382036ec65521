import Tracemark.Libraries

/-!
# The violation that is reported

Of all violations one is reported.
-/

set_option autoImplicit false

namespace Tracemark.Schema

def best? [Libraries] (schema : List Keyword) (value : Value) : Option Violation :=
  match violations schema value with
  | [] => none
  | first :: others => some (Libraries.bestMatch first others)

end Tracemark.Schema
