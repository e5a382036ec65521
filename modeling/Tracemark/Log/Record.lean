/-!
# Log records

What an analysis tells its user. A warning has a subtype, by which it can be
suppressed, and possibly the location that it is about.
-/

set_option autoImplicit false

namespace Tracemark.Log

inductive Severity where
  | debug
  | info
  | warning
deriving Repr, DecidableEq

inductive Record where
  | debug (message : String)
  | info (message : String)
  | warning (message subtype : String) (location : Option String)
deriving Repr, DecidableEq

end Tracemark.Log
