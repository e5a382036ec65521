import Tracemark.Log.Router
import Tracemark.Session

/-!
# Outcomes of commands

What a command leaves behind: the files, what it printed, and the fault that ended
it if there is one.
-/

set_option autoImplicit false

namespace Tracemark.Commands

structure Outcome where
  store : Store
  printed : List Log.Emission := []
  fault : Option Fault := none
deriving Repr

def failed (store : Store) (fault : Fault) : Outcome :=
  { store := store, fault := some fault }

def joined (lines : List String) : String :=
  String.intercalate "\n" lines

/-- Refuses the input of a command for the reasons in a report; an empty report
refuses nothing. -/
def refuseFor (report : List String) : Except Fault Unit :=
  if report.isEmpty then .ok () else .error (.rejected (joined report))

end Tracemark.Commands
