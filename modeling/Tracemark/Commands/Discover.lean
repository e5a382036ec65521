import Tracemark.Commands.Outcome
import Tracemark.Discovery.Basic

/-!
# The command that discovers source files
-/

set_option autoImplicit false

namespace Tracemark.Commands

def discoveredLines (paths : List Path) : List String :=
  s!"{paths.length} files discovered" :: paths.map Path.text

/-- Lists the source files of a directory. The requests to the walk are part of the
result. -/
def discover [Libraries] (store : Store) (listing : Discovery.Listing)
    (settings : Discovery.Settings) :
    List Discovery.WalkRequest × Outcome :=
  match refuseFor settings.check with
  | .error fault => ([], failed store fault)
  | .ok () =>
      match Discovery.run store listing settings with
      | (requests, .error fault) => (requests, failed store fault)
      | (requests, .ok found) =>
          (requests, { store := store, printed := (discoveredLines found.paths).map Log.Emission.uncolored })

end Tracemark.Commands
