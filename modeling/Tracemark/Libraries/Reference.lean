import Tracemark.Git.Hosts
import Tracemark.Json.Reader
import Tracemark.Libraries
import Tracemark.Libraries.Member
import Tracemark.Schema.Relevance

/-!
# Libraries to run with

The libraries with which the program is run and tested. Configurations are written in
JSON there.
-/

set_option autoImplicit false

namespace Tracemark.Libraries

def readJson (text : List Char) : Except String Value :=
  (Json.readAll text).mapError fun refusal => refusal.message text

instance reference : Libraries where
  bestMatch := Schema.mostTelling
  remote? := Git.remote?
  readToml := readJson
  reachMember := followMember

end Tracemark.Libraries
