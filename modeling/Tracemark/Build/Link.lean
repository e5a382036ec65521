import Tracemark.Path
import Tracemark.Value.Items

/-!
# Links between documents and source files

A need in a document links to the line of the source file that it comes from, and
the page of the source file links back to the document.
-/

set_option autoImplicit false

namespace Tracemark.Build

/-- A path that goes up a number of directories. -/
def upward (steps : Nat) : Path :=
  ⟨.relative, List.replicate steps ".."⟩

/-- How many directories a path lies below where it starts. -/
def depth (path : Path) : Nat :=
  path.parents.length - 1

/-- The path from a document to a file below the output directory, and the path
from that file to the page of the document. -/
def relativePaths (document file output : Path) : Except Fault (Path × Path) := do
  let below ← file.relativeTo output
  let toFile := (upward (depth document)).join below
  let toPage ← ((upward (depth below)).join document).withSuffix ".html"
  return (toFile, toPage)

/-- The place of rows in a link. Rows count from zero, lines from one. -/
def linesPart (startRow endRow : Int) : String :=
  if startRow == endRow then s!"#L{startRow + 1}" else s!"#L{startRow + 1}-L{endRow + 1}"

/-- The place of rows that any numbers give. -/
def givenLinesPart (startRow endRow : Value) : Except Fault String := do
  let first := (← startRow.successor).shown
  if startRow.same endRow then return s!"#L{first}"
  else
    let last := (← endRow.successor).shown
    return s!"#L{first}-L{last}"

def linkName (place : String) (file : Path) : String :=
  file.text ++ place

/-- The directories that a remote link needs. -/
structure RemoteDirectories where
  remote : Option Path
  target : Option Path
deriving Repr

def knownDirectory (name : String) : Option Path → Except Fault Path
  | some directory => .ok directory
  | none => .error (.missingKey (.text name))

/-- The remote link to a place in a file: the file is seen from the remote directory
as it lies below the target directory. -/
def remoteLinkName (place : String) (file : Path) (directories : RemoteDirectories) :
    Except Fault String := do
  let remote ← knownDirectory "remote_src_dir" directories.remote
  let target ← knownDirectory "target_dir" directories.target
  return linkName place (remote.join (← file.relativeTo target))

end Tracemark.Build
