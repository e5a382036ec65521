import Tracemark.Commands.Line
import Tracemark.Json.Reader
import Tracemark.Snapshot

/-!
# The program

The arguments are a command line. The standard input holds an object with the
`working` directory and a snapshot of the `files`. What the command prints goes to
the console, and the files that it changed are written.
-/

set_option autoImplicit false

namespace Tracemark

def printEmission : Log.Emission → IO Unit
  | .standard line => IO.println line
  | .error line => IO.eprintln line
  | .build record => IO.eprintln record.message
  | .library message => IO.eprintln message

def writeChanges (earlier later : Store) : IO Unit := do
  for (place, content) in later.changedSince earlier do
    let text (parts : List String) : String := "/" ++ String.intercalate "/" parts
    IO.FS.createDirAll (text place.dropLast)
    IO.FS.writeBinFile (text place) ⟨content.toArray⟩

/-- Says why a command failed. A refused input has an exit code of its own. -/
def reportFault (fault : Fault) : IO UInt32 := do
  IO.eprintln s!"Error: {fault.message}"
  match fault with
  | .rejected _ => return 2
  | _ => return 1

def runLine (arguments : List String) (snapshot : Value) : IO UInt32 := do
  let working := Path.ofText (Snapshot.memberText snapshot "working")
  let files := (Snapshot.member? snapshot "files").getD .null
  match Commands.Request.ofLine? working arguments with
  | none =>
      IO.eprintln Commands.Request.usage
      return 2
  | some request =>
      match Snapshot.session working files with
      | .error fault => reportFault fault
      | .ok session =>
          let outcome := request.run session (Snapshot.listing working files)
          outcome.printed.forM printEmission
          writeChanges session.store outcome.store
          match outcome.fault with
          | some fault => reportFault fault
          | none => return 0

end Tracemark

def main (arguments : List String) : IO UInt32 := do
  let input ← (← IO.getStdin).readToEnd
  match Tracemark.Json.read input with
  | .ok snapshot => Tracemark.runLine arguments snapshot
  | .error reason =>
      IO.eprintln s!"The files cannot be read: {reason}"
      return 2
