import Tracemark.Commands.Outcome
import Tracemark.Export.NeedExtend
import Tracemark.Json.Reader
import Tracemark.Text.Lines

/-!
# The command that writes directives from stored content
-/

set_option autoImplicit false

namespace Tracemark.Commands

def fileFault (file : Path) (fault : Fault) : String :=
  let shown := Text.quoted file.text
  match fault with
  | .missingFile => s!"[Errno 2] No such file or directory: {shown}"
  | .notDirectory => s!"[Errno 20] Not a directory: {shown}"
  | .isDirectory => s!"[Errno 21] Is a directory: {shown}"
  | .nameTooLong => s!"[Errno 36] File name too long: {shown}"
  | other => other.message

/-- Loads stored content. Whatever is wrong with the file is a reason to refuse
it. -/
def loadContent (store : Store) (file : Path) : Except Fault Value :=
  let refuse (reason : String) : Fault :=
    .rejected s!"Failed to load marked content from {file.text}: {reason}"
  match store.readText file with
  | .error fault => .error (refuse (fileFault file fault))
  | .ok text =>
      let unified := Text.unifyNewlines text
      match Json.readAll unified with
      | .error refusal => .error (refuse (refusal.message unified))
      | .ok value => .ok value

def storedObjects (content : Value) : Except Fault (List Value) := do
  let lists ← (← content.membersOf).mapM fun member => member.2.items
  return lists.flatten

def exportedText [Libraries] (store : Store) (file : Path) (urlField : String)
    (title : Option String) :
    Except Fault String := do
  let objects ← storedObjects (← loadContent store file)
  let written ← Export.needExtend urlField title objects
  if written.report.isEmpty then return String.join written.texts
  else
    let reasons := joined written.report
    throw (.rejected s!"Errors occurred during conversion: {reasons}")

def exportDirectives [Libraries] (store : Store) (file output : Path) (urlField : String)
    (title : Option String) : Outcome :=
  match exportedText store file urlField title with
  | .error fault => failed store fault
  | .ok text =>
      match store.write output (Utf8.encode text.toList) with
      | .error fault => failed store fault
      | .ok written =>
          { store := written, printed := [.uncolored s!"Generated {output.text}"] }

end Tracemark.Commands
