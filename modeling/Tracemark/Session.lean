import Tracemark.Log.Record
import Tracemark.Store
import Tracemark.Syntax.Parser

/-!
# Sessions

A session holds what actions read and change: the files, the parser for their
contents, and the log. An action that fails keeps what it changed before.
-/

set_option autoImplicit false

namespace Tracemark

/-- The files, the parser for their contents, and the log, oldest record first. -/
structure Session where
  store : Store
  parser : Syntax.Parser
  log : List Log.Record

abbrev Action (α : Type) := ExceptT Fault (StateM Session) α

namespace Action

def ofExcept {α : Type} (result : Except Fault α) : Action α :=
  ExceptT.mk (pure result)

def store : Action Store :=
  return (← get).store

def note (record : Log.Record) : Action Unit :=
  modify fun session => { session with log := session.log ++ [record] }

def changeStore (change : Store → Except Fault Store) : Action Unit := do
  let session ← get
  let next ← ofExcept (change session.store)
  set { session with store := next }

/-- Changes the files. What was changed before a fault stays. -/
def changeStep (change : Store → Store × Option Fault) : Action Unit := do
  let session ← get
  let (next, fault) := change session.store
  set { session with store := next }
  match fault with
  | some cause => throw cause
  | none => return ()

end Action

end Tracemark
