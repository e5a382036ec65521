import Tracemark.Build.Page
import Tracemark.Discovery.Basic
import Tracemark.Log.Router
import Tracemark.Session
import Tracemark.Tracing.Settings
import Tracemark.Value.Key

/-!
# Documentation builds

The state of a documentation build as far as source tracing sees it, and what is
asked of the build and of the extension for needs.
-/

set_option autoImplicit false

namespace Tracemark.Build

inductive SettingKind where
  | text
  | nothing
  | flag
deriving Repr, DecidableEq

inductive Handler where
  | loadConfiguration
  | registerFields
  | registerTypes
  | checkConfiguration
  | prepare
  | collectPages
  | addStylesheet
  | copyStylesheet
  | emitWarnings
  | reportTiming
deriving Repr, DecidableEq

inductive Request where
  | addNode
  | addDirective (name : String)
  | addSetting (name : String) (standard : Value) (rebuild : String) (kinds : List SettingKind)
  | connect (event : String) (handler : Handler) (priority : Nat)
  | addStylesheet (file : String)
deriving Repr

inductive FieldInterface where
  /-- A field with a description and a schema. -/
  | field
  /-- An option with a schema. -/
  | optionWithSchema
  /-- An option. -/
  | option
deriving Repr, DecidableEq

inductive NeedsRequest where
  | need (document : String) (line : Value) (type title : String) (fields : Members)
  | document (name : String)
  | field (name : Value) (description : String) (schema : Value)
  | option (name : Value) (schema : Value)
  | type (directive title label color style : String)
deriving Repr

/-- How the texts in a field of needs become links. -/
structure StringLink where
  regex : String
  url : String
  name : String
  fields : List Value
deriving Repr

/-- The state of a build. The last four members are journals. -/
structure State where
  session : Session
  listing : Discovery.Listing
  configurationDirectory : Path
  output : Path
  extensions : List String
  settings : Tracing.SettingTable
  fieldInterface : FieldInterface := .field
  stringLinks : Table StringLink := []
  backLinks : BackLinks := []
  measuring : Bool := false
  requests : List Request := []
  needs : List NeedsRequest := []
  records : List Log.BuildRecord := []
  dependencies : List String := []

/-- Something that is done in a build and can fail. What was done before a fault
stays. -/
abbrev Step (α : Type) := ExceptT Fault (StateM State) α

namespace Step

def ofExcept {α : Type} (result : Except Fault α) : Step α :=
  ExceptT.mk (pure result)

def inSession {α : Type} (action : Action α) : Step α := do
  let state ← get
  let (result, session) := action.run.run state.session
  set { state with session := session }
  ofExcept result

def request (wanted : Request) : Step Unit :=
  modify fun state => { state with requests := state.requests ++ [wanted] }

def requestNeeds (wanted : NeedsRequest) : Step Unit :=
  modify fun state => { state with needs := state.needs ++ [wanted] }

def log (record : Log.BuildRecord) : Step Unit :=
  modify fun state => { state with records := state.records ++ [record] }

def setting (name : String) : Step Tracing.Setting := do
  ofExcept (Tracing.Settings.get { host := some (← get).settings } name)

/-- Does a setting count as true? -/
def isSet (name : String) : Step Bool := do
  return (← setting name).value.truthy

end Step

end Tracemark.Build
