import Tracemark.Log.Router
import Tracemark.Value.Items

/-!
# Calls to the log

A call has a purpose and brings arguments, some by position and some by name.
Arguments that a call does not take, or that are missing, are refused.
-/

set_option autoImplicit false

namespace Tracemark.Log

inductive Call where
  | toConsole (verbosity : Verbosity)
  | toBuild
  | toLibrary
  | configure (verbosity : Verbosity)
  | log (severity : Severity) (message subtype location : Value)
  | print (kind : ConsoleMessage) (appearance : Console.Appearance) (values : List Value)
deriving Repr

/-- The parameters of a call: those that may be given by position, those that only
a name gives, and those that have to be given. -/
structure Parameters where
  positional : List String := []
  named : List String := []
  required : List String := []
deriving Repr

def bindArguments (parameters : Parameters) (arguments : List Value) (named : Members) :
    Except Fault Members :=
  let given := parameters.positional.zip arguments
  let isFree (name : String) : Bool :=
    (parameters.positional ++ parameters.named).contains name && !(given.map (·.1)).contains name
  let bound := given ++ named
  if arguments.length ≤ parameters.positional.length && named.all (fun member => isFree member.1) &&
      parameters.required.all (fun name => Members.has bound name) then .ok bound
  else .error (.mismatch .unfit)

def verbosityParameters : Parameters :=
  { positional := ["verbose", "quiet"] }

def verbosityOf (arguments : Members) : Verbosity :=
  let flag (name : String) : Bool := ((arguments.get? name).getD (.bool false)).truthy
  ⟨flag "verbose", flag "quiet"⟩

def argument (arguments : Members) (name : String) (standard : Value) : Value :=
  (arguments.get? name).getD standard

def logCall (severity : Severity) (arguments : Members) : Call :=
  .log severity (argument arguments "msg" .null) (argument arguments "subtype" (.text ""))
    (argument arguments "location" .null)

/-- Names of arguments that only change how a console line looks. -/
def appearanceNames : ConsoleMessage → List String
  | .info => ["style", "highlight", "markup", "no_wrap", "console"]
  | _ => ["style", "highlight", "markup", "console"]

def printCall (kind : ConsoleMessage) (arguments : List Value) (named : Members) :
    Except Fault Call :=
  if named.all fun member => (appearanceNames kind).contains member.1 then
    .ok (.print kind
      { style := argument named "style" .null
        markup := argument named "markup" (.bool false)
        console := argument named "console" .null }
      arguments)
  else .error (.mismatch .unfit)

inductive Purpose where
  | toConsole
  | toBuild
  | toLibrary
  | configure
  | debug
  | info
  | warning
  | print (kind : ConsoleMessage)
deriving Repr, DecidableEq

def messageParameters : Parameters :=
  { positional := ["msg"], named := ["location"], required := ["msg"] }

def warningParameters : Parameters :=
  { messageParameters with named := ["subtype", "location"] }

def Call.ofArguments (purpose : Purpose) (arguments : List Value) (named : Members) :
    Except Fault Call :=
  let read (parameters : Parameters) (call : Members → Call) : Except Fault Call :=
    (bindArguments parameters arguments named).map call
  match purpose with
  | .toConsole => read verbosityParameters fun bound => .toConsole (verbosityOf bound)
  | .configure => read verbosityParameters fun bound => .configure (verbosityOf bound)
  | .toBuild => read {} fun _ => .toBuild
  | .toLibrary => read {} fun _ => .toLibrary
  | .debug => read messageParameters (logCall .debug)
  | .info => read messageParameters (logCall .info)
  | .warning => read warningParameters (logCall .warning)
  | .print kind => printCall kind arguments named

namespace Router

/-- The name under which a library gets records: any value that counts as false
stands for no name. -/
def checkLibraryName (router : Router) : Except Fault Unit :=
  match router.name with
  | .text _ => .ok ()
  | value => if value.truthy then .error (.mismatch .unfit) else .ok ()

/-- The name under which a build gets records has to be a text. -/
def checkBuildName (router : Router) : Except Fault Unit :=
  router.name.asText.map fun _ => ()

def logged (router : Router) (severity : Severity) (message subtype location : Value) :
    Except Fault (List Emission) := do
  match router.frontend, severity with
  | .library, .warning =>
      router.checkLibraryName
      return [.library message.shown]
  | .library, _ =>
      router.checkLibraryName
      return []
  | .console, .debug => router.printValues .debug {} [message]
  | .console, .info => router.printValues .info {} [message]
  | .console, .warning => return [.error (← Console.printed {} [message])]
  | .documentation, .debug =>
      router.checkBuildName
      return [.build { level := .verbose, message := message.shown }]
  | .documentation, .info =>
      router.checkBuildName
      return [.build { level := .info, message := message.shown }]
  | .documentation, .warning =>
      let shown ← router.buildMessageOf message subtype
      router.checkBuildName
      return [.build {
        level := .warning
        message := shown
        type := .text "codelinks"
        subtype := subtype
        location := location }]

def perform (router : Router) : Call → Router × Except Fault (List Emission)
  | .toConsole verbosity =>
      ({ router with frontend := .console, verbosity := verbosity }, .ok [])
  | .toBuild => ({ router with frontend := .documentation }, .ok [])
  | .toLibrary => ({ router with frontend := .library }, .ok [])
  | .configure verbosity => ({ router with verbosity := verbosity }, .ok [])
  | .log severity message subtype location =>
      (router, router.logged severity message subtype location)
  | .print kind appearance values => (router, router.printValues kind appearance values)

end Router

end Tracemark.Log
