import Tracemark.Console.Print
import Tracemark.Log.Record

/-!
# Routing of log records

Who uses the analysis decides where its records go. A library user gets warnings
only. On a command line, records are lines on the console. In a documentation
build, they join the build's own log.
-/

set_option autoImplicit false

namespace Tracemark.Log

/-- Who gets the records of an analysis. -/
inductive Frontend where
  | library
  | console
  | documentation
deriving Repr, DecidableEq

/-- How much the console shows. -/
structure Verbosity where
  verbose : Bool := false
  quiet : Bool := false
deriving Repr, DecidableEq

inductive Level where
  | verbose
  | info
  | warning
  | error
deriving Repr, DecidableEq

namespace Level

def name : Level → String
  | .verbose => "VERBOSE"
  | .info => "INFO"
  | .warning => "WARNING"
  | .error => "ERROR"

end Level

/-- A record in a build's log. Types, subtypes and locations need not be texts. -/
structure BuildRecord where
  level : Level
  message : String
  type : Value := .null
  subtype : Value := .null
  location : Value := .null
deriving Repr

inductive Emission where
  /-- A line on the standard output. -/
  | standard (line : String)
  /-- A line on the error output. -/
  | error (line : String)
  /-- A record in the log of a documentation build. -/
  | build (record : BuildRecord)
  /-- A warning for the user of a library. -/
  | library (message : String)
deriving Repr

/-- The kinds of messages that are printed on the console directly. -/
inductive ConsoleMessage where
  | debug
  | info
  | result
  | warning
  | error
deriving Repr, DecidableEq

/-- Where records go, how much the console shows, whether the build shows the type
of a warning by itself, and the name under which others get the records. -/
structure Router where
  frontend : Frontend := .library
  verbosity : Verbosity := {}
  buildShowsType : Bool := true
  name : Value := .text "tracemark"
deriving Repr

namespace Router

def shows (router : Router) : ConsoleMessage → Bool
  | .debug => router.verbosity.verbose && !router.verbosity.quiet
  | .info => !router.verbosity.quiet
  | .result => true
  | .warning => true
  | .error => true

/-- A line on the console: errors go to the error output, all else to the standard
output. -/
def consoleLine (kind : ConsoleMessage) (line : String) : Emission :=
  match kind with
  | .error => .error line
  | _ => .standard line

def print (router : Router) (kind : ConsoleMessage) (message : String) : List Emission :=
  if router.shows kind then [consoleLine kind (Console.plain message)] else []

/-- Prints values on the console. What is not shown is not looked at. -/
def printValues (router : Router) (kind : ConsoleMessage) (appearance : Console.Appearance)
    (values : List Value) : Except Fault (List Emission) := do
  if router.shows kind then return [consoleLine kind (← Console.printed appearance values)]
  else return []

def typeMark (subtype : Value) : String :=
  if subtype.truthy then s!" [codelinks.{subtype.shown}]" else " [codelinks]"

/-- The message of a warning in a build's log. A build that does not show the type
gets it as part of the message. -/
def buildMessage (router : Router) (message subtype : String) : String :=
  if router.buildShowsType then message else message ++ typeMark (.text subtype)

/-- The message of a warning in a build's log, where the message can be any value.
Only a text or a list can be made longer. -/
def buildMessageOf (router : Router) (message subtype : Value) : Except Fault String :=
  if router.buildShowsType then .ok message.shown
  else
    match message with
    | .text characters => .ok (characters ++ typeMark subtype)
    | .list items =>
        let marks := (typeMark subtype).toList.map fun c => Value.text (String.singleton c)
        .ok (Value.list (items ++ marks)).shown
    | _ => .error (.mismatch .unfit)

def route (router : Router) (record : Record) : List Emission :=
  match router.frontend, record with
  | .library, .warning message _ _ => [.library message]
  | .library, _ => []
  | .console, .debug message => router.print .debug message
  | .console, .info message => router.print .info message
  | .console, .warning message _ _ => [.error (Console.plain message)]
  | .documentation, .debug message => [.build { level := .verbose, message := message }]
  | .documentation, .info message => [.build { level := .info, message := message }]
  | .documentation, .warning message subtype location =>
      [.build {
        level := .warning
        message := router.buildMessage message subtype
        type := .text "codelinks"
        subtype := .text subtype
        location := (location.map Value.text).getD .null }]

def routeAll (router : Router) (records : List Record) : List Emission :=
  records.flatMap router.route

end Router

namespace Emission

/-- A line on the standard output that does not go through the console. -/
def uncolored (line : String) : Emission :=
  .standard (Console.colorless line)

def standardText (emissions : List Emission) : String :=
  String.join (emissions.filterMap fun emission =>
    match emission with
    | .standard line => some (line ++ "\n")
    | _ => none)

def errorText (emissions : List Emission) : String :=
  String.join (emissions.filterMap fun emission =>
    match emission with
    | .error line => some (line ++ "\n")
    | _ => none)

def buildRecords (emissions : List Emission) : List BuildRecord :=
  emissions.filterMap fun emission =>
    match emission with
    | .build record => some record
    | _ => none

def libraryWarnings (emissions : List Emission) : List String :=
  emissions.filterMap fun emission =>
    match emission with
    | .library message => some message
    | _ => none

end Emission

end Tracemark.Log
