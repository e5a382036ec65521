import Tracemark.Fault
import Tracemark.Number.Binary64

/-!
# Measured times

The times that functions take are collected by category and function: how often a
function was called, the overall, least and greatest time, and from these the
average and the spread. The clock gives whole numbers.
-/

set_option autoImplicit false

namespace Tracemark.Measure

structure Entry where
  name : Value
  category : Value
  source : Value
  amount : Nat := 0
  overall : Int := 0
  average : Option Binary64 := none
  least : Option Int := none
  greatest : Option Int := none
  spread : Option Binary64 := none
  longestArguments : String := "[]"
  longestNamed : String := "\x7b\x7d"
deriving Repr

/-- A call of a measured function. Category, source and name are those under which
it is measured; a name that is nothing leaves the function's own name. -/
structure Call where
  function : String
  arguments : List Value
  named : Members
  category : Value := .null
  source : Value := .text "internal"
  name : Value := .null
deriving Repr

namespace Call

/-- What it can be said under which a call is measured. -/
def traitNames : List String := ["category", "source", "name"]

def measured (function : String) (arguments : List Value) (named traits : Members) :
    Except Fault Call :=
  if traits.keys.all traitNames.contains then
    .ok {
      function := function
      arguments := arguments
      named := named
      category := (traits.get? "category").getD .null
      source := (traits.get? "source").getD (.text "internal")
      name := (traits.get? "name").getD .null }
  else .error (.mismatch .unfit)

def key (call : Call) : String :=
  s!"{call.category.shown}_{call.function}"

def shownName (call : Call) : Value :=
  if call.name.isNull then .text call.function else call.name

/-- What the measured functions answer: the number of their arguments. -/
def result (call : Call) : Nat :=
  call.arguments.length + call.named.length

/-- How much of an argument is kept. -/
def keptLength : Nat := 80

def kept (argument : Value) : Value :=
  .text (String.ofList (argument.shown.toList.take keptLength))

def argumentsText (call : Call) : String :=
  (Value.list (call.arguments.map kept)).written

def namedText (call : Call) : String :=
  (Value.object (call.named.map fun (name, value) => (name, kept value))).written

end Call

namespace Entry

def ofCall (call : Call) : Entry :=
  { name := call.shownName, category := call.category, source := call.source }

/-- The entry with another time, before average and spread. The arguments of the
first call with the greatest time are kept. -/
def count (entry : Entry) (call : Call) (time : Int) : Entry :=
  let isLongest : Bool :=
    match entry.greatest with
    | some greatest => greatest < time
    | none => true
  { entry with
    amount := entry.amount + 1
    overall := entry.overall + time
    least := some (match entry.least with | some least => min least time | none => time)
    greatest := some (match entry.greatest with | some greatest => max greatest time | none => time)
    longestArguments := if isLongest then call.argumentsText else entry.longestArguments
    longestNamed := if isLongest then call.namedText else entry.longestNamed }

/-- A quotient of whole numbers. It cannot be by zero, or too large. -/
def ratio (dividend divisor : Int) : Except Fault Binary64 :=
  if divisor == 0 then .error .divisionByZero
  else
    let quotient := Binary64.quotient dividend divisor
    if quotient.isInfinite then .error .tooLarge else .ok quotient

/-- The entry with its spread: the greatest time in percent of the least one. -/
def withSpread (entry : Entry) : Except Fault Entry :=
  match entry.least, entry.greatest with
  | some least, some greatest =>
      return { entry with spread := some ((← ratio greatest least).times 100) }
  | _, _ => .ok entry

def withAverage (entry : Entry) : Except Fault Entry := do
  return { entry with average := some (← ratio entry.overall entry.amount) }

/-- The entry with spread and average, as far as there are such numbers. -/
def summarized (entry : Entry) : Entry × Option Fault :=
  match entry.withSpread with
  | .error fault => (entry, some fault)
  | .ok spread =>
      match spread.withAverage with
      | .error fault => (spread, some fault)
      | .ok complete => (complete, none)

end Entry

/-- Entries by what they are collected under, oldest first. -/
abbrev Entries := List (String × Entry)

namespace Entries

def get? (entries : Entries) (key : String) : Option Entry :=
  (entries.find? fun entry => entry.1 == key).map (·.2)

/-- Gives a key an entry: one that exists keeps its place, a new one comes last. -/
def put (key : String) (entry : Entry) : Entries → Entries
  | [] => [(key, entry)]
  | current :: rest =>
      if current.1 == key then (key, entry) :: rest else current :: put key entry rest

/-- Collects the time of a call. What was counted stays when there is no spread or
average. -/
def collect (entries : Entries) (call : Call) (time : Int) : Entries × Option Fault :=
  let counted := ((entries.get? call.key).getD (.ofCall call)).count call time
  let (entry, fault) := counted.summarized
  (entries.put call.key entry, fault)

end Entries

/-- The state of measuring: whether times are measured, when the build started,
what the clock will give, and what was collected. -/
structure State where
  enabled : Bool := false
  started : Value := .int 0
  clock : List Int := []
  entries : Entries := []
deriving Repr

namespace State

/-- Looks at the clock. A clock that has run down stays at zero. -/
def tick (state : State) : Int × State :=
  (state.clock.headD 0, { state with clock := state.clock.drop 1 })

/-- Calls a function; its time is measured if that is enabled. -/
def call (state : State) (measured : Call) : State × Except Fault Nat :=
  if state.enabled then
    let (start, running) := state.tick
    let (stop, done) := running.tick
    match done.entries.collect measured (stop - start) with
    | (entries, none) => ({ done with entries := entries }, .ok measured.result)
    | (entries, some fault) => ({ done with entries := entries }, .error fault)
  else (state, .ok measured.result)

end State

end Tracemark.Measure
