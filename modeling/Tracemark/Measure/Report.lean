import Tracemark.Measure.Basic
import Tracemark.Path

/-!
# Reports on measured times

Measured times are printed, and stored with data on the build as JSON and as a
page.
-/

set_option autoImplicit false

namespace Tracemark.Measure

/-- The places that times are shown with. -/
def shownPlaces : Nat := 6

/-- A time as it is printed; one that is missing cannot be. -/
def shownNumber : Option Binary64 → Except Fault String
  | some number => .ok (number.toFixed shownPlaces)
  | none => .error (.mismatch .unfit)

/-- A whole time as it is printed. It can be too large, or missing. -/
def shownTime : Option Int → Except Fault String
  | some time =>
      let number := Binary64.ofInt time
      if number.isInfinite then .error .tooLarge else shownNumber (some number)
  | none => .error (.mismatch .unfit)

def Entry.printed (entry : Entry) : Except Fault String := do
  let name := entry.name.shown
  let overall ← shownTime (some entry.overall)
  let average ← shownNumber entry.average
  let greatest ← shownTime entry.greatest
  let least ← shownTime entry.least
  return s!"{name}\n amount:  {entry.amount}\n overall: {overall}\n avg:     {average}\n" ++
    s!" max:     {greatest}\n min:     {least} \n\n"

def Entries.printed (entries : Entries) : Except Fault String := do
  return String.join (← entries.mapM fun entry => entry.2.printed)

structure BuildTimes where
  project : Value
  start : Value
  stop : Int
  duration : Value
deriving Repr

namespace BuildTimes

def toMembers (times : BuildTimes) : Members :=
  [("project", times.project), ("start", times.start), ("end", .int times.stop),
    ("duration", times.duration)]

end BuildTimes

/-- A character on a page: those with a meaning there are escaped. -/
def escapedChar (c : Char) : List Char :=
  match c with
  | '&' => "&amp;".toList
  | '<' => "&lt;".toList
  | '>' => "&gt;".toList
  | '"' => "&#34;".toList
  | '\'' => "&#39;".toList
  | other => [other]

def escapedText (text : String) : String :=
  String.ofList (text.toList.flatMap escapedChar)

def pageRow (values : List String) : String :=
  String.intercalate " " (values.map escapedText)

def page (times : BuildTimes) (entries : Entries) : String :=
  let head := pageRow [times.project.shown, times.start.shown, toString times.stop,
    times.duration.shown]
  head ++ String.join (entries.map fun (key, entry) =>
    "|" ++ pageRow [key, entry.name.shown, toString entry.amount, entry.longestArguments])

def storedLine (output : Path) : String :=
  let file := (output.child "debug_measurement.json").text
  s!"Timing measurement results (JSON) stored under {file}\n"

def pageLine (output : Path) : String :=
  let file := (output.child "debug_measurement.html").text
  s!"Timing measurement report (HTML) stored under {file}\n"

structure Report where
  printed : String
  times : BuildTimes
  page : String
deriving Repr

def timeSince (start : Value) (now : Int) : Except Fault Value :=
  match start with
  | .real number =>
      let end_ := Binary64.ofInt now
      if end_.isInfinite then .error .tooLarge else .ok (.real (end_.minus number))
  | other =>
      match other.whole? with
      | some time => .ok (.int (now - time))
      | none => .error (.mismatch .unfit)

namespace State

/-- Reports on the measured times at the end of a build, if they are measured. The
clock is looked at for the end and once more for the duration. -/
def report (state : State) (project : Value) (output : Path) :
    State × Except Fault (Option Report) :=
  if state.enabled then
    let (stop, running) := state.tick
    let (now, done) := running.tick
    (done, do
      let times : BuildTimes := ⟨project, state.started, stop, ← timeSince state.started now⟩
      let printed ← done.entries.printed
      return some ⟨printed ++ storedLine output ++ pageLine output, times,
        Measure.page times done.entries⟩)
  else (state, .ok none)

end State

end Tracemark.Measure
