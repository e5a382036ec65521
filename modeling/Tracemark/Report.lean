import Tracemark.Text.Search

/-!
# Reports

Checks report what they find as lines of text. Neighbouring lines of one kind
have no order of their own and are put in the order of their characters, so that
a report depends only on what was found.
-/

set_option autoImplicit false

namespace Tracemark.Report

/-- The kinds of lines whose neighbours are put in order. -/
inductive LineKind where
  | schema
  | clash
  | other
deriving Repr, DecidableEq

def kindOf (line : String) : LineKind :=
  if "Schema validation error in ".toList.isPrefixOf line.toList then .schema
  else if "Marker ".toList.isPrefixOf line.toList &&
      " is defined multiple times".toList.isSuffixOf line.toList then .clash
  else .other

def arrangeRun (run : List String) : List String :=
  match run with
  | [] => []
  | first :: _ =>
      if kindOf first == .other then run
      else run.mergeSort fun left right => decide (left ≤ right)

/-- Each maximal run of neighbouring lines of one kind in order. -/
def arrange (lines : List String) : List String :=
  ((lines.splitBy fun left right => kindOf left == kindOf right).map arrangeRun).flatten

def arrangeText (text : String) : String :=
  String.intercalate "\n"
    (arrange ((Text.pieces '\n' text.toList).map String.ofList))

end Tracemark.Report
