import Tracemark.Schema.Basic

/-!
# Relevance of violations

The most relevant violation lies as near to the whole value as possible; among those
the place that comes last decides, then violations that are more than a choice of
alternatives, then those of a value of the wrong kind. Where no alternative fits, the
report goes on to the least of the alternatives' violations, unless two of them are
equally little.
-/

set_option autoImplicit false

namespace Tracemark.Schema

/-- The order of steps: positions by number, keys by characters. -/
def compareSteps : Step → Step → Ordering
  | .index left, .index right => compare left right
  | .key left, .key right => compare left right
  | .index _, .key _ => .lt
  | .key _, .index _ => .gt

/-- The order of places: step by step, a place before those that go on from it. -/
def comparePlaces : List Step → List Step → Ordering
  | [], [] => .eq
  | [], _ :: _ => .lt
  | _ :: _, [] => .gt
  | left :: restLeft, right :: restRight =>
      (compareSteps left right).then (comparePlaces restLeft restRight)

namespace Violation

def compareRelevance (left right : Violation) : Ordering :=
  ((compare right.place.length left.place.length).then
    (comparePlaces left.place right.place)).then
  ((compare (!left.isAlternative) (!right.isAlternative)).then
    (compare (!left.fitsType) (!right.fitsType)))

end Violation

/-- The most relevant violation, the first of those that are equally relevant. -/
def mostRelevant (first : Violation) (others : List Violation) : Violation :=
  others.foldl (fun best other =>
    if best.compareRelevance other == .lt then other else best) first

/-- Violations by relevance, the least first; equally relevant ones keep their
order. -/
def byRelevance (found : List Violation) : List Violation :=
  found.mergeSort fun left right => left.compareRelevance right != .gt

/-- Follows the alternatives down to the violation that is reported. The first
argument bounds the depth. -/
def descend : Nat → Violation → Violation
  | 0, violation => violation
  | depth + 1, violation =>
      match byRelevance violation.alternatives with
      | [] => violation
      | [only] => descend depth only
      | least :: next :: _ =>
          if least.compareRelevance next == .eq then violation else descend depth least

def depthOf : Violation → Nat
  | .mk _ _ _ _ alternatives => depthOfAll alternatives + 1
where
  /-- How deeply alternatives are nested in the deepest of some violations. -/
  depthOfAll : List Violation → Nat
    | [] => 0
    | violation :: rest => max (depthOf violation) (depthOfAll rest)

def mostTelling (first : Violation) (others : List Violation) : Violation :=
  let best := mostRelevant first others
  descend (depthOf best) best

end Tracemark.Schema
