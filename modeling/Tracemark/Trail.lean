import Tracemark.Fault

/-!
# Trails

A search that goes on until a fault ends it: what was found before the fault is
part of its outcome.
-/

set_option autoImplicit false

namespace Tracemark

/-- What was found, in order, and the fault that ended the search. -/
structure Trail (α : Type) where
  found : List α := []
  fault : Option Fault := none
deriving Repr

namespace Trail

/-- The trail that ends before it begins. -/
def failed {α : Type} (fault : Fault) : Trail α :=
  { fault := some fault }

/-- A trail with something found before it. -/
def after {α : Type} (trail : Trail α) (first : List α) : Trail α :=
  { trail with found := first ++ trail.found }

/-- One trail after another; after a fault there is no other. -/
def followedBy {α : Type} (first : Trail α) (second : Unit → Trail α) : Trail α :=
  match first.fault with
  | some _ => first
  | none => (second ()).after first.found

def along {α β : Type} (step : α → Trail β) : List α → Trail β
  | [] => {}
  | item :: rest => (step item).followedBy fun _ => along step rest

def result {α : Type} (trail : Trail α) : Except Fault (List α) :=
  match trail.fault with
  | some fault => .error fault
  | none => .ok trail.found

end Trail

end Tracemark
