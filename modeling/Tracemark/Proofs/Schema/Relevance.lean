import Tracemark.Libraries.Reference
import Tracemark.Proofs.Schema.Reported

/-!
# Reports by relevance

The order of relevance is a preorder. The violation that is picked by it is what a chosen violation
leads to.
-/

set_option autoImplicit false

namespace Tracemark.Schema

open Std (TransCmp OrientedCmp)

/-! ## The order of relevance -/

/-- Positions come before keys. -/
def Step.rank : Step → Nat
  | .index _ => 0
  | .key _ => 1

def Step.position : Step → Nat
  | .index position => position
  | .key _ => 0

def Step.name : Step → String
  | .index _ => ""
  | .key name => name

theorem compareSteps_eq :
    compareSteps = compareLex (compareOn Step.rank)
      (compareLex (compareOn Step.position) (compareOn Step.name)) := by
  funext left right
  cases left with
  | index position =>
      cases right with
      | index other =>
          simp [compareSteps, compareLex, compareOn, Step.rank, Step.position, Step.name]
      | key other => rfl
  | key name =>
      cases right with
      | index other => rfl
      | key other => rfl

instance : TransCmp compareSteps :=
  compareSteps_eq ▸ inferInstance

theorem comparePlaces_eq : comparePlaces = List.compareLex compareSteps := by
  funext left right
  induction left generalizing right with
  | nil => cases right <;> rfl
  | cons step left ih =>
      cases right with
      | nil => rfl
      | cons other right => rw [comparePlaces, ih, List.compareLex_cons_cons]

instance : TransCmp comparePlaces :=
  comparePlaces_eq ▸ inferInstance

theorem compareSteps_eq_eq_iff {left right : Step} : compareSteps left right = .eq ↔ left = right := by
  cases left <;> cases right <;> simp [compareSteps]

theorem comparePlaces_eq_eq_iff {left right : List Step} :
    comparePlaces left right = .eq ↔ left = right := by
  induction left generalizing right with
  | nil => cases right <;> simp [comparePlaces]
  | cons step left ih =>
      cases right with
      | nil => simp [comparePlaces]
      | cons other right =>
          simp [comparePlaces, Ordering.then_eq_eq, compareSteps_eq_eq_iff, ih]

namespace Violation

private instance transCmp_length :
    TransCmp fun left right : Violation => compare right.place.length left.place.length where
  eq_swap := OrientedCmp.eq_swap
  isLE_trans first second := TransCmp.isLE_trans second first

private instance transCmp_place :
    TransCmp fun left right : Violation => comparePlaces left.place right.place where
  eq_swap := OrientedCmp.eq_swap
  isLE_trans := TransCmp.isLE_trans

instance : TransCmp compareRelevance :=
  inferInstanceAs (TransCmp (compareLex
    (compareLex (fun left right : Violation => compare right.place.length left.place.length)
      fun left right => comparePlaces left.place right.place)
    (compareLex (compareOn fun violation => !violation.isAlternative)
      (compareOn fun violation => !violation.fitsType))))

theorem compareRelevance_self (violation : Violation) :
    violation.compareRelevance violation = .eq :=
  Std.ReflCmp.compare_self

theorem outranks_of_compareRelevance {left right : Violation}
    (relevant : left.compareRelevance right ≠ .lt) : left.Outranks right := by
  unfold compareRelevance at relevant
  refine ⟨?_, ?_, ?_⟩
  · by_contra longer
    have less : compare right.place.length left.place.length = .lt :=
      Nat.compare_eq_lt.mpr (Nat.lt_of_not_le longer)
    simp [less] at relevant
  · intro same less
    simp [same, less] at relevant
  · intro same isChoice
    have equal : comparePlaces right.place right.place = .eq := comparePlaces_eq_eq_iff.mpr rfl
    cases other : right.isAlternative with
    | true => rfl
    | false =>
        have less : compare false true = .lt := rfl
        simp [same, equal, isChoice, other, less] at relevant

end Violation

/-! ## The most relevant violation -/

theorem greatest_mostRelevant (first : Violation) (others : List Violation) :
    mostRelevant first others ∈ first :: others ∧
      ∀ other ∈ first :: others, (mostRelevant first others).compareRelevance other ≠ .lt := by
  induction others generalizing first with
  | nil =>
      refine ⟨List.mem_singleton_self _, ?_⟩
      intro other member
      rw [List.mem_singleton.mp member, mostRelevant, List.foldl_nil,
        Violation.compareRelevance_self]
      decide
  | cons next others ih =>
      unfold mostRelevant
      rw [List.foldl_cons]
      split
      · rename_i less
        obtain ⟨member, greatest⟩ := ih next
        refine ⟨List.mem_cons_of_mem _ member, ?_⟩
        intro other member
        rcases List.mem_cons.mp member with rfl | later
        · -- The first gave way to the next, so what is below the first is below the next.
          intro smaller
          have smallest := TransCmp.lt_trans smaller (beq_iff_eq.mp less)
          exact greatest next List.mem_cons_self smallest
        · exact greatest other later
      · rename_i notLess
        obtain ⟨isMember, greatest⟩ := ih first
        refine ⟨?_, ?_⟩
        · rcases List.mem_cons.mp isMember with isFirst | later
          · exact List.mem_cons.mpr (.inl isFirst)
          · exact List.mem_cons_of_mem _ (List.mem_cons_of_mem _ later)
        · intro other member
          rcases List.mem_cons.mp member with isFirst | later
          · exact greatest other (isFirst ▸ List.mem_cons_self)
          · rcases List.mem_cons.mp later with rfl | later
            · intro smaller
              have least : other.compareRelevance first ≠ .gt := fun greater =>
                notLess (beq_iff_eq.mpr (OrientedCmp.gt_iff_lt.mp greater))
              have smallest := TransCmp.lt_of_lt_of_isLE smaller (Ordering.isLE_iff_ne_gt.mpr least)
              exact greatest first List.mem_cons_self smallest
            · exact greatest other (List.mem_cons_of_mem _ later)

/-! ## The least relevant alternative -/

theorem descend_of_plain {violation : Violation} (plain : violation.alternatives = []) (depth : Nat) :
    descend depth violation = violation := by
  cases depth with
  | zero => rfl
  | succ depth => simp [descend, plain, byRelevance]

private theorem isLE_trans {first second third : Violation}
    (earlier : (first.compareRelevance second != .gt) = true)
    (later : (second.compareRelevance third != .gt) = true) :
    (first.compareRelevance third != .gt) = true := by
  rw [bne_iff_ne, Ne, Ordering.ne_gt_iff_isLE] at *
  exact TransCmp.isLE_trans earlier later

private theorem isLE_total (first second : Violation) :
    (first.compareRelevance second != .gt || second.compareRelevance first != .gt) = true := by
  have swapped : second.compareRelevance first = (first.compareRelevance second).swap :=
    OrientedCmp.eq_swap
  rw [swapped]
  cases first.compareRelevance second <;> rfl

theorem exists_least_of_descend {violation : Violation}
    (several : ∃ one ∈ violation.alternatives, ∃ other ∈ violation.alternatives,
      one.place ≠ other.place)
    (distinct : (violation.alternatives.map Violation.place).Nodup)
    (plain : ∀ alternative ∈ violation.alternatives, alternative.alternatives = []) :
    ∃ least ∈ violation.alternatives, descend (depthOf violation) violation = least ∧
      ∀ other ∈ violation.alternatives, other.compareRelevance least ≠ .lt := by
  have sorted : (byRelevance violation.alternatives).Pairwise fun left right =>
      (left.compareRelevance right != .gt) = true :=
    @List.pairwise_mergeSort _ (fun left right => left.compareRelevance right != .gt)
      (fun _ _ _ => isLE_trans) isLE_total violation.alternatives
  have same : (byRelevance violation.alternatives).Perm violation.alternatives :=
    List.mergeSort_perm _ _
  have isDepth : ∃ depth, depthOf violation = depth + 1 := by
    cases violation
    exact ⟨_, rfl⟩
  obtain ⟨depth, isDepth⟩ := isDepth
  obtain ⟨one, isOne, other, isOther, differ⟩ := several
  have isOne := same.symm.subset isOne
  have isOther := same.symm.subset isOther
  rw [isDepth, descend]
  rcases arranged : byRelevance violation.alternatives with _ | ⟨least, _ | ⟨next, rest⟩⟩
  · simp [arranged] at isOne
  · simp only [arranged, List.mem_singleton] at isOne isOther
    exact absurd (isOne.trans isOther.symm) (fun equal => differ (congrArg _ equal))
  · rw [arranged] at same sorted
    have isLeast : least ∈ violation.alternatives := same.subset List.mem_cons_self
    -- The descent would stop here if the two least relevant ones were equally relevant.
    have different : least.compareRelevance next ≠ .eq := by
      intro equal
      have places := (same.map Violation.place).nodup_iff.mpr distinct
      simp only [List.map_cons, List.nodup_cons, List.mem_cons, not_or] at places
      simp only [Violation.compareRelevance, Ordering.then_eq_eq, comparePlaces_eq_eq_iff] at equal
      exact places.1.1 equal.1.2
    refine ⟨least, isLeast, ?_, ?_⟩
    · dsimp only
      rw [if_neg (by simpa using different)]
      exact descend_of_plain (plain least isLeast) depth
    · intro other member smaller
      rcases List.mem_cons.mp (same.symm.subset member) with rfl | later
      · rw [Violation.compareRelevance_self] at smaller
        cases smaller
      · have notGreater := bne_iff_ne.mp (List.rel_of_pairwise_cons sorted later)
        exact notGreater (OrientedCmp.gt_iff_lt.mpr smaller)

theorem leadsTo_descend (violation : Violation) :
    violation.LeadsTo (descend (depthOf violation) violation) where
  plain noAlternatives := descend_of_plain noAlternatives _
  least several distinct plain := by
    obtain ⟨least, member, reached, smallest⟩ := exists_least_of_descend several distinct plain
    rw [reached]
    exact ⟨member, fun other isOther =>
      Violation.outranks_of_compareRelevance (smallest other isOther)⟩

theorem reportsByRelevance_reference : @ReportsByRelevance Libraries.reference := by
  intro first others
  obtain ⟨member, greatest⟩ := greatest_mostRelevant first others
  refine ⟨_, ⟨member, fun other isOther => ?_⟩, leadsTo_descend _⟩
  exact Violation.outranks_of_compareRelevance (greatest other isOther)

end Tracemark.Schema
