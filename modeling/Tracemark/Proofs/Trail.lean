import Tracemark.Trail

/-!
# Laws of trails
-/

set_option autoImplicit false

namespace Tracemark.Trail

variable {α β : Type}

def map (change : α → β) (trail : Trail α) : Trail β :=
  ⟨trail.found.map change, trail.fault⟩

theorem map_id (trail : Trail α) : trail.map id = trail := by
  rw [map, List.map_id]

theorem map_eq_empty_iff {change : α → β} {trail : Trail α} : trail.map change = {} ↔ trail = {} := by
  obtain ⟨found, fault⟩ := trail
  simp [map]

theorem followedBy_empty (trail : Trail α) : (trail.followedBy fun _ => {}) = trail := by
  obtain ⟨found, fault⟩ := trail
  cases fault with
  | some cause => rfl
  | none => simp [followedBy, after]

theorem followedBy_assoc (first : Trail α) (second third : Unit → Trail α) :
    (first.followedBy second).followedBy third =
      first.followedBy fun _ => (second ()).followedBy third := by
  obtain ⟨found, fault⟩ := first
  cases fault with
  | some cause => rfl
  | none =>
      cases stopped : (second ()).fault with
      | some cause => simp [followedBy, after, stopped]
      | none => simp [followedBy, after, stopped]

theorem followedBy_eq_self_iff {first : Trail α} (sound : first.fault = none)
    (second : Unit → Trail α) : first.followedBy second = first ↔ second () = {} := by
  obtain ⟨found, fault⟩ := first
  cases sound
  rcases next : second () with ⟨later, cause⟩
  simp [followedBy, after, next]

theorem along_singleton (step : α → Trail β) (item : α) : along step [item] = step item :=
  followedBy_empty _

theorem along_eq_empty {step : α → Trail β} {items : List α} (nothing : ∀ item ∈ items, step item = {}) :
    along step items = {} := by
  induction items with
  | nil => rfl
  | cons item rest ih =>
      obtain ⟨first, others⟩ := List.forall_mem_cons.mp nothing
      rw [along, first, ih others]
      rfl

theorem along_append (step : α → Trail β) (first second : List α) :
    along step (first ++ second) = (along step first).followedBy fun _ => along step second := by
  induction first with
  | nil => rfl
  | cons item rest ih => rw [List.cons_append, along, along, ih, followedBy_assoc]

theorem mem_along {step : α → Trail β} {items : List α} {result : β}
    (member : result ∈ (along step items).found) : ∃ item ∈ items, result ∈ (step item).found := by
  induction items with
  | nil => cases member
  | cons item rest ih =>
      simp only [along, followedBy] at member
      split at member
      · exact ⟨item, List.mem_cons_self, member⟩
      · rcases List.mem_append.mp member with first | later
        · exact ⟨item, List.mem_cons_self, first⟩
        · obtain ⟨other, isOther, found⟩ := ih later
          exact ⟨other, List.mem_cons_of_mem _ isOther, found⟩

theorem exists_of_fault_along {step : α → Trail β} {items : List α} {fault : Fault}
    (failed : (along step items).fault = some fault) :
    ∃ item ∈ items, (step item).fault = some fault := by
  induction items with
  | nil => cases failed
  | cons item rest ih =>
      simp only [along, followedBy] at failed
      split at failed
      · exact ⟨item, List.mem_cons_self, failed⟩
      · obtain ⟨other, isOther, stopped⟩ := ih failed
        exact ⟨other, List.mem_cons_of_mem _ isOther, stopped⟩

end Tracemark.Trail
