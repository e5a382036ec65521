import Mathlib.Data.List.Forall2
import Tracemark.Session

/-!
# Steps that can fail

A sequence of steps that succeeds has succeeded in each of its steps.
-/

set_option autoImplicit false

namespace Tracemark.Result

variable {ε α β : Type}

theorem bind_eq_ok_iff {action : Except ε α} {next : α → Except ε β} {output : β} :
    (action >>= next) = .ok output ↔ ∃ value, action = .ok value ∧ next value = .ok output := by
  cases action with
  | error cause =>
      constructor
      · intro succeeded
        cases succeeded
      · rintro ⟨value, ⟨⟩, _⟩
  | ok first =>
      constructor
      · intro succeeded
        exact ⟨first, rfl, succeeded⟩
      · rintro ⟨value, ⟨⟩, succeeded⟩
        exact succeeded

theorem exists_bind_eq_ok_iff {action : Except ε α} {next : α → Except ε β} :
    (∃ output, (action >>= next) = .ok output) ↔
      ∃ value, action = .ok value ∧ ∃ output, next value = .ok output := by
  simp only [bind_eq_ok_iff]
  rw [exists_comm]
  simp only [exists_and_left]

theorem exists_pure_eq_ok (value : α) : ∃ output, (pure value : Except ε α) = .ok output :=
  ⟨value, rfl⟩

theorem map_eq_ok_iff {action : Except ε α} {change : α → β} {output : β} :
    action.map change = .ok output ↔ ∃ value, action = .ok value ∧ change value = output := by
  cases action with
  | error cause => simp [Except.map]
  | ok value => simp [Except.map]

theorem map_eq_error_iff {action : Except ε α} {change : α → β} {cause : ε} :
    action.map change = .error cause ↔ action = .error cause := by
  cases action with
  | error other => simp [Except.map]
  | ok value => simp [Except.map]

theorem isOk_map (action : Except ε α) (change : α → β) :
    (action.map change).isOk = action.isOk := by
  cases action <;> rfl

theorem forall₂_of_mapM {step : α → Except ε β} {items : List α} {results : List β}
    (mapped : items.mapM step = .ok results) :
    List.Forall₂ (fun item result => step item = .ok result) items results := by
  induction items generalizing results with
  | nil =>
      cases mapped
      exact .nil
  | cons item rest ih =>
      simp only [List.mapM_cons, bind_eq_ok_iff] at mapped
      obtain ⟨result, first, others, later, finished⟩ := mapped
      cases finished
      exact .cons first (ih later)

theorem exists_of_mem_mapM {step : α → Except ε β} {items : List α} {results : List β}
    (mapped : items.mapM step = .ok results) {item : α} (member : item ∈ items) :
    ∃ result ∈ results, step item = .ok result := by
  induction items generalizing results with
  | nil => cases member
  | cons first rest ih =>
      simp only [List.mapM_cons, bind_eq_ok_iff] at mapped
      obtain ⟨result, isFirst, others, later, finished⟩ := mapped
      cases finished
      rcases List.mem_cons.mp member with rfl | inRest
      · exact ⟨result, List.mem_cons_self, isFirst⟩
      · obtain ⟨other, isOther, found⟩ := ih later inRest
        exact ⟨other, List.mem_cons_of_mem _ isOther, found⟩

/-- Where every item has a result of which something is known, so have all items together. -/
theorem exists_mapM {γ : Type} {step : α → Except ε β} {view : β → γ} {known : α → γ}
    {items : List α} (succeeds : ∀ item ∈ items, ∃ result, step item = .ok result ∧ view result = known item) :
    ∃ results, items.mapM step = .ok results ∧ results.map view = items.map known := by
  induction items with
  | nil => exact ⟨[], rfl, rfl⟩
  | cons item rest ih =>
      obtain ⟨⟨result, first, isKnown⟩, others⟩ := List.forall_mem_cons.mp succeeds
      obtain ⟨results, later, areKnown⟩ := ih others
      refine ⟨result :: results, ?_, by rw [List.map_cons, List.map_cons, isKnown, areKnown]⟩
      rw [List.mapM_cons, bind_eq_ok_iff]
      exact ⟨result, first, bind_eq_ok_iff.mpr ⟨results, later, rfl⟩⟩

theorem exists_mapM_eq_ok_iff {step : α → Except ε β} {items : List α} :
    (∃ results, items.mapM step = .ok results) ↔ ∀ item ∈ items, ∃ result, step item = .ok result := by
  constructor
  · rintro ⟨results, mapped⟩ item member
    obtain ⟨result, _, first⟩ := exists_of_mem_mapM mapped member
    exact ⟨result, first⟩
  · intro succeeds
    have seen : ∀ item ∈ items, ∃ result, step item = .ok result ∧ () = () := by
      simpa using succeeds
    obtain ⟨results, mapped, _⟩ :=
      @exists_mapM ε α β Unit step (fun _ => ()) (fun _ => ()) items seen
    exact ⟨results, mapped⟩

theorem fst_of_named {γ : Type} {name : γ} {action : Except ε α} {named : γ × α}
    (succeeded : (do return (name, ← action)) = (.ok named : Except ε (γ × α))) : named.1 = name := by
  obtain ⟨_, _, same⟩ := bind_eq_ok_iff.mp succeeded
  cases same
  rfl

/-- What is known of each result is known of all results together. -/
theorem map_of_mapM {γ : Type} {step : α → Except ε β} {view : β → γ} {known : α → γ}
    {items : List α} {results : List β}
    (agree : ∀ item result, step item = .ok result → view result = known item)
    (mapped : items.mapM step = .ok results) : results.map view = items.map known := by
  have related := (forall₂_of_mapM mapped).imp agree
  rw [← List.forall₂_eq_eq_eq, List.forall₂_map_left_iff, List.forall₂_map_right_iff]
  exact related.flip

/-- Some of the items have the results that belong to them. -/
theorem mapM_filter {step : α → Except ε β} {wanted : α → Bool} {kept : β → Bool} {items : List α}
    {results : List β}
    (agree : ∀ item result, step item = .ok result → kept result = wanted item)
    (mapped : items.mapM step = .ok results) :
    (items.filter wanted).mapM step = .ok (results.filter kept) := by
  induction items generalizing results with
  | nil =>
      cases mapped
      rfl
  | cons item rest ih =>
      simp only [List.mapM_cons, bind_eq_ok_iff] at mapped
      obtain ⟨result, first, others, later, finished⟩ := mapped
      cases finished
      have mappedRest := ih later
      rw [List.filter_cons, List.filter_cons, agree item result first]
      split
      · rw [List.mapM_cons, bind_eq_ok_iff]
        exact ⟨result, first, bind_eq_ok_iff.mpr ⟨_, mappedRest, rfl⟩⟩
      · exact mappedRest

/-- What is done in two parts comes to a result exactly when both parts do, the second in
the state that the first leaves. -/
theorem run_bind_eq_ok_iff {σ : Type} {first : ExceptT ε (StateM σ) α}
    {second : α → ExceptT ε (StateM σ) β} {state after : σ} {output : β} :
    (first >>= second).run.run state = (.ok output, after) ↔
      ∃ value middle, first.run.run state = (.ok value, middle) ∧
        (second value).run.run middle = (.ok output, after) := by
  rw [ExceptT.run_bind, StateT.run_bind]
  rcases first.run.run state with ⟨outcome, middle⟩
  cases outcome with
  | error fault =>
      constructor
      · intro succeeded
        cases succeeded
      · rintro ⟨value, left, ⟨⟩, _⟩
  | ok value =>
      constructor
      · intro succeeded
        exact ⟨value, middle, rfl, succeeded⟩
      · rintro ⟨other, left, ⟨⟩, succeeded⟩
        exact succeeded

theorem run_bind_of_ok {σ : Type} {first : ExceptT ε (StateM σ) α}
    {state middle : σ} {value : α} (ran : first.run.run state = (.ok value, middle))
    (second : α → ExceptT ε (StateM σ) β) :
    (first >>= second).run.run state = (second value).run.run middle := by
  rw [ExceptT.run_bind, StateT.run_bind, ran]
  rfl

theorem run_bind_of_error {σ : Type} {first : ExceptT ε (StateM σ) α}
    {state middle : σ} {fault : ε} (ran : first.run.run state = (.error fault, middle))
    (second : α → ExceptT ε (StateM σ) β) :
    (first >>= second).run.run state = (.error fault, middle) := by
  rw [ExceptT.run_bind, StateT.run_bind, ran]
  rfl

/-- What is done in two parts ends where the first part fails, or else where the second does. -/
theorem run_bind_cases {σ : Type} {first : ExceptT ε (StateM σ) α}
    {second : α → ExceptT ε (StateM σ) β} {state after : σ} {result : Except ε β}
    (ran : (first >>= second).run.run state = (result, after)) :
    (∃ fault, first.run.run state = (.error fault, after) ∧ result = .error fault) ∨
      ∃ value middle, first.run.run state = (.ok value, middle) ∧
        (second value).run.run middle = (result, after) := by
  rw [ExceptT.run_bind, StateT.run_bind] at ran
  revert ran
  rcases first.run.run state with ⟨outcome, middle⟩
  intro ran
  cases outcome with
  | error fault =>
      cases ran
      exact .inl ⟨fault, rfl, rfl⟩
  | ok value => exact .inr ⟨value, middle, rfl, ran⟩

theorem eq_ok_of_toOption {action : Except ε α} {value : α} (found : action.toOption = some value) :
    action = .ok value := by
  cases action with
  | error cause => cases found
  | ok other => exact congrArg Except.ok (Option.some.inj found)

theorem eq_of_toOption_fst {σ : Type} {outcome : Except ε α × σ} {result : α}
    (evaluated : outcome.1.toOption = some result) : outcome = (.ok result, outcome.2) :=
  Prod.ext (eq_ok_of_toOption evaluated) rfl

/-- An outcome of which something can be seen is a result. -/
theorem exists_ok_of_view {σ : Type} {outcome : Except ε α × σ} {view : α → β} {seen : β}
    (evaluated : (outcome.1.map view).toOption = some seen) :
    ∃ result after, outcome = (.ok result, after) ∧ view result = seen := by
  obtain ⟨outcome, after⟩ := outcome
  cases outcome with
  | error cause => cases evaluated
  | ok result => exact ⟨result, after, rfl, Option.some.inj evaluated⟩

end Tracemark.Result
