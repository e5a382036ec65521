import Tracemark.Proofs.Result
import Tracemark.Value.Items
import Tracemark.Value.Key

/-!
# Missing keys

Most operations that fail do so for other reasons than a key that a mapping does not have.
-/

set_option autoImplicit false

namespace Tracemark

def Fault.isMissingKey : Fault → Bool
  | .missingKey _ => true
  | _ => false

namespace Result

variable {α β σ : Type}

/-- The operation finds all keys that it looks up. It may fail for other reasons. -/
def FindsKeys (result : Except Fault α) : Prop :=
  ∀ fault, result = .error fault → fault.isMissingKey = false

theorem findsKeys_ok (value : α) : FindsKeys (.ok value) := by
  intro fault failed
  cases failed

theorem findsKeys_error {fault : Fault} (other : fault.isMissingKey = false) :
    FindsKeys (.error fault : Except Fault α) := by
  intro cause failed
  cases failed
  exact other

namespace FindsKeys

theorem bind {action : Except Fault α} {next : α → Except Fault β} (first : FindsKeys action)
    (second : ∀ value, action = .ok value → FindsKeys (next value)) :
    FindsKeys (action >>= next) := by
  cases action with
  | error fault => exact findsKeys_error (first fault rfl)
  | ok value => exact second value rfl

theorem map {action : Except Fault α} (finds : FindsKeys action) (change : α → β) :
    FindsKeys (action.map change) := by
  cases action with
  | error fault => exact findsKeys_error (finds fault rfl)
  | ok value => exact findsKeys_ok _

theorem mapM {step : α → Except Fault β} {items : List α}
    (finds : ∀ item ∈ items, FindsKeys (step item)) : FindsKeys (items.mapM step) := by
  induction items with
  | nil => exact findsKeys_ok []
  | cons item rest ih =>
      obtain ⟨first, others⟩ := List.forall_mem_cons.mp finds
      rw [List.mapM_cons]
      exact first.bind fun _ _ => (ih others).bind fun _ _ => findsKeys_ok _

theorem filterM {accepts : α → Except Fault Bool} {items : List α}
    (finds : ∀ item ∈ items, FindsKeys (accepts item)) : FindsKeys (items.filterM accepts) := by
  have finishes : ∀ (rest done : List α), (∀ item ∈ rest, FindsKeys (accepts item)) →
      FindsKeys (rest.filterAuxM accepts done) := by
    intro rest
    induction rest with
    | nil => exact fun done _ => findsKeys_ok done
    | cons item rest ih =>
        intro done each
        obtain ⟨first, others⟩ := List.forall_mem_cons.mp each
        exact first.bind fun _ _ => ih _ others
  exact (finishes items [] finds).bind fun _ _ => findsKeys_ok _

end FindsKeys

/-- Where the operation misses a key, it is one of these. -/
def MissesOnly (missing : Value → Prop) (result : Except Fault α) : Prop :=
  ∀ key, result = .error (.missingKey key) → missing key

theorem FindsKeys.missesOnly {result : Except Fault α} (finds : FindsKeys result)
    (missing : Value → Prop) : MissesOnly missing result := by
  intro key failed
  cases finds _ failed

theorem MissesOnly.bind {missing : Value → Prop} {action : Except Fault α}
    {next : α → Except Fault β} (first : MissesOnly missing action)
    (second : ∀ value, action = .ok value → MissesOnly missing (next value)) :
    MissesOnly missing (action >>= next) := by
  cases action with
  | error fault =>
      intro key failed
      cases failed
      exact first key rfl
  | ok value => exact second value rfl

/-- What is done finds all keys that it looks up, in every state. -/
def RunFindsKeys (action : ExceptT Fault (StateM σ) α) : Prop :=
  ∀ state, FindsKeys (action.run.run state).1

theorem runFindsKeys_pure (value : α) : RunFindsKeys (pure value : ExceptT Fault (StateM σ) α) :=
  fun _ => findsKeys_ok value

theorem findsKeys_run_bind {first : ExceptT Fault (StateM σ) α}
    {second : α → ExceptT Fault (StateM σ) β} {state : σ}
    (firstFinds : FindsKeys (first.run.run state).1)
    (secondFinds : ∀ value middle, first.run.run state = (.ok value, middle) →
      FindsKeys ((second value).run.run middle).1) :
    FindsKeys ((first >>= second).run.run state).1 := by
  intro fault failed
  rcases ran : (first >>= second).run.run state with ⟨result, after⟩
  rw [ran] at failed
  rcases run_bind_cases ran with ⟨cause, isCause, rfl⟩ | ⟨value, middle, isFirst, later⟩
  · cases failed
    exact firstFinds fault (congrArg Prod.fst isCause)
  · exact secondFinds value middle isFirst fault ((congrArg Prod.fst later).trans failed)

theorem RunFindsKeys.bind {first : ExceptT Fault (StateM σ) α}
    {second : α → ExceptT Fault (StateM σ) β} (firstFinds : RunFindsKeys first)
    (secondFinds : ∀ value, RunFindsKeys (second value)) : RunFindsKeys (first >>= second) :=
  fun state => findsKeys_run_bind (firstFinds state) fun value middle _ => secondFinds value middle

end Result

open Result (FindsKeys findsKeys_ok findsKeys_error)

/-! ## Values and paths -/

namespace Value

theorem findsKeys_items (value : Value) : FindsKeys value.items := by
  cases value <;> first | exact findsKeys_ok _ | exact findsKeys_error rfl

theorem findsKeys_asText (value : Value) : FindsKeys value.asText := by
  cases value <;> first | exact findsKeys_ok _ | exact findsKeys_error rfl

theorem findsKeys_asKey (value : Value) : FindsKeys value.asKey := by
  cases value <;> first | exact findsKeys_ok _ | exact findsKeys_error rfl

end Value

namespace Path

theorem findsKeys_resolve (path working : Path) : FindsKeys (path.resolve working) := by
  unfold resolve
  split
  · exact findsKeys_error rfl
  · exact findsKeys_ok _

theorem findsKeys_relativeTo (path base : Path) : FindsKeys (path.relativeTo base) := by
  unfold relativeTo
  dsimp only
  split
  · split
    · exact findsKeys_ok _
    · exact findsKeys_error rfl
  · exact findsKeys_error rfl

theorem findsKeys_withSuffix (path : Path) (new : String) : FindsKeys (path.withSuffix new) := by
  unfold withSuffix
  split
  · exact findsKeys_error rfl
  · exact findsKeys_ok _

end Path

/-! ## Files -/

namespace Store

theorem findsKeys_follow (store : Store) (place parts : List String) :
    FindsKeys (store.follow place parts) := by
  induction parts generalizing place with
  | nil => exact findsKeys_ok _
  | cons part rest ih =>
      rw [follow]
      split
      · split
        · exact findsKeys_error rfl
        · exact ih _
      · exact findsKeys_error rfl
      · exact findsKeys_error rfl

theorem findsKeys_locate (store : Store) (path : Path) : FindsKeys (store.locate path) := by
  unfold locate
  split
  · exact findsKeys_error rfl
  · split
    · exact findsKeys_error rfl
    · exact store.findsKeys_follow _ _

theorem findsKeys_find? (store : Store) (path : Path) : FindsKeys (store.find? path) := by
  unfold find?
  split
  · exact findsKeys_ok _
  · exact findsKeys_error rfl
  · exact findsKeys_ok _

theorem findsKeys_isDirectory (store : Store) (path : Path) : FindsKeys (store.isDirectory path) :=
  (store.findsKeys_find? path).bind fun _ _ => findsKeys_ok _

theorem findsKeys_contains (store : Store) (path : Path) : FindsKeys (store.contains path) :=
  (store.findsKeys_find? path).bind fun _ _ => findsKeys_ok _

theorem findsKeys_isFile (store : Store) (path : Path) : FindsKeys (store.isFile path) := by
  refine (store.findsKeys_find? path).bind fun found _ => ?_
  split
  · exact findsKeys_ok _
  · exact findsKeys_ok _

theorem findsKeys_read (store : Store) (path : Path) : FindsKeys (store.read path) := by
  refine (store.findsKeys_locate path).bind fun place _ => ?_
  split
  · exact findsKeys_ok _
  · exact findsKeys_error rfl
  · exact findsKeys_error rfl

theorem findsKeys_readText (store : Store) (path : Path) : FindsKeys (store.readText path) := by
  refine (store.findsKeys_read path).bind fun content _ => ?_
  split
  · exact findsKeys_ok _
  · exact findsKeys_error rfl

theorem findsKeys_write (store : Store) (path : Path) (content : Bytes) :
    FindsKeys (store.write path content) := by
  refine (store.findsKeys_locate path).bind fun place _ => ?_
  split
  · exact findsKeys_error rfl
  · split
    · exact findsKeys_ok _
    · exact findsKeys_error rfl
    · exact findsKeys_error rfl

theorem findsKeys_makeDirectory (store : Store) (path : Path) :
    FindsKeys (store.makeDirectory path) := by
  refine (store.findsKeys_locate path).bind fun place _ => ?_
  split
  · exact findsKeys_error rfl
  · exact findsKeys_ok _
  · exact findsKeys_error rfl
  · exact findsKeys_error rfl

theorem fault_unlessDirectory {store : Store} {path : Path} {mayExist : Bool}
    {cause fault : Fault} (other : cause.isMissingKey = false)
    (failed : (store.unlessDirectory path mayExist cause).2 = some fault) :
    fault.isMissingKey = false := by
  unfold unlessDirectory at failed
  split at failed
  · cases failed
    rfl
  · split at failed
    · rename_i looked
      -- What goes wrong in looking for the directory is reported only where it may exist.
      cases mayExist with
      | false =>
          cases failed
          exact other
      | true =>
          cases failed
          exact store.findsKeys_isDirectory path _ looked
    · split at failed
      · cases failed
      · cases failed
        exact other

/-- Directories are made without looking up keys. -/
theorem fault_makeAbove {store : Store} {anchor : Anchor} {mayExist : Bool}
    {parts : List String} {fault : Fault}
    (failed : (store.makeAbove anchor mayExist parts).2 = some fault) :
    fault.isMissingKey = false := by
  induction parts generalizing store mayExist fault with
  | nil =>
      rw [makeAbove] at failed
      split at failed
      · cases failed
      · rename_i made
        exact fault_unlessDirectory (store.findsKeys_makeDirectory _ _ made) failed
  | cons part above ih =>
      rw [makeAbove] at failed
      split at failed
      · cases failed
      · split at failed
        · rename_i madeAbove
          cases failed
          exact ih (congrArg Prod.snd madeAbove)
        · rename_i prepared _
          split at failed
          · cases failed
          · cases failed
            rfl
          · rename_i made
            exact fault_unlessDirectory (prepared.findsKeys_makeDirectory _ _ made) failed
      · rename_i made
        exact fault_unlessDirectory (store.findsKeys_makeDirectory _ _ made) failed

end Store

namespace Action

open Result

variable {α : Type}

theorem runFindsKeys_ofExcept {result : Except Fault α} (finds : FindsKeys result) :
    RunFindsKeys (ofExcept result) :=
  fun _ => finds

theorem runFindsKeys_store : RunFindsKeys Action.store :=
  fun session => findsKeys_ok session.store

theorem runFindsKeys_note (record : Log.Record) : RunFindsKeys (note record) :=
  fun _ => findsKeys_ok ()

theorem runFindsKeys_changeStep {change : Store → Store × Option Fault}
    (other : ∀ store fault, (change store).2 = some fault → fault.isMissingKey = false) :
    RunFindsKeys (changeStep change) := by
  refine RunFindsKeys.bind (fun _ => findsKeys_ok _) fun session =>
    RunFindsKeys.bind (fun _ => findsKeys_ok _) fun _ => ?_
  split
  · rename_i cause failed
    exact fun _ => findsKeys_error (other session.store cause failed)
  · exact runFindsKeys_pure _

theorem runFindsKeys_changeStore {change : Store → Except Fault Store}
    (finds : ∀ store, FindsKeys (change store)) : RunFindsKeys (changeStore change) :=
  RunFindsKeys.bind (fun _ => findsKeys_ok _) fun session =>
    (runFindsKeys_ofExcept (finds session.store)).bind fun _ _ => findsKeys_ok _

end Action

end Tracemark
