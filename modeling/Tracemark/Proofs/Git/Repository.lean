import Tracemark.Git.Repository
import Tracemark.Proofs.Result

/-!
# The repository of a directory

The directories above a directory are searched upwards, and the directory itself comes last. So the
innermost repository is found unless the directory is the root of one that lies within another.
-/

set_option autoImplicit false

namespace Tracemark

theorem Path.length_of_mem_parents {path ancestor : Path} (above : ancestor ∈ path.parents) :
    ancestor.parts.length < path.parts.length := by
  simp only [parents, List.mem_map, List.mem_reverse, List.mem_range] at above
  obtain ⟨count, shorter, rfl⟩ := above
  rw [List.length_take]
  omega

/-- Each directory above a path is deeper than those that follow it. -/
theorem Path.pairwise_parents (path : Path) :
    path.parents.Pairwise fun ancestor next => next.parts.length < ancestor.parts.length := by
  have descending : (List.range path.parts.length).reverse.Pairwise (· > ·) :=
    List.pairwise_reverse.mpr List.pairwise_lt_range
  rw [parents, List.pairwise_map]
  apply descending.imp_of_mem
  intro count next member _ greater
  have within := List.mem_range.mp (List.mem_reverse.mp member)
  simp only [List.length_take]
  omega

theorem Store.exists_isDirectory {store : Store} {path : Path}
    (short : store.isDirectory path ≠ .error .nameTooLong) :
    ∃ answer, store.isDirectory path = .ok answer := by
  unfold isDirectory find? at short ⊢
  split
  · exact ⟨_, rfl⟩
  · rename_i tooLong
    rw [tooLong] at short
    exact absurd rfl short
  · exact ⟨_, rfl⟩

namespace Git

/-- The directory is the root of a repository. -/
def HasRepository (store : Store) (directory : Path) : Prop :=
  store.isDirectory (ownDirectory directory) = .ok true

/-- The deepest of the candidates that is the root of a repository, if there is one. -/
inductive Innermost (store : Store) (candidates : List Path) : Option Path → Prop where
  | root {root : Path} (listed : root ∈ candidates) (has : HasRepository store root)
      (deepest : ∀ other ∈ candidates, HasRepository store other →
        other.parts.length ≤ root.parts.length) : Innermost store candidates (some root)
  | nothing (absent : ∀ other ∈ candidates, ¬ HasRepository store other) :
      Innermost store candidates none

variable {store : Store}

theorem firstRoot?_append (front back : List Path) :
    firstRoot? store (front ++ back) =
      firstRoot? store front >>= fun found =>
        found.elim (firstRoot? store back) fun root => .ok (some root) := by
  induction front with
  | nil => rfl
  | cons candidate rest ih =>
      simp only [List.cons_append, firstRoot?, ih]
      cases store.isDirectory (ownDirectory candidate) with
      | error fault => rfl
      | ok answer => cases answer <;> rfl

/-- Of candidates that become less deep, the first root is the deepest. -/
theorem innermost_of_firstRoot? {candidates : List Path}
    (descending : candidates.Pairwise fun candidate next =>
      next.parts.length < candidate.parts.length)
    (answered : ∀ candidate ∈ candidates, ∃ answer,
      store.isDirectory (ownDirectory candidate) = .ok answer) :
    ∃ found, firstRoot? store candidates = .ok found ∧ Innermost store candidates found := by
  induction candidates with
  | nil =>
      refine ⟨none, rfl, .nothing ?_⟩
      intro other member
      cases member
  | cons candidate rest ih =>
      obtain ⟨deeper, restDescending⟩ := List.pairwise_cons.mp descending
      obtain ⟨⟨answer, isAnswer⟩, restAnswered⟩ := List.forall_mem_cons.mp answered
      simp only [firstRoot?, isAnswer]
      cases answer with
      | true =>
          refine ⟨some candidate, rfl, .root List.mem_cons_self isAnswer ?_⟩
          intro other member _
          rcases List.mem_cons.mp member with rfl | later
          · exact Nat.le_refl _
          · exact Nat.le_of_lt (deeper other later)
      | false =>
          have hasNone : ¬ HasRepository store candidate := by
            intro has
            cases isAnswer.symm.trans has
          obtain ⟨found, isFound, innermost⟩ := ih restDescending restAnswered
          refine ⟨found, isFound, ?_⟩
          cases innermost with
          | root listed has deepest =>
              refine .root (List.mem_cons_of_mem _ listed) has ?_
              intro other member otherHas
              rcases List.mem_cons.mp member with rfl | later
              · exact absurd otherHas hasNone
              · exact deepest other later otherHas
          | nothing absent => exact .nothing (List.forall_mem_cons.mpr ⟨hasNone, absent⟩)

/-- The directory itself counts only where none above it has a repository. -/
theorem innermost_or_iff {directory : Path} {outer own : Option Path}
    (above : Innermost store directory.parents outer) (itself : Innermost store [directory] own) :
    Innermost store (directory :: directory.parents) (outer.or own) ↔
      ¬ (HasRepository store directory ∧
        ∃ ancestor ∈ directory.parents, HasRepository store ancestor) := by
  cases above with
  | root listed has deepest =>
      rw [Option.some_or]
      constructor
      · intro innermost ⟨hasItself, _⟩
        cases innermost with
        | root _ _ deepestOfAll =>
            have notDeeper := deepestOfAll directory List.mem_cons_self hasItself
            exact Nat.not_lt.mpr notDeeper (Path.length_of_mem_parents listed)
      · intro notNested
        refine .root (List.mem_cons_of_mem _ listed) has ?_
        intro other member otherHas
        rcases List.mem_cons.mp member with rfl | inParents
        · exact absurd ⟨otherHas, _, listed, has⟩ notNested
        · exact deepest other inParents otherHas
  | nothing absent =>
      rw [Option.none_or]
      apply iff_of_true
      · cases itself with
        | root listed has _ =>
            obtain rfl := List.mem_singleton.mp listed
            refine .root List.mem_cons_self has ?_
            intro other member otherHas
            rcases List.mem_cons.mp member with rfl | inParents
            · exact Nat.le_refl _
            · exact absurd otherHas (absent other inParents)
        | nothing none =>
            exact .nothing (List.forall_mem_cons.mpr ⟨none directory List.mem_cons_self, absent⟩)
      · intro ⟨_, ancestor, inParents, has⟩
        exact absent ancestor inParents has

theorem locateRoot_of_findRoot? {session : Session} {directory : Path} {found : Option Path}
    (isFound : findRoot? session.store directory = .ok found) :
    ∃ after, (locateRoot directory).run.run session = (.ok found, after) := by
  have reads : Action.store.run.run session = (.ok session.store, session) := rfl
  have finds : (Action.ofExcept (findRoot? session.store directory)).run.run session =
      (.ok found, session) := by
    rw [isFound]
    rfl
  unfold locateRoot
  rw [Result.run_bind_of_ok reads, Result.run_bind_of_ok finds]
  cases found with
  | some root => exact ⟨_, rfl⟩
  | none => exact ⟨_, rfl⟩

/-- The root that is found is the innermost one above the directory, and the directory itself only
where none above it has a repository. So it is the innermost one of all exactly where the directory
is not itself the root of a repository that lies within another. -/
theorem root_of_locateRoot {session : Session} {directory current : Path}
    (resolved : directory.resolve session.store.working = .ok current)
    (short : ∀ candidate ∈ current :: current.parents,
      session.store.isDirectory (ownDirectory candidate) ≠ .error .nameTooLong) :
    ∃ outer own after, (locateRoot directory).run.run session = (.ok (outer.or own), after) ∧
      Innermost session.store current.parents outer ∧ Innermost session.store [current] own ∧
      (Innermost session.store (current :: current.parents) (outer.or own) ↔
        ¬ (HasRepository session.store current ∧
          ∃ ancestor ∈ current.parents, HasRepository session.store ancestor)) := by
  obtain ⟨shortItself, shortAbove⟩ := List.forall_mem_cons.mp short
  obtain ⟨outer, foundAbove, above⟩ := innermost_of_firstRoot? current.pairwise_parents
    fun ancestor member => Store.exists_isDirectory (shortAbove ancestor member)
  obtain ⟨own, foundItself, itself⟩ := innermost_of_firstRoot? (List.pairwise_singleton _ current)
    (List.forall_mem_singleton.mpr (Store.exists_isDirectory shortItself))
  have found : findRoot? session.store directory = .ok (outer.or own) := by
    unfold findRoot?
    rw [Result.bind_eq_ok_iff]
    refine ⟨current, resolved, ?_⟩
    rw [rootCandidates, firstRoot?_append, foundAbove]
    cases outer with
    | none => exact foundItself
    | some root => rfl
  obtain ⟨after, ran⟩ := locateRoot_of_findRoot? found
  exact ⟨outer, own, after, ran, above, itself, innermost_or_iff above itself⟩

/-- The root of a repository within another repository is not found from there. -/
theorem root_of_locateRoot_nested :
    let outer : Path := ⟨.absolute, ["outer"]⟩
    let inner : Path := ⟨.absolute, ["outer", "inner"]⟩
    let store : Store := ⟨⟨.absolute, []⟩, [(["outer"], .directory), (["outer", ".git"], .directory),
      (["outer", "inner"], .directory), (["outer", "inner", ".git"], .directory)]⟩
    (∃ after, (locateRoot inner).run.run ⟨store, .knowing [], []⟩ = (.ok (some outer), after)) ∧
      HasRepository store inner ∧ ¬ Innermost store (inner :: inner.parents) (some outer) := by
  intro outer inner store
  have hasInner : HasRepository store inner := by rfl
  have hasOuter : HasRepository store outer := by rfl
  have answers : ∀ candidate ∈ inner :: inner.parents,
      (store.isDirectory (ownDirectory candidate)).isOk = true := by
    decide +kernel
  obtain ⟨found, own, after, ran, _, _, innermost⟩ :=
    @root_of_locateRoot ⟨store, .knowing [], []⟩ inner inner rfl (by
      intro candidate member tooLong
      have answered := answers candidate member
      rw [tooLong] at answered
      cases answered)
  have isOuter : found.or own = some outer := by
    have evaluated : ((locateRoot inner).run.run ⟨store, .knowing [], []⟩).1 =
        .ok (some outer) := by
      rfl
    rw [ran] at evaluated
    exact Except.ok.inj evaluated
  rw [isOuter] at ran innermost
  refine ⟨⟨after, ran⟩, hasInner, ?_⟩
  rw [innermost]
  intro notNested
  exact notNested ⟨hasInner, outer, by decide +kernel, hasOuter⟩

end Git

end Tracemark
