import Mathlib.Data.List.Infix
import Tracemark.Proofs.Result
import Tracemark.Proofs.Text.Encoding
import Tracemark.Store

/-!
# Stores that grow

Making directories and writing texts takes nothing away: a directory stays one, and what
could be read as a text still can. What is made or written lies on the way to a path, and what
stands elsewhere stays as it is.
-/

set_option autoImplicit false

namespace Tracemark.Store

def HoldsText (store : Store) (path : Path) : Prop :=
  ∃ text, store.readText path = .ok text

/-- Directories stay directories, and texts stay texts, though they may change. -/
structure Grows (before after : Store) : Prop where
  working : after.working = before.working
  directories : ∀ place, before.entry? place = some .directory →
    after.entry? place = some .directory
  texts : ∀ place content text, before.entry? place = some (.file content) →
    Utf8.decode content = .ok text →
      ∃ later new, after.entry? place = some (.file later) ∧ Utf8.decode later = .ok new

namespace Grows

variable {before middle after : Store}

theorem refl (store : Store) : Grows store store :=
  ⟨rfl, fun _ found => found, fun _ content text found decoded => ⟨content, text, found, decoded⟩⟩

theorem trans (first : Grows before middle) (second : Grows middle after) : Grows before after := by
  refine ⟨second.working.trans first.working, fun place found => ?_,
    fun place content text found decoded => ?_⟩
  · exact second.directories place (first.directories place found)
  · obtain ⟨later, new, isLater, isNew⟩ := first.texts place content text found decoded
    exact second.texts place later new isLater isNew

theorem follow (grows : Grows before after) {parts place target : List String}
    (followed : before.follow place parts = .ok target) : after.follow place parts = .ok target := by
  induction parts generalizing place with
  | nil => exact followed
  | cons part rest ih =>
      unfold Store.follow at followed ⊢
      split at followed
      · rename_i isDirectory
        rw [grows.directories place isDirectory]
        dsimp only
        split at followed
        · cases followed
        · rename_i short
          rw [if_neg short]
          exact ih followed
      · cases followed
      · cases followed

theorem locate (grows : Grows before after) {path : Path} {place : List String}
    (located : before.locate path = .ok place) : after.locate path = .ok place := by
  unfold Store.locate at located ⊢
  split at located
  · cases located
  · rename_i plain
    rw [if_neg plain]
    split at located
    · cases located
    · rename_i short
      rw [if_neg short, grows.working]
      exact grows.follow located

end Grows

/-! ## Reading -/

theorem readText_eq_ok_iff {store : Store} {path : Path} {text : List Char} :
    store.readText path = .ok text ↔ ∃ place content, store.locate path = .ok place ∧
      store.entry? place = some (.file content) ∧ Utf8.decode content = .ok text := by
  simp only [readText, read, Result.bind_eq_ok_iff]
  constructor
  · rintro ⟨content, ⟨place, located, isRead⟩, decoded⟩
    split at isRead
    · rename_i found
      cases isRead
      split at decoded
      · rename_i same
        cases decoded
        exact ⟨place, content, located, found, same⟩
      · cases decoded
    · cases isRead
    · cases isRead
  · rintro ⟨place, content, located, found, decoded⟩
    exact ⟨content, ⟨place, located, by rw [found]; rfl⟩, by rw [decoded]; rfl⟩

theorem contains_of_readText {store : Store} {path : Path} {text : List Char}
    (isRead : store.readText path = .ok text) : store.contains path = .ok true := by
  obtain ⟨place, content, located, found, _⟩ := readText_eq_ok_iff.mp isRead
  rw [contains, find?, located]
  simp only [found]
  rfl

/-- What can be found as a file can be read. -/
theorem read_of_find? {store : Store} {path : Path} {content : Bytes}
    (found : store.find? path = .ok (some (.file content))) : store.read path = .ok content := by
  unfold find? at found
  split at found
  · rename_i place located
    have isFile : store.entry? place = some (.file content) := Except.ok.inj found
    refine Result.bind_eq_ok_iff.mpr ⟨place, located, ?_⟩
    rw [isFile]
    rfl
  · cases found
  · cases found

theorem isFile_eq_true_iff {store : Store} {path : Path} :
    store.isFile path = .ok true ↔ ∃ content, store.find? path = .ok (some (.file content)) := by
  simp only [isFile, Result.bind_eq_ok_iff]
  constructor
  · rintro ⟨entry, found, holds⟩
    split at holds
    · rename_i content
      exact ⟨content, found⟩
    · cases holds
  · rintro ⟨content, found⟩
    exact ⟨_, found, rfl⟩

theorem Grows.holdsText {before after : Store} (grows : Grows before after) {path : Path}
    (holds : before.HoldsText path) : after.HoldsText path := by
  obtain ⟨text, isRead⟩ := holds
  obtain ⟨place, content, located, found, decoded⟩ := readText_eq_ok_iff.mp isRead
  obtain ⟨later, new, isLater, isNew⟩ := grows.texts place content text found decoded
  exact ⟨new, readText_eq_ok_iff.mpr ⟨place, later, grows.locate located, isLater, isNew⟩⟩

/-- The top directory is no text. -/
theorem not_holdsText_top {store : Store} {path : Path} (rooted : path.isAbsolute = true)
    (top : path.parts = []) : ¬ store.HoldsText path := by
  rintro ⟨text, isRead⟩
  obtain ⟨place, content, located, found, _⟩ := readText_eq_ok_iff.mp isRead
  unfold Store.locate at located
  split at located
  · cases located
  · split at located
    · cases located
    · rw [Path.join, if_pos rooted, top] at located
      cases located
      cases found

/-! ## Writing -/

theorem find?_putEntry (place other : List String) (entry : Entry)
    (entries : List (List String × Entry)) :
    ((putEntry place entry entries).find? fun current => current.1 == other).map (·.2) =
      if other = place then some entry
      else (entries.find? fun current => current.1 == other).map (·.2) := by
  induction entries with
  | nil =>
      by_cases same : other = place
      · simp [putEntry, same]
      · simp [putEntry, same, Ne.symm same]
  | cons current rest ih =>
      unfold putEntry
      split
      · rename_i here
        by_cases same : other = place
        · simp [same]
        · have elsewhere : current.1 ≠ other := fun isOther =>
            same (isOther.symm.trans (beq_iff_eq.mp here))
          simp [same, Ne.symm same, elsewhere]
      · rename_i notHere
        by_cases isOther : current.1 = other
        · have elsewhere : other ≠ place := fun same => notHere (by simp [isOther, same])
          simp [isOther, elsewhere]
        · simp only [List.find?_cons, beq_eq_false_iff_ne.mpr isOther, ih]

theorem entry?_put (store : Store) (place : List String) (entry : Entry) {other : List String}
    (notTop : other ≠ []) :
    Store.entry? (store.put place entry) other =
      if other = place then some entry else store.entry? other := by
  simpa [ entry?, put, List.isEmpty_iff, notTop] using find?_putEntry place other entry store.entries

theorem entry?_top (store : Store) : store.entry? [] = some .directory := rfl

theorem grows_put_directory {store : Store} {place : List String}
    (vacant : store.entry? place = none) : Grows store (store.put place .directory) := by
  refine ⟨rfl, fun other found => ?_, fun other content text found decoded => ?_⟩
  · by_cases top : other = []
    · rw [top, entry?_top]
    · rw [entry?_put store place .directory top]
      split
      · rfl
      · exact found
  · have notTop : other ≠ [] := by
      rintro rfl
      cases found
    have elsewhere : other ≠ place := by
      rintro rfl
      cases vacant.symm.trans found
    exact ⟨content, text, by rw [entry?_put store place .directory notTop, if_neg elsewhere, found],
      decoded⟩

theorem grows_put_text {store : Store} {place : List String}
    (noDirectory : store.entry? place ≠ some .directory) (text : List Char) :
    Grows store (store.put place (.file (Utf8.encode text))) := by
  refine ⟨rfl, fun other found => ?_, fun other content earlier found decoded => ?_⟩
  · by_cases top : other = []
    · rw [top, entry?_top]
    · have elsewhere : other ≠ place := by
        rintro rfl
        exact noDirectory found
      rw [entry?_put store place _ top, if_neg elsewhere, found]
  · have notTop : other ≠ [] := by
      rintro rfl
      cases found
    by_cases here : other = place
    · exact ⟨_, text, by rw [entry?_put store place _ notTop, if_pos here], Utf8.decode_encode text⟩
    · exact ⟨content, earlier, by rw [entry?_put store place _ notTop, if_neg here, found], decoded⟩

theorem grows_makeDirectory {store made : Store} {path : Path}
    (makes : store.makeDirectory path = .ok made) : Grows store made := by
  simp only [makeDirectory, Result.bind_eq_ok_iff] at makes
  obtain ⟨place, _, makes⟩ := makes
  split at makes
  · cases makes
  · rename_i vacant _
    cases makes
    exact grows_put_directory vacant
  · cases makes
  · cases makes

theorem unlessDirectory_fst (store : Store) (path : Path) (mayExist : Bool) (fault : Fault) :
    (store.unlessDirectory path mayExist fault).1 = store := by
  unfold unlessDirectory
  split
  · rfl
  · split <;> rfl

theorem grows_makeAbove (store : Store) (anchor : Anchor) (mayExist : Bool) (parts : List String) :
    Grows store (store.makeAbove anchor mayExist parts).1 := by
  induction parts generalizing store mayExist with
  | nil =>
      unfold makeAbove
      split
      · rename_i makes
        exact grows_makeDirectory makes
      · rw [unlessDirectory_fst]
        exact .refl store
  | cons part above ih =>
      unfold makeAbove
      dsimp only
      split
      · rename_i makes
        exact grows_makeDirectory makes
      · have prepares := ih store true
        split
        · rename_i prepared
          rw [prepared] at prepares
          exact prepares
        · rename_i prepared
          rw [prepared] at prepares
          split
          · rename_i makes
            exact prepares.trans (grows_makeDirectory makes)
          · exact prepares
          · rw [unlessDirectory_fst]
            exact prepares
      · rw [unlessDirectory_fst]
        exact .refl store

theorem grows_makeDirectories (store : Store) (path : Path) (mayExist : Bool) :
    Grows store (store.makeDirectories path mayExist).1 :=
  grows_makeAbove store path.anchor mayExist path.parts.reverse

/-- A file is written in a directory, and not in the place of one. -/
theorem write_eq_ok_iff {store written : Store} {path : Path} {content : Bytes} :
    store.write path content = .ok written ↔ ∃ place, store.locate path = .ok place ∧
      store.entry? place ≠ some .directory ∧ store.entry? place.dropLast = some .directory ∧
      written = store.put place (.file content) := by
  simp only [write, Result.bind_eq_ok_iff]
  refine exists_congr fun place => and_congr_right fun _ => ?_
  split
  · rename_i isDirectory
    simp [isDirectory, throw, throwThe, MonadExceptOf.throw]
  · rename_i noDirectory
    split
    · rename_i inDirectory
      constructor
      · intro writes
        cases writes
        exact ⟨noDirectory, inDirectory, rfl⟩
      · rintro ⟨_, _, rfl⟩
        rfl
    · rename_i inFile
      simp [inFile, throw, throwThe, MonadExceptOf.throw]
    · rename_i inNothing
      simp [inNothing, throw, throwThe, MonadExceptOf.throw]

/-- A text that was written is read again. -/
theorem readText_of_write {store written : Store} {path : Path} {text : List Char}
    (writes : store.write path (Utf8.encode text) = .ok written) :
    Grows store written ∧ written.readText path = .ok text := by
  obtain ⟨place, located, noDirectory, _, rfl⟩ := write_eq_ok_iff.mp writes
  have grows := grows_put_text noDirectory text
  have notTop : place ≠ [] := by
    rintro rfl
    exact noDirectory rfl
  refine ⟨grows, readText_eq_ok_iff.mpr ⟨place, _, grows.locate located, ?_,
    Utf8.decode_encode text⟩⟩
  rw [entry?_put store place _ notTop, if_pos rfl]

/-- Whether a file can be written does not depend on its content. -/
theorem exists_write {store written : Store} {path : Path} {content : Bytes}
    (writes : store.write path content = .ok written) (other : Bytes) :
    ∃ later, store.write path other = .ok later := by
  obtain ⟨place, located, noDirectory, inDirectory, _⟩ := write_eq_ok_iff.mp writes
  exact ⟨_, write_eq_ok_iff.mpr ⟨place, located, noDirectory, inDirectory, rfl⟩⟩

/-! ## Places elsewhere -/

/-- The places that are passed on the way to a path, and its own. -/
def waypoints (working path : Path) : List (List String) :=
  (working.join path).parts.inits.map Path.collapse

theorem waypoints_subset {working : Path} {anchor : Anchor} {front parts : List String}
    (isFront : front <+: parts) :
    waypoints working ⟨anchor, front⟩ ⊆ waypoints working ⟨anchor, parts⟩ := by
  have joined : (working.join ⟨anchor, front⟩).parts <+: (working.join ⟨anchor, parts⟩).parts := by
    unfold Path.join Path.isAbsolute
    dsimp only
    split
    · exact isFront
    · exact (List.prefix_append_right_inj _).mpr isFront
  intro place member
  obtain ⟨way, isWay, rfl⟩ := List.mem_map.mp member
  rw [List.mem_inits] at isWay
  exact List.mem_map_of_mem ((List.mem_inits _ _).mpr (isWay.trans joined))

theorem follow_eq_ok {store : Store} {place parts target : List String}
    (followed : store.follow place parts = .ok target) :
    target = (parts.foldl (fun done part => if part == ".." then done.tail else part :: done)
      place.reverse).reverse := by
  induction parts generalizing place with
  | nil =>
      cases followed
      exact (List.reverse_reverse target).symm
  | cons part rest ih =>
      unfold follow at followed
      split at followed
      · split at followed
        · cases followed
        · rw [ih followed, List.foldl_cons]
          split
          · rw [List.tail_reverse]
          · rw [List.reverse_append, List.reverse_singleton, List.singleton_append]
      · cases followed
      · cases followed

/-- A path that leads to a place leads there without its dots. -/
theorem locate_eq_ok {store : Store} {path : Path} {place : List String}
    (located : store.locate path = .ok place) : place = (path.collapsed store.working).parts := by
  unfold locate at located
  split at located
  · cases located
  · split at located
    · cases located
    · exact follow_eq_ok located

theorem mem_waypoints_of_locate {store : Store} {path : Path} {place : List String}
    (located : store.locate path = .ok place) : place ∈ waypoints store.working path := by
  rw [locate_eq_ok located]
  exact List.mem_map_of_mem ((List.mem_inits _ _).mpr (List.prefix_refl _))

/-- Nothing is found at a vacant place, at most the path to it is too long. -/
theorem contains_of_vacant {store : Store} {path : Path}
    (vacant : store.entry? (path.collapsed store.working).parts = none) :
    store.contains path = .ok false ∨ store.contains path = .error .nameTooLong := by
  unfold contains find?
  split
  · rename_i place located
    rw [locate_eq_ok located, vacant]
    exact .inl rfl
  · exact .inr rfl
  · exact .inl rfl

section

variable {store : Store} {place : List String}

theorem entry?_put_of_ne {target : List String} (elsewhere : place ≠ target) (entry : Entry) :
    Store.entry? (store.put target entry) place = store.entry? place := by
  by_cases top : place = []
  · rw [top, entry?_top, entry?_top]
  · rw [entry?_put store target entry top, if_neg elsewhere]

theorem entry?_makeDirectory {made : Store} {path : Path}
    (makes : store.makeDirectory path = .ok made) (apart : place ∉ waypoints store.working path) :
    made.entry? place = store.entry? place := by
  simp only [makeDirectory, Result.bind_eq_ok_iff] at makes
  obtain ⟨target, located, makes⟩ := makes
  have elsewhere : place ≠ target := by
    rintro rfl
    exact apart (mem_waypoints_of_locate located)
  split at makes
  · cases makes
  · cases makes
    exact entry?_put_of_ne elsewhere .directory
  · cases makes
  · cases makes

theorem entry?_makeAbove {anchor : Anchor} {mayExist : Bool} {parts : List String}
    (apart : place ∉ waypoints store.working ⟨anchor, parts.reverse⟩) :
    Store.entry? (store.makeAbove anchor mayExist parts).1 place = store.entry? place := by
  induction parts generalizing store mayExist with
  | nil =>
      unfold makeAbove
      split
      · rename_i makes
        exact entry?_makeDirectory makes apart
      · rw [unlessDirectory_fst]
  | cons part above ih =>
      have apartAbove : place ∉ waypoints store.working ⟨anchor, above.reverse⟩ := by
        intro passed
        refine apart (waypoints_subset ?_ passed)
        rw [List.reverse_cons]
        exact List.prefix_append _ _
      unfold makeAbove
      dsimp only
      split
      · rename_i makes
        exact entry?_makeDirectory makes apart
      · have keeps := @ih store true apartAbove
        have working := (grows_makeAbove store anchor true above).working
        split
        · rename_i prepared
          rw [prepared] at keeps
          exact keeps
        · rename_i prepared
          rw [prepared] at keeps working
          split
          · rename_i makes
            exact (entry?_makeDirectory makes (working ▸ apart)).trans keeps
          · exact keeps
          · rw [unlessDirectory_fst]
            exact keeps
      · rw [unlessDirectory_fst]

theorem entry?_makeDirectories {path : Path} {mayExist : Bool}
    (apart : place ∉ waypoints store.working path) :
    Store.entry? (store.makeDirectories path mayExist).1 place = store.entry? place := by
  apply entry?_makeAbove
  rwa [List.reverse_reverse]

theorem entry?_write {written : Store} {path : Path} {content : Bytes}
    (writes : store.write path content = .ok written)
    (apart : place ∉ waypoints store.working path) :
    written.entry? place = store.entry? place := by
  obtain ⟨target, located, _, _, rfl⟩ := write_eq_ok_iff.mp writes
  refine entry?_put_of_ne ?_ _
  rintro rfl
  exact apart (mem_waypoints_of_locate located)

end

end Tracemark.Store
