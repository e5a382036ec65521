import Mathlib.Data.List.Sort
import Tracemark.Discovery.Basic
import Tracemark.Proofs.Path
import Tracemark.Proofs.Store

/-!
# Discovered source files

A discovery keeps the entries of its walk that are source files of the language, in the order
of their texts. In what order the walk comes to them makes no difference.
-/

set_option autoImplicit false

namespace Tracemark.Discovery

variable {store : Store} {language : Language}

/-! ## Entries that are kept -/

/-- The path is a file with a suffix of the language, in whichever case it is written. In the
language that shares a suffix with plain data, such a file begins with a comment. -/
def IsSource (store : Store) (language : Language) (path : Path) : Prop :=
  ∃ content, store.find? path = .ok (some (.file content)) ∧
    Text.lower path.suffix ∈ language.suffixes ∧
    (language = .jsonc → Text.lower path.suffix = ".json" →
      beginsWithComment (content.take commentSampleSize) = true)

theorem accepts_eq_true_iff {path : Path} :
    accepts store language path = .ok true ↔ IsSource store language path := by
  simp only [accepts, Result.bind_eq_ok_iff, pure, Except.pure, Except.ok.injEq, Bool.and_eq_true]
  constructor
  · rintro ⟨isFile, looked, ⟨isFile, hasSuffix⟩, begins⟩
    subst isFile
    obtain ⟨content, found⟩ := Store.isFile_eq_true_iff.mp looked
    refine ⟨content, found, List.contains_iff_mem.mp hasSuffix, fun isData isPlain => ?_⟩
    simpa [isData, isPlain, opensWithComment, Store.read_of_find? found] using begins
  · rintro ⟨content, found, hasSuffix, begins⟩
    refine ⟨true, Store.isFile_eq_true_iff.mpr ⟨content, found⟩,
      ⟨rfl, List.contains_iff_mem.mpr hasSuffix⟩, ?_⟩
    simp only [opensWithComment, Store.read_of_find? found]
    by_cases isData : language = .jsonc
    · by_cases isPlain : Text.lower path.suffix = ".json"
      · simp [begins isData isPlain]
      · simp [isPlain]
    · simp [isData]

instance (path : Path) : Decidable (IsSource store language path) :=
  decidable_of_iff ((accepts store language path).toOption = some true) <| by
    rw [← accepts_eq_true_iff]
    cases accepts store language path <;> simp [Except.toOption]

/-- Whatever can be looked up is accepted or not, without a fault. -/
theorem exists_accepts {path : Path} {entry : Option Entry} (found : store.find? path = .ok entry) :
    ∃ isAccepted, accepts store language path = .ok isAccepted := by
  have looked : ∃ isFile, store.isFile path = .ok isFile := by
    rw [Store.isFile, found]
    rcases entry with _ | _ | content
    · exact ⟨false, rfl⟩
    · exact ⟨false, rfl⟩
    · exact ⟨true, rfl⟩
  obtain ⟨isFile, isFound⟩ := looked
  exact ⟨_, Result.bind_eq_ok_iff.mpr ⟨isFile, isFound, rfl⟩⟩

theorem filterM_of_ok {entries : List Path} {accepted : Path → Except Fault Bool}
    (each : ∀ path ∈ entries, ∃ isAccepted, accepted path = .ok isAccepted) :
    entries.filterM accepted =
      .ok (entries.filter fun path => (accepted path).toOption == some true) := by
  have gathered : ∀ (rest done : List Path),
      (∀ path ∈ rest, ∃ isAccepted, accepted path = .ok isAccepted) →
      rest.filterAuxM accepted done =
        .ok ((rest.filter fun path => (accepted path).toOption == some true).reverse ++ done) := by
    intro rest
    induction rest with
    | nil => intro done _; rfl
    | cons first rest ih =>
        intro done each
        obtain ⟨⟨isAccepted, isFirst⟩, others⟩ := List.forall_mem_cons.mp each
        refine Result.bind_eq_ok_iff.mpr ⟨isAccepted, isFirst, ?_⟩
        rw [ih _ others]
        cases isAccepted <;> simp [isFirst, Except.toOption]
  refine Result.bind_eq_ok_iff.mpr ⟨_, gathered entries [] each, ?_⟩
  simp [pure, Except.pure]

/-! ## The order of what is kept -/

def Precedes (left right : Path) : Prop :=
  left.text < right.text

instance : Std.Irrefl Precedes :=
  ⟨fun path => String.lt_irrefl path.text⟩

instance : Std.Antisymm Precedes :=
  ⟨fun _ _ before after => absurd after (String.lt_asymm before)⟩

/-- Different paths have different texts, so sorting them by text leaves no ties. -/
theorem pairwise_sortByText {paths : List Path} (once : paths.Nodup)
    (read : ∀ path ∈ paths, path.IsRead) : (sortByText paths).Pairwise Precedes := by
  have sorted : (sortByText paths).Pairwise fun left right =>
      decide (left.text ≤ right.text) = true := by
    refine List.pairwise_mergeSort (fun _ _ _ first second => ?_) (fun left right => ?_) paths
    · exact decide_eq_true (String.le_trans (of_decide_eq_true first) (of_decide_eq_true second))
    · simpa using String.le_total left.text right.text
  have distinct : (sortByText paths).Nodup := (List.mergeSort_perm paths _).nodup_iff.mpr once
  refine (sorted.and distinct).imp_of_mem fun {left right} inLeft inRight both => ?_
  refine Std.lt_of_le_of_ne (of_decide_eq_true both.1) fun same => both.2 ?_
  rw [← (read left (List.mem_mergeSort.mp inLeft)).ofText_text, same,
    (read right (List.mem_mergeSort.mp inRight)).ofText_text]

/-! ## Discoveries -/

/-- Entries of a walk that can be looked up, each of which stands for a path of its own. -/
structure AreDistinct (store : Store) (entries : List Path) : Prop where
  read : ∀ path ∈ entries, path.IsRead
  once : (entries.map fun path => path.collapsed store.working).Nodup
  found : ∀ path ∈ entries, ∃ entry, store.find? path = .ok entry

theorem AreDistinct.perm {entries order : List Path} (distinct : AreDistinct store entries)
    (same : order.Perm entries) : AreDistinct store order where
  read path member := distinct.read path (same.mem_iff.mp member)
  once := (same.map _).nodup_iff.mpr distinct.once
  found path member := distinct.found path (same.mem_iff.mp member)

theorem exists_select {entries : List Path} (workingRead : store.working.IsRead)
    (distinct : AreDistinct store entries) :
    ∃ paths, select store language entries = .ok paths ∧ paths.Pairwise Precedes ∧
      ∀ path, path ∈ paths ↔
        ∃ entry ∈ entries, IsSource store language entry ∧
          path = entry.collapsed store.working := by
  have each : ∀ path ∈ entries, ∃ isAccepted, accepts store language path = .ok isAccepted := by
    intro path member
    obtain ⟨entry, isEntry⟩ := distinct.found path member
    exact exists_accepts isEntry
  refine ⟨_, Result.bind_eq_ok_iff.mpr ⟨_, filterM_of_ok each, rfl⟩, ?_, fun path => ?_⟩
  · refine pairwise_sortByText (distinct.once.sublist (List.filter_sublist.map _)) ?_
    intro path member
    obtain ⟨entry, kept, rfl⟩ := List.mem_map.mp member
    exact (distinct.read entry (List.mem_filter.mp kept).1).collapsed workingRead
  · rw [sortByText, List.mem_mergeSort, List.mem_map]
    refine exists_congr fun entry => ?_
    rw [List.mem_filter, and_assoc, @eq_comm _ path]
    refine and_congr_right fun member => and_congr_left fun _ => ?_
    obtain ⟨isAccepted, known⟩ := each entry member
    rw [← accepts_eq_true_iff, known]
    simp [Except.toOption]

/-- A discovery is exact, and the order of the walk makes no difference to it. Where the walk
comes to each entry once, the discovered paths are in strictly increasing order of their texts,
and they are those of the entries of the walk that are source files. -/
theorem run_in_any_order {listing : Listing} {settings : Settings} {directory : Path}
    {isDirectory : Bool} {globs : List Value}
    (isLanguage : Language.lookUp settings.language = .ok language)
    (isPlace : settings.directory = .path directory)
    (looked : store.isDirectory directory = .ok isDirectory)
    (patterned : patterns settings = .ok globs) (workingRead : store.working.IsRead)
    (distinct : AreDistinct store
      (listing.walk store directory (walkRequests settings directory globs))) :
    ∃ paths : List Path,
      (∀ order : Listing,
        (order.walk store directory (walkRequests settings directory globs)).Perm
          (listing.walk store directory (walkRequests settings directory globs)) →
        (run store order settings).2 = .ok ⟨language.suffixes, paths⟩) ∧
      paths.Pairwise Precedes ∧
      ∀ path, path ∈ paths ↔ isDirectory = true ∧
        ∃ entry ∈ listing.walk store directory (walkRequests settings directory globs),
          IsSource store language entry ∧ path = entry.collapsed store.working := by
  cases isDirectory with
  | false =>
      refine ⟨[], fun order _ => ?_, .nil, by simp⟩
      simp [run, isLanguage, isPlace, Place.asPath, looked]
  | true =>
      obtain ⟨paths, _, increasing, members⟩ :=
        @exists_select store language _ workingRead distinct
      refine ⟨paths, fun order same => ?_, increasing, by simpa using members⟩
      obtain ⟨others, selected, othersIncreasing, otherMembers⟩ :=
        @exists_select store language _ workingRead (distinct.perm same)
      -- Lists in strictly increasing order are told by their members.
      have alike : others = paths := othersIncreasing.eq_of_mem_iff increasing fun path => by
        simp only [otherMembers, members, same.mem_iff]
      simp [run, isLanguage, isPlace, Place.asPath, looked, patterned, selected, alike, Except.map]

/-- A directory of data files, one of which is a directory itself, and one of which is plain
data. -/
theorem run_in_any_order_of_data :
    let store : Store := ⟨⟨.absolute, []⟩,
      [(["s"], .directory), (["s", "a.JSON"], .file (Utf8.encode " // a".toList)),
        (["s", "b.json"], .file (Utf8.encode "1 // b".toList)), (["s", "c.jsonc"], .file []),
        (["s", "d.jsonc"], .directory), (["s", "e.c"], .file (Utf8.encode "// e".toList))]⟩
    let entries := ["/s/d.jsonc", "/s/c.jsonc", "/s/b.json", "s/a.JSON", "/s/e.c"].map Path.ofText
    let settings : Settings := { directory := .path (.ofText "/s"), language := .text "jsonc" }
    ∀ order : Listing,
      (order.walk store (.ofText "/s") (walkRequests settings (.ofText "/s") [])).Perm entries →
      (run store order settings).2 =
        .ok ⟨[".json", ".jsonc"], [.ofText "/s/a.JSON", .ofText "/s/c.jsonc"]⟩ := by
  intro store entries settings order same
  have kept : (entries.filter (IsSource store .jsonc ·)).map (·.collapsed store.working) =
      ["/s/c.jsonc", "/s/a.JSON"].map Path.ofText := by
    decide +kernel
  have looked : entries.all (fun path => (store.find? path).toOption.isSome) = true := by
    decide +kernel
  have found : ∀ path ∈ entries, ∃ entry, store.find? path = .ok entry := by
    intro path member
    obtain ⟨entry, isEntry⟩ := Option.isSome_iff_exists.mp (List.all_eq_true.mp looked path member)
    exact ⟨entry, Result.eq_ok_of_toOption isEntry⟩
  obtain ⟨paths, discovered, increasing, members⟩ := @run_in_any_order store .jsonc
    ⟨fun _ _ _ => entries⟩ settings (.ofText "/s") true [] rfl rfl rfl rfl (by decide)
    ⟨by simp [entries, Path.isRead_ofText], by decide +kernel, found⟩
  have alike : paths = [.ofText "/s/a.JSON", .ofText "/s/c.jsonc"] := by
    refine increasing.eq_of_mem_iff (List.pairwise_pair.mpr ?_) fun path => ?_
    · change (Path.ofText "/s/a.JSON").text < (Path.ofText "/s/c.jsonc").text
      decide +kernel
    · have isKept : (∃ entry ∈ entries, IsSource store .jsonc entry ∧
          path = entry.collapsed store.working) ↔
            path ∈ ["/s/c.jsonc", "/s/a.JSON"].map Path.ofText := by
        rw [← kept]
        simp [and_assoc, @eq_comm _ path]
      rw [members, isKept]
      simp [or_comm]
  rw [← alike]
  exact discovered order same

end Tracemark.Discovery
