import Tracemark.Libraries.Reference
import Tracemark.Proofs.Analysis.Completion
import Tracemark.Proofs.Path
import Tracemark.Proofs.StableSort

/-!
# The order of merged content

Merging keeps every entry once and puts entries in the order of files and rows. In
one row of one file references come before needs and needs before blocks, each in
the order in which they were extracted.
-/

set_option autoImplicit false

namespace Tracemark.Analysis

namespace Entry

def order : Entry → Entry → Ordering :=
  compareLex (compareOn fun entry => entry.file.sortKey) (compareOn row)

instance : Std.TransCmp order :=
  inferInstanceAs (Std.TransCmp (compareLex (compareOn _) (compareOn row)))

theorem comesFirst_eq_isLE (left right : Entry) :
    left.comesFirst right = (order left right).isLE := by
  simp only [comesFirst, Path.compare_eq, order, compareLex, compareOn]
  cases Ord.compare left.file.sortKey right.file.sortKey with
  | lt => rfl
  | gt => rfl
  | eq => exact Bool.eq_iff_iff.mpr (by simp [Nat.isLE_compare])

theorem comesFirst_trans (a b c : Entry) (first : a.comesFirst b = true)
    (second : b.comesFirst c = true) : a.comesFirst c = true := by
  rw [comesFirst_eq_isLE] at first second ⊢
  exact Std.TransCmp.isLE_trans first second

theorem comesFirst_total (a b : Entry) : (a.comesFirst b || b.comesFirst a) = true := by
  have swapped : order b a = (order a b).swap := Std.OrientedCmp.eq_swap
  rw [comesFirst_eq_isLE, comesFirst_eq_isLE, swapped]
  cases order a b <;> rfl

theorem comesFirst_iff {left right : Entry} :
    left.comesFirst right = true ↔
      left.file.compare right.file = .lt ∨
        left.file.compare right.file = .eq ∧ left.row ≤ right.row := by
  unfold comesFirst
  cases left.file.compare right.file <;> simp

def standsAt (file : Path) (row : Nat) (entry : Entry) : Bool :=
  entry.file == file && entry.row == row

theorem standsAt_iff {file : Path} {row : Nat} {entry : Entry} :
    entry.standsAt file row = true ↔ entry.file = file ∧ entry.row = row := by
  simp [standsAt]

theorem comesFirst_of_standsAt {file : Path} {row : Nat} (left right : Entry)
    (leftHere : left.standsAt file row = true) (rightHere : right.standsAt file row = true) :
    left.comesFirst right = true := by
  obtain ⟨leftFile, leftRow⟩ := standsAt_iff.mp leftHere
  obtain ⟨rightFile, rightRow⟩ := standsAt_iff.mp rightHere
  refine comesFirst_iff.mpr (.inr ⟨?_, by omega⟩)
  rw [leftFile, rightFile, Path.compare_eq]
  exact Std.ReflCmp.compare_self

end Entry

namespace Run

theorem pairwise_inOrder (entries : List Entry) :
    (inOrder entries).Pairwise fun left right => left.comesFirst right = true :=
  List.pairwise_mergeSort Entry.comesFirst_trans Entry.comesFirst_total entries

theorem filter_standsAt_inOrder (file : Path) (row : Nat) (entries : List Entry) :
    (inOrder entries).filter (Entry.standsAt file row) =
      entries.filter (Entry.standsAt file row) :=
  StableSort.filter_mergeSort Entry.comesFirst_trans Entry.comesFirst_total
    Entry.comesFirst_of_standsAt entries

theorem filter_standsAt_byRow (file : Path) (row : Nat) (entries : List Entry) :
    (byRow entries).filter (Entry.standsAt file row) =
      entries.filter (Entry.standsAt file row) := by
  refine StableSort.filter_mergeSort ?_ ?_ ?_ entries
  · intro a b c first second
    simp only [decide_eq_true_eq] at first second ⊢
    exact Nat.le_trans first second
  · intro a b
    simpa using Nat.le_total a.row b.row
  · intro a b aHere bHere
    obtain ⟨_, aRow⟩ := Entry.standsAt_iff.mp aHere
    obtain ⟨_, bRow⟩ := Entry.standsAt_iff.mp bHere
    simp [aRow, bRow]

/-- In one row of one file the kinds follow one another, and each keeps its order. -/
theorem filter_standsAt_merged (file : Path) (row : Nat) (references needs blocks : List Entry) :
    (inOrder (references ++ byRow needs ++ blocks)).filter (Entry.standsAt file row) =
      references.filter (Entry.standsAt file row) ++ needs.filter (Entry.standsAt file row) ++
        blocks.filter (Entry.standsAt file row) := by
  rw [filter_standsAt_inOrder, List.filter_append, List.filter_append, filter_standsAt_byRow]

variable {name : String} {settings : Settings} {session after : Session} {run : Run}

/-- What the comments of a run yield, kind by kind, in the order of extraction. -/
def extraction [Libraries] (working : Path) (run : Run) : Extraction :=
  extractAll run.settings (run.linkSource working)
    ((Language.ofSetting? run.settings.language).getD .cpp) run.comments

theorem Proceeds.ofKind_extraction [Libraries] {language : Language} {paths : List Path}
    {started : Run} (proceeds : started.Proceeds session language paths) (files : List (Path × Nat))
    (warnings : List Warning) (kind : Kind) :
    ((filled session language started paths files warnings).extraction session.store.working).ofKind kind =
      paths.flatMap (entriesIn session language started kind) := by
  rw [← proceeds.ofKind_extractAll]
  simp only [extraction, filled, ofSetting?_of_ofSetting proceeds.speaks, Option.getD_some]
  rfl

/-- The content of a project that was run: it holds what was extracted and nothing else, it
is sorted by file and row, and in one row of one file it goes by kind and then by
extraction. -/
theorem content_of_runProject [Libraries]
    (ran : (Tracing.Analyses.runProject name settings).run.run session = (.ok run, after)) :
    let found := run.extraction session.store.working
    (run.references = found.references ∧ run.needs.Perm found.needs ∧ run.blocks = found.blocks) ∧
      (∀ kind, ∀ entry ∈ found.ofKind kind, entry.payload.kind = kind) ∧
      run.content.Perm (run.references ++ run.needs ++ run.blocks) ∧
      (run.content.Pairwise fun left right =>
        left.file.compare right.file = .lt ∨
          left.file.compare right.file = .eq ∧ left.row ≤ right.row) ∧
      ∀ file row, run.content.filter (Entry.standsAt file row) =
        found.references.filter (Entry.standsAt file row) ++
          found.needs.filter (Entry.standsAt file row) ++
          found.blocks.filter (Entry.standsAt file row) := by
  obtain ⟨started, middle, language, paths, _, kept, proceeds, files, warnings, rfl⟩ :=
    Tracing.Analyses.exists_filled_of_runProject ran
  rw [← kept]
  intro found
  have ofKind := proceeds.ofKind_extraction files warnings
  have references : found.references = _ := ofKind .reference
  have needs : found.needs = _ := ofKind .need
  have blocks : found.blocks = _ := ofKind .block
  rw [references, needs, blocks]
  refine ⟨⟨rfl, List.mergeSort_perm _ _, rfl⟩, ?_, List.mergeSort_perm _ _, ?_, ?_⟩
  · intro kind entry member
    rw [ofKind kind] at member
    obtain ⟨path, listed, inFile⟩ := List.mem_flatMap.mp member
    exact (proceeds.entry_of_mem listed inFile).1
  · exact (pairwise_inOrder _).imp Entry.comesFirst_iff.mp
  · intro file row
    exact filter_standsAt_merged file row _ _ _

/-- A session with source files that are one comment each. -/
def sessionOf (sources : List (String × String)) : Session :=
  let contents := sources.map fun source => (source.1, Utf8.encode source.2.toList)
  { store := ⟨⟨.absolute, []⟩, contents.map fun source => ([source.1], .file source.2)⟩
    parser := .knowing (contents.map fun source =>
      (source.2, .mk "translation_unit" 0 source.2.length [.mk "comment" 0 source.2.length []]))
    log := [] }

/-- Settings that ask for all kinds of content of files. -/
def askingAll (names : List String) : Settings :=
  { sources := .paths (names.map fun name => ⟨.absolute, [name]⟩)
    wantNeeds := .bool true
    wantBlocks := .bool true }

/-- Three marks in one row: what a run makes of them is in the order of their kinds. -/
theorem content_of_one_row :
    let session := sessionOf [("a.c", "/*\n@rst x @endrst @need-ids: N, M\n*/")]
    let inRow := Entry.standsAt ⟨.absolute, ["a.c"]⟩ 1
    ∃ run after,
      (Tracing.Analyses.runProject "p" (askingAll ["a.c"])).run.run session = (.ok run, after) ∧
      (run.content.filter inRow).map (·.payload.kind) = [.reference, .need, .block] := by
  intro session inRow
  have extracted : (((Tracing.Analyses.runProject "p" (askingAll ["a.c"])).run.run session).1.map
      fun run =>
        let found := run.extraction session.store.working
        (found.references.filter inRow ++ found.needs.filter inRow ++
          found.blocks.filter inRow).map (·.payload.kind)).toOption =
      some [.reference, .need, .block] := by
    decide +kernel
  obtain ⟨run, after, outcome, kinds⟩ := Result.exists_ok_of_view extracted
  obtain ⟨_, _, _, _, ordered⟩ := content_of_runProject outcome
  refine ⟨run, after, outcome, ?_⟩
  rw [ordered]
  exact kinds

end Run

end Tracemark.Analysis
