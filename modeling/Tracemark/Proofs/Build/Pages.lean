import Tracemark.Build.Setup
import Tracemark.Libraries.Reference
import Tracemark.Proofs.Build.Progress

/-!
# Pages of a build

After directives have run, each source file that they contribute has a page. Its copy is told
by how the file is seen from the directory above its source directory, and its page by that
without the suffix.
-/

set_option autoImplicit false

namespace Tracemark.Build

/-- The path of a copy below the output directory. -/
def seenOfCopy (output : Path) (copy : String) : Path :=
  ⟨.relative, (Path.ofText copy).parts.drop output.parts.length⟩

theorem seenOfCopy_copy {output : Path} (outputRead : output.IsRead) {file : SourceFile}
    (isBelow : file.IsBelow) : seenOfCopy output (file.copy output).text = file.seen := by
  rw [seenOfCopy, (SourceFile.copy_isRead outputRead isBelow).ofText_text, SourceFile.copy_eq,
    List.drop_left]
  rfl

theorem exists_pageOf {store : Store} {output : Path} (outputRead : output.IsRead)
    {file : SourceFile} (isBelow : file.IsBelow) (holds : store.HoldsText (file.copy output))
    (links : LineLinks) :
    ∃ page, pageOf store output (file.copy output).text links = .ok page ∧
      page.name = file.seen.withoutSuffix.text := by
  obtain ⟨text, isText⟩ := holds
  simp only [pageOf, SourceFile.pageName_copy outputRead isBelow, pageLinks,
    (SourceFile.copy_isRead outputRead isBelow).ofText_text, isText]
  exact ⟨_, rfl, rfl⟩

theorem collectPages_of_mapM {state : State} {pages : List Page}
    (collected : state.backLinks.mapM (fun (file, links) =>
      pageOf state.session.store state.output file links) = .ok pages) :
    collectPages.run.run state = (.ok pages, { state with backLinks := [] }) := by
  refine Result.run_bind_eq_ok_iff.mpr ⟨state, state, rfl, ?_⟩
  refine Result.run_bind_eq_ok_iff.mpr ⟨pages, state, ?_, rfl⟩
  exact Step.run_ofExcept_eq_ok_iff.mpr ⟨collected, rfl⟩

/-- The pages after directives that make local links, in a build without links before. There
is one for each copy of a contributed file, with the place of the copy as its name, and the
copies can be read. In one source directory different files have different copies. Pages have
the same name where the copies are in one directory and their names differ in the suffix only. -/
theorem pages_of_calls [Libraries] {state final : State} {calls : List Call}
    {numbers : List (List Nat)}
    (fresh : state.backLinks = []) (read : state.PathsRead) (links : state.linksLocally = true)
    (ran : (calls.mapM Call.run).run.run state = (.ok numbers, final)) :
    ∃ (copies : List Path) (pages : List Page) (after : State),
      collectPages.run.run final = (.ok pages, after) ∧
      copies.Nodup ∧
      (∀ copy, copy ∈ copies ↔ ∃ file ∈ contributed state calls, file.seen = copy) ∧
      (∀ copy ∈ copies, final.session.store.HoldsText (state.output.join copy)) ∧
      pages.map Page.name = copies.map (fun copy => copy.withoutSuffix.text) ∧
      ∀ left ∈ contributed state calls, ∀ right ∈ contributed state calls,
        (left.copy state.output = right.copy state.output ↔ left.seen = right.seen) ∧
        (left.directory = right.directory → left.seen = right.seen → left.file = right.file) ∧
        (left.seen.withoutSuffix.text = right.seen.withoutSuffix.text ↔
          left.seen.parent = right.seen.parent ∧ left.seen.stem = right.seen.stem) := by
  have advances := advances_of_calls read links ran
  have linked : ∀ text, text ∈ linkedFiles final.backLinks ↔
      ∃ file ∈ contributed state calls, (file.copy state.output).text = text := by
    intro text
    rw [advances.linked, fresh]
    simp [linkedFiles]
  have isBelow : ∀ file ∈ contributed state calls, file.IsBelow := fun file member =>
    (advances.copied file member).1
  have seen : ∀ file ∈ contributed state calls,
      seenOfCopy state.output (file.copy state.output).text = file.seen := fun file member =>
    seenOfCopy_copy read.output (isBelow file member)
  obtain ⟨pages, collected, names⟩ : ∃ pages,
      final.backLinks.mapM (fun (file, links) =>
        pageOf final.session.store final.output file links) = .ok pages ∧
      pages.map Page.name = final.backLinks.map fun entry =>
        (seenOfCopy state.output entry.1).withoutSuffix.text := by
    refine Result.exists_mapM ?_
    rintro ⟨text, fileLinks⟩ member
    obtain ⟨file, inFiles, rfl⟩ := (linked text).mp (List.mem_map_of_mem member)
    dsimp only
    rw [seen file inFiles, advances.output]
    exact exists_pageOf read.output (isBelow file inFiles) (advances.copied file inFiles).2 fileLinks
  refine ⟨(linkedFiles final.backLinks).map (seenOfCopy state.output), pages, _,
    collectPages_of_mapM collected, ?_, fun copy => ?_, fun copy member => ?_, ?_,
    fun left inLeft right inRight => ⟨⟨SourceFile.seen_of_copy, congrArg state.output.join⟩, ?_, ?_⟩⟩
  · refine List.Nodup.map_on ?_ (advances.distinct (by simp [fresh, linkedFiles]))
    intro first isFirst second isSecond same
    obtain ⟨left, inLeft, rfl⟩ := (linked first).mp isFirst
    obtain ⟨right, inRight, rfl⟩ := (linked second).mp isSecond
    rw [seen left inLeft, seen right inRight] at same
    rw [SourceFile.copy, SourceFile.copy, same]
  · simp only [List.mem_map, linked]
    constructor
    · rintro ⟨_, ⟨file, inFiles, rfl⟩, rfl⟩
      exact ⟨file, inFiles, (seen file inFiles).symm⟩
    · rintro ⟨file, inFiles, rfl⟩
      exact ⟨_, ⟨file, inFiles, rfl⟩, seen file inFiles⟩
  · obtain ⟨text, isLinked, rfl⟩ := List.mem_map.mp member
    obtain ⟨file, inFiles, rfl⟩ := (linked text).mp isLinked
    rw [seen file inFiles]
    exact (advances.copied file inFiles).2
  · rw [names, linkedFiles, List.map_map, List.map_map]
    rfl
  · exact (isBelow left inLeft).file_of_seen (isBelow right inRight)
  · exact Path.withoutSuffix_text_eq_iff (isBelow left inLeft).seen_isRead
      (isBelow right inRight).seen_isRead (isBelow left inLeft).named (isBelow right inRight).named
      rfl rfl

/-- A build with projects that have their source directories at places, and with files of one
comment each. -/
def buildOf (places : List (String × List String)) (sources : List (List String × String)) : State :=
  let contents := sources.map fun source => (source.1, Utf8.encode source.2.toList)
  let directories := contents.flatMap fun source =>
    source.1.inits.tail.dropLast.map fun place => (place, Entry.directory)
  let project (place : List String) : Tracing.Project :=
    .members
      [("source_discover_config", .discovery { directory := .path ⟨.relative, place⟩ }),
        ("analyse_config", .analysis { wantNeeds := .bool true })]
  { session :=
      { store := ⟨⟨.absolute, []⟩,
          directories ++ contents.map fun source => (source.1, .file source.2)⟩
        parser := .knowing (contents.map fun source =>
          (source.2, .mk "translation_unit" 0 source.2.length [.mk "comment" 0 source.2.length []]))
        log := [] }
    listing := ⟨fun _ _ _ => []⟩
    configurationDirectory := ⟨.absolute, []⟩
    output := ⟨.absolute, ["out"]⟩
    extensions := []
    settings :=
      [("src_trace_config_from_toml", .plain .null), ("src_trace_set_local_url", .plain (.bool true)),
        ("src_trace_local_url_field", .plain (.text "local-url")),
        ("src_trace_set_remote_url", .plain (.bool false)),
        ("src_trace_projects", .projects (.named (places.map fun place => (place.1, project place.2))))] }

theorem yieldsRead_buildOf (places : List (String × List String))
    (sources : List (List String × String)) : (buildOf places sources).listing.YieldsRead := by
  intro _ _ _ _ path member
  cases member

def callOn (project file : String) : Call :=
  ⟨.object [("project", .text project), ("file", .text file)], "index", .int 1⟩

/-- Two of the three files share a copy, and the two copies share the name of their pages. -/
theorem pages_of_calls_sharing_names :
    let state := buildOf [("p", ["a", "src"]), ("q", ["b", "src"])]
      [(["a", "src", "main.c"], "// @A, I1"), (["b", "src", "main.c"], "// @B, I2"),
        (["b", "src", "main.h"], "// @C, I3")]
    let calls := [callOn "p" "main.c", callOn "q" "main.c", callOn "q" "main.h"]
    ∃ numbers final pages after,
      (calls.mapM Call.run).run.run state = (.ok numbers, final) ∧
        (contributed state calls).map (·.file.text) =
          ["/a/src/main.c", "/b/src/main.c", "/b/src/main.h"] ∧
        collectPages.run.run final = (.ok pages, after) ∧
        pages.map Page.name = ["src/main", "src/main"] := by
  intro state calls
  have evaluated : (((calls.mapM Call.run).run.run state).1.map List.flatten).toOption =
      some [1, 3, 5] := by
    decide +kernel
  have isRead : state.PathsRead :=
    ⟨by decide, by decide, by decide, yieldsRead_buildOf _ _, by decide +kernel⟩
  have files : contributed state calls =
      [⟨⟨.absolute, ["a", "src"]⟩, ⟨.absolute, ["a", "src", "main.c"]⟩⟩,
        ⟨⟨.absolute, ["b", "src"]⟩, ⟨.absolute, ["b", "src", "main.c"]⟩⟩,
        ⟨⟨.absolute, ["b", "src"]⟩, ⟨.absolute, ["b", "src", "main.h"]⟩⟩] := by
    decide +kernel
  obtain ⟨numbers, final, outcome, _⟩ := Result.exists_ok_of_view evaluated
  obtain ⟨copies, pages, after, collected, distinct, members, _, names, _⟩ :=
    pages_of_calls rfl isRead (by decide) outcome
  have alike : copies.Perm [⟨.relative, ["src", "main.c"]⟩, ⟨.relative, ["src", "main.h"]⟩] := by
    refine (List.perm_ext_iff_of_nodup distinct (by decide)).mpr fun copy => ?_
    rw [members, files]
    simp [SourceFile.seen, eq_comm]
  have texts : [(⟨.relative, ["src", "main.c"]⟩ : Path), ⟨.relative, ["src", "main.h"]⟩].map
      (fun copy => copy.withoutSuffix.text) = List.replicate 2 "src/main" := by
    decide +kernel
  have named := alike.map fun copy => copy.withoutSuffix.text
  rw [texts, List.perm_replicate] at named
  refine ⟨numbers, final, pages, after, outcome, ?_, collected, names.trans named⟩
  rw [files]
  decide

end Tracemark.Build
