import Mathlib.Data.List.Perm.Subperm
import Tracemark.Proofs.Analysis.Merging

/-!
# Parts of an analysis

An analysis of some of the files, in any order, and of some of the kinds of content
finds exactly what an analysis of all of them finds there.
-/

set_option autoImplicit false

namespace Tracemark

section

variable {α β κ : Type} [DecidableEq κ] {key : α → κ} {label : β → κ} {yield : α → List β}
  {items : List α}

theorem filter_flatMap_of_not_mem
    (labelled : ∀ item ∈ items, ∀ result ∈ yield item, label result = key item) {value : κ}
    (absent : value ∉ items.map key) :
    (items.flatMap yield).filter (fun result => label result == value) = [] := by
  refine List.filter_eq_nil_iff.mpr fun result member same => ?_
  obtain ⟨item, inItems, yielded⟩ := List.mem_flatMap.mp member
  have sameKey : key item = value :=
    (labelled item inItems result yielded).symm.trans (beq_iff_eq.mp same)
  exact absent (sameKey ▸ List.mem_map_of_mem inItems)

/-- Where items have distinct keys and yield results that bear their key, what one item
yields is what bears its key among the results of all. -/
theorem filter_flatMap_of_mem (distinct : (items.map key).Nodup)
    (labelled : ∀ item ∈ items, ∀ result ∈ yield item, label result = key item) {item : α}
    (member : item ∈ items) :
    (items.flatMap yield).filter (fun result => label result == key item) = yield item := by
  induction items with
  | nil => cases member
  | cons first rest ih =>
      obtain ⟨fresh, restDistinct⟩ := List.nodup_cons.mp distinct
      obtain ⟨firstLabelled, restLabelled⟩ := List.forall_mem_cons.mp labelled
      rw [List.flatMap_cons, List.filter_append]
      rcases List.mem_cons.mp member with rfl | later
      · have whole : (yield item).filter (fun result => label result == key item) = yield item :=
          List.filter_eq_self.mpr fun result yielded => beq_iff_eq.mpr (firstLabelled result yielded)
        rw [whole, filter_flatMap_of_not_mem restLabelled fresh, List.append_nil]
      · have none : (yield first).filter (fun result => label result == key item) = [] := by
          refine List.filter_eq_nil_iff.mpr fun result yielded same => ?_
          have sameKey : key item = key first :=
            (beq_iff_eq.mp same).symm.trans (firstLabelled result yielded)
          exact fresh (sameKey ▸ List.mem_map_of_mem later)
        rw [none, List.nil_append]
        exact ih restDistinct restLabelled later

end

namespace Analysis

/-- Entries in absolute files that a sort may not exchange stand in one row of one file. -/
theorem Entry.tied_comesFirst {left right : Entry} (leftAbsolute : left.file.isAbsolute = true)
    (rightAbsolute : right.file.isAbsolute = true) :
    StableSort.tied comesFirst left right = right.standsAt left.file left.row := by
  refine Bool.eq_iff_iff.mpr ?_
  simp only [StableSort.tied, Bool.and_eq_true, comesFirst_iff, standsAt_iff,
    Path.compare_eq_eq_iff leftAbsolute rightAbsolute,
    Path.compare_eq_eq_iff rightAbsolute leftAbsolute]
  constructor
  · rintro ⟨before | ⟨file, row⟩, after | ⟨_, backRow⟩⟩
    · rw [Path.compare_eq] at before after
      exact absurd (Std.TransCmp.lt_trans before after) (by simp)
    · simp_all [Path.compare_eq]
    · simp_all [Path.compare_eq]
    · exact ⟨file.symm, by omega⟩
  · rintro ⟨file, row⟩
    exact ⟨.inr ⟨file.symm, by omega⟩, .inr ⟨file, by omega⟩⟩

/-! ## Settings that ask for less -/

def Settings.restricted (settings : Settings) (files : List Path) (off : Kind → Bool) : Settings :=
  { settings with
    sources := .paths files
    wantReferences := if off .reference then .bool false else settings.wantReferences
    wantNeeds := if off .need then .bool false else settings.wantNeeds
    wantBlocks := if off .block then .bool false else settings.wantBlocks }

theorem Settings.wants_restricted (settings : Settings) (files : List Path) (off : Kind → Bool)
    (kind : Kind) :
    (settings.restricted files off).wants kind = (!off kind && settings.wants kind) := by
  cases kind <;> simp only [wants, restricted] <;> split <;> simp_all [Value.truthy]

section

variable {settings : Settings} {files : List Path} {off : Kind → Bool}

theorem CommentPlace.gatherKind_restricted [Libraries] (place : CommentPlace) (text : List Char)
    (kind : Kind) :
    place.gatherKind (settings.restricted files off) text kind =
      if off kind then {} else place.gatherKind settings text kind := by
  split
  · rename_i isOff
    exact gatherKind_of_unwanted (by simp [Settings.wants_restricted, isOff]) text
  · rename_i isOn
    simp only [gatherKind, Settings.wants_restricted, isOn, Bool.not_false, Bool.true_and]
    cases kind <;> rfl

/-- A comment that can be extracted can be extracted in part, and every kind that is not
switched off is found as before. -/
theorem extractComment_restricted [Libraries] {source : LinkSource} {language : Language}
    {comment : Comment} (sound : (extractComment settings source language comment).fault = none) :
    (extractComment (settings.restricted files off) source language comment).fault = none ∧
      ∀ kind, (extractComment (settings.restricted files off) source language comment).ofKind kind =
        if off kind then [] else (extractComment settings source language comment).ofKind kind := by
  rcases searched_or_empty sound with ⟨file, text, searched⟩ | empty
  · have partSound :
        (extractComment (settings.restricted files off) source language comment).fault = none := by
      refine searched.fault_extractComment_eq_none_iff.mpr fun kind => ?_
      rw [CommentPlace.gatherKind_restricted]
      split
      · rfl
      · exact searched.fault_extractComment_eq_none_iff.mp sound kind
    refine ⟨partSound, fun kind => ?_⟩
    rw [searched.ofKind_extractComment partSound, searched.ofKind_extractComment sound,
      CommentPlace.gatherKind_restricted]
    split <;> rfl
  · rw [empty, empty]
    refine ⟨rfl, fun kind => ?_⟩
    cases kind <;> simp [Extraction.ofKind]

end

namespace Run

variable {session : Session} {language : Language} {run : Run} {paths kept : List Path}
  {off : Kind → Bool}

/-! ## Runs on less -/

theorem Proceeds.entriesIn_restricted [Libraries] (proceeds : run.Proceeds session language paths)
    {path : Path} (listed : path ∈ paths) (kind : Kind) :
    entriesIn session language { run with settings := run.settings.restricted kept off } kind path =
      if off kind then [] else entriesIn session language run kind path := by
  have each : ∀ comment ∈ commentsIn session language path,
      (extractComment (run.settings.restricted kept off) (run.linkSource session.store.working)
        language comment).ofKind kind =
      if off kind then []
      else (extractComment run.settings (run.linkSource session.store.working) language
        comment).ofKind kind := fun comment member =>
    (extractComment_restricted (proceeds.sound path listed comment member)).2 kind
  refine (List.flatMap_congr each).trans ?_
  split
  · simp
  · rfl

theorem Proceeds.restricted [Libraries] (proceeds : run.Proceeds session language paths)
    (fewer : kept ⊆ paths) :
    Proceeds session { run with settings := run.settings.restricted kept off } language kept where
  speaks := proceeds.speaks
  lists := rfl
  readable path listed := proceeds.readable path (fewer listed)
  sound path listed comment member :=
    (extractComment_restricted (proceeds.sound path (fewer listed) comment member)).1

def isKept (working : Path) (files : List Path) (off : Kind → Bool) (entry : Entry) : Bool :=
  (files.map fun path => path.absolute working).contains entry.file && !off entry.payload.kind

theorem Proceeds.filter_isKept_of_off [Libraries] (proceeds : run.Proceeds session language paths)
    {kind : Kind} (isOff : off kind = true) :
    (paths.flatMap (entriesIn session language run kind)).filter
      (isKept session.store.working kept off) = [] := by
  refine List.filter_eq_nil_iff.mpr fun entry member isIn => ?_
  obtain ⟨path, listed, inFile⟩ := List.mem_flatMap.mp member
  simp [isKept, (proceeds.entry_of_mem listed inFile).1, isOff] at isIn

/-- Of the entries in one file, the part of the files yields those that are kept. -/
theorem Proceeds.filter_file_restricted [Libraries] (proceeds : run.Proceeds session language paths)
    (distinct : (paths.map fun path => path.absolute session.store.working).Nodup)
    (chosen : kept.Subperm paths) (kind : Kind) (file : Path) :
    (kept.flatMap (entriesIn session language
        { run with settings := run.settings.restricted kept off } kind)).filter
          (fun entry => entry.file == file) =
      ((paths.flatMap (entriesIn session language run kind)).filter
        (isKept session.store.working kept off)).filter (fun entry => entry.file == file) := by
  have fewer := chosen.subset
  have keptDistinct : (kept.map fun path => path.absolute session.store.working).Nodup := by
    obtain ⟨arranged, perm, sublist⟩ := chosen
    exact (perm.map _).nodup_iff.mp (distinct.sublist (sublist.map _))
  have inFiles : ∀ path ∈ paths, ∀ entry ∈ entriesIn session language run kind path,
      entry.file = path.absolute session.store.working := fun path listed entry member =>
    (proceeds.entry_of_mem listed member).2.1
  have inKeptFiles : ∀ path ∈ kept, ∀ entry ∈ entriesIn session language run kind path,
      entry.file = path.absolute session.store.working := fun path listed =>
    inFiles path (fewer listed)
  rw [List.flatMap_congr fun path listed => proceeds.entriesIn_restricted (fewer listed) kind]
  cases isOff : off kind with
  | true =>
      rw [proceeds.filter_isKept_of_off isOff]
      simp
  | false =>
      simp only [Bool.false_eq_true, if_false]
      rw [List.filter_comm]
      by_cases isKeptFile : file ∈ kept.map fun path => path.absolute session.store.working
      · obtain ⟨path, listed, rfl⟩ := List.mem_map.mp isKeptFile
        rw [filter_flatMap_of_mem keptDistinct inKeptFiles listed,
          filter_flatMap_of_mem distinct inFiles (fewer listed)]
        refine (List.filter_eq_self.mpr fun entry member => ?_).symm
        obtain ⟨ofKind, inFile, _⟩ := proceeds.entry_of_mem (fewer listed) member
        simp only [isKept, ofKind, inFile, isOff, Bool.not_false, Bool.and_true]
        exact List.contains_iff_mem.mpr isKeptFile
      · rw [filter_flatMap_of_not_mem inKeptFiles isKeptFile]
        refine (List.filter_eq_nil_iff.mpr fun entry member isIn => ?_).symm
        have located := beq_iff_eq.mp (List.mem_filter.mp member).2
        simp only [isKept, located, Bool.and_eq_true, List.contains_iff_mem] at isIn
        exact isKeptFile isIn.1

theorem filter_standsAt_eq (file : Path) (row : Nat) (entries : List Entry) :
    entries.filter (Entry.standsAt file row) =
      (entries.filter fun entry => entry.file == file).filter fun entry => entry.row == row := by
  rw [List.filter_filter]
  exact List.filter_congr fun entry _ => Bool.and_comm _ _

theorem Proceeds.filter_standsAt_restricted [Libraries]
    (proceeds : run.Proceeds session language paths)
    (distinct : (paths.map fun path => path.absolute session.store.working).Nodup)
    (chosen : kept.Subperm paths) (kind : Kind) (file : Path) (row : Nat) :
    (kept.flatMap (entriesIn session language
        { run with settings := run.settings.restricted kept off } kind)).filter
          (Entry.standsAt file row) =
      ((paths.flatMap (entriesIn session language run kind)).filter
        (Entry.standsAt file row)).filter (isKept session.store.working kept off) := by
  rw [filter_standsAt_eq, proceeds.filter_file_restricted distinct chosen, ← filter_standsAt_eq,
    List.filter_comm]

theorem Proceeds.isAbsolute_of_mem_content [Libraries]
    (proceeds : run.Proceeds session language paths)
    (rooted : session.store.working.isAbsolute = true) {files : List (Path × Nat)}
    {warnings : List Warning} {entry : Entry}
    (member : entry ∈ (filled session language run paths files warnings).content) :
    entry.file.isAbsolute = true := by
  obtain ⟨path, _, inFile, _⟩ := proceeds.taken_of_mem_content member
  rw [inFile]
  exact path.isAbsolute_absolute rooted

/-- The content of a run on a part is the part of the content. -/
theorem Proceeds.content_restricted [Libraries] (proceeds : run.Proceeds session language paths)
    (rooted : session.store.working.isAbsolute = true)
    (distinct : (paths.map fun path => path.absolute session.store.working).Nodup)
    (chosen : kept.Subperm paths) (files partFiles : List (Path × Nat))
    (warnings partWarnings : List Warning) :
    (filled session language { run with settings := run.settings.restricted kept off } kept partFiles
        partWarnings).content =
      (filled session language run paths files warnings).content.filter
        (isKept session.store.working kept off) := by
  have partProceeds : Proceeds session { run with settings := run.settings.restricted kept off }
      language kept := proceeds.restricted chosen.subset
  -- Both sides are sorted, so it is enough to compare them row by row.
  refine StableSort.eq_of_filter_tied Entry.comesFirst_total (pairwise_inOrder _)
    ((pairwise_inOrder _).filter _) fun entry either => ?_
  have absolute : entry.file.isAbsolute = true := by
    rcases either with inPart | inWhole
    · exact partProceeds.isAbsolute_of_mem_content rooted inPart
    · exact proceeds.isAbsolute_of_mem_content rooted (List.mem_filter.mp inWhole).1
  rw [List.filter_congr fun other member => Entry.tied_comesFirst absolute
      (partProceeds.isAbsolute_of_mem_content rooted member),
    List.filter_congr fun other member => Entry.tied_comesFirst absolute
      (proceeds.isAbsolute_of_mem_content rooted (List.mem_filter.mp member).1),
    List.filter_comm]
  simp only [filled, filter_standsAt_merged, List.filter_append,
    proceeds.filter_standsAt_restricted distinct chosen]

/-- Running a project on some of its files, in any order, and with kinds of content switched
off succeeds when running it on all of them does, and finds the entries that are left. The second
run may have a parser of its own, if it captures the comments of equal contents in the same
order. -/
theorem runProject_restricted [Libraries] {name : String} {settings : Settings}
    {after again : Session} (rooted : session.store.working.isAbsolute = true)
    (lists : settings.sources.asPaths = .ok paths)
    (distinct : (paths.map fun path => path.absolute session.store.working).Nodup)
    (ran : (Tracing.Analyses.runProject name settings).run.run session = (.ok run, after))
    (sameFiles : again.store = session.store) (alike : session.parser.CapturesAlike again.parser)
    (chosen : kept.Subperm paths) (off : Kind → Bool) :
    ∃ part later,
      (Tracing.Analyses.runProject name (settings.restricted kept off)).run.run again =
          (.ok part, later) ∧
        part.content = run.content.filter (isKept session.store.working kept off) := by
  obtain ⟨started, middle, language, listed, isStarted, sameStore, proceeds, files, warnings, rfl⟩ :=
    Tracing.Analyses.exists_filled_of_runProject ran
  obtain rfl := (startedBy_of_start isStarted).settings
  obtain rfl : paths = listed := Except.ok.inj (lists.symm.trans proceeds.lists)
  rw [← sameStore] at rooted distinct ⊢
  have partStarted : (start name (started.settings.restricted kept off)).run.run session =
      (.ok { started with settings := started.settings.restricted kept off }, middle) :=
    start_of_others isStarted rfl rfl
  obtain ⟨partFiles, partWarnings, left, partRan⟩ :=
    Tracing.Analyses.exists_runProject_of_proceeds partStarted (proceeds.restricted chosen.subset)
  obtain ⟨later, ranAgain, _⟩ :=
    (Tracing.Analyses.onlyNotes_runProject name _).exists_run partRan sameFiles alike
  exact ⟨_, later, ranAgain, proceeds.content_restricted rooted distinct chosen files partFiles
    warnings partWarnings⟩

/-- Of three files, two are looked at in the other order and without needs, after something was
logged. -/
theorem runProject_restricted_two_of_three :
    let session := sessionOf
      [("a.c", "// @need-ids: N"), ("b.c", "// @T, I"), ("c.c", "// @need-ids: M")]
    let again : Session := { session with log := [.debug "once more"] }
    let settings := askingAll ["c.c", "b.c", "a.c"]
    let kept : List Path := [⟨.absolute, ["a.c"]⟩, ⟨.absolute, ["b.c"]⟩]
    ∃ run after part later,
      (Tracing.Analyses.runProject "p" settings).run.run session = (.ok run, after) ∧
        (run.references.map (·.file.name), run.needs.length) = (["c.c", "a.c"], 1) ∧
        (Tracing.Analyses.runProject "p" (settings.restricted kept (· == .need))).run.run again =
          (.ok part, later) ∧
        part.content = run.content.filter (isKept session.store.working kept (· == .need)) := by
  intro session again settings kept
  have evaluated : (((Tracing.Analyses.runProject "p" settings).run.run session).1.map fun run =>
      (run.references.map (·.file.name), run.needs.length)).toOption = some (["c.c", "a.c"], 1) := by
    decide +kernel
  obtain ⟨run, after, outcome, found⟩ := Result.exists_ok_of_view evaluated
  have chosen : kept.Subperm [⟨.absolute, ["c.c"]⟩, ⟨.absolute, ["b.c"]⟩, ⟨.absolute, ["a.c"]⟩] :=
    ⟨kept.reverse, List.reverse_perm _, List.sublist_cons_self _ _⟩
  obtain ⟨part, later, partRan, content⟩ := @runProject_restricted session run _ kept _ "p" settings
    after again (by decide) rfl (by decide) outcome rfl (fun _ _ => rfl) chosen (· == .need)
  exact ⟨run, after, part, later, outcome, found, partRan, content⟩

end Run

end Analysis

end Tracemark
