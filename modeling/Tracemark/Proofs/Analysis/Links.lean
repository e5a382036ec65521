import Tracemark.Proofs.Analysis.Extraction
import Tracemark.Tracing.Analyses

/-!
# Links of entries

An entry of a run has a link exactly when the run knows the address of a remote.
Every step of a run keeps this, and so does running one project after the other.
-/

set_option autoImplicit false

namespace Tracemark.Analysis

def Entry.LinkedTo (address : Option String) (entry : Entry) : Prop :=
  entry.link = none ↔ address = none

theorem LinkSource.link_eq_none_iff [Libraries] {source : LinkSource} {file : Path} {line : Nat}
    {log : List Log.Record} {link : Option String}
    (linked : source.link file line = (log, .ok link)) : link = none ↔ source.address = none := by
  unfold LinkSource.link at linked
  split at linked
  · rename_i address revision known _
    rw [known]
    split at linked
    · cases linked
      rfl
    · obtain ⟨_, made⟩ := Prod.mk.inj linked
      obtain ⟨text, _, rfl⟩ := Result.map_eq_ok_iff.mp made
      simp
  · cases linked
    rfl

/-! ## Extractions -/

def Extraction.entries (extraction : Extraction) : List Entry :=
  extraction.references ++ extraction.needs ++ extraction.blocks

theorem Extraction.mem_followedBy {first : Extraction} {second : Unit → Extraction} {entry : Entry}
    (member : entry ∈ (first.followedBy second).entries) :
    entry ∈ first.entries ∨ entry ∈ (second ()).entries := by
  unfold Extraction.followedBy at member
  split at member
  · exact .inl member
  · simp only [Extraction.entries, List.mem_append] at member ⊢
    tauto

theorem CommentPlace.linkedTo_of_mem_gather [Libraries] {place : CommentPlace}
    {ending : Option Fault} {findings : List Finding} {entry : Entry}
    (member : entry ∈ (place.gather ending findings).entries) :
    entry.LinkedTo place.source.address := by
  obtain ⟨row, startColumn, endColumn, payload, log, _, made⟩ := mem_gather member
  obtain ⟨link, linked, rfl⟩ := entry_eq_ok made
  exact LinkSource.link_eq_none_iff linked

theorem Gathered.mem_extraction {gathered : Gathered} {keep : List Entry → Extraction}
    (kept : (keep gathered.entries).entries = gathered.entries) {entry : Entry}
    (member : entry ∈ (gathered.extraction keep).entries) : entry ∈ gathered.entries := by
  unfold Gathered.extraction at member
  split at member
  · cases member
  · exact kept ▸ member

theorem linkedTo_of_mem_extractComment [Libraries] {settings : Settings} {source : LinkSource}
    {language : Language} {comment : Comment} {entry : Entry}
    (member : entry ∈ (extractComment settings source language comment).entries) :
    entry.LinkedTo source.address := by
  unfold extractComment at member
  split at member
  · cases member
  · split at member
    · cases member
    · cases member
    · rcases Extraction.mem_followedBy member with reference | member
      · exact CommentPlace.linkedTo_of_mem_gather
          (Gathered.mem_extraction (by simp [Extraction.entries]) reference)
      · rcases Extraction.mem_followedBy member with need | block
        · exact CommentPlace.linkedTo_of_mem_gather
            (Gathered.mem_extraction (by simp [Extraction.entries]) need)
        · exact CommentPlace.linkedTo_of_mem_gather
            (Gathered.mem_extraction (by simp [Extraction.entries]) block)

theorem linkedTo_of_mem_extractAll [Libraries] {settings : Settings} {source : LinkSource}
    {language : Language} {comments : List Comment} {entry : Entry}
    (member : entry ∈ (extractAll settings source language comments).entries) :
    entry.LinkedTo source.address := by
  induction comments with
  | nil => cases member
  | cons comment rest ih =>
      rcases Extraction.mem_followedBy member with first | later
      · exact linkedTo_of_mem_extractComment first
      · exact ih later

/-! ## Runs -/

namespace Run

/-- A run in which entries of every kind, merged or not, are linked to its address. -/
def Linked (run : Run) : Prop :=
  ∀ entry ∈ run.content ++ run.references ++ run.needs ++ run.blocks, entry.LinkedTo run.address

namespace Linked

variable {run : Run}

theorem addFile (linked : run.Linked) (file : Path) (found : List Syntax.Cursor) :
    (run.addFile file found).Linked := by
  unfold Run.addFile
  split <;> exact linked

theorem collect (linked : run.Linked) (session : Session) (language : Language)
    (paths : List Path) : (run.collect session language paths).1.Linked := by
  induction paths generalizing run with
  | nil => exact linked
  | cons path rest ih =>
      unfold Run.collect
      split
      · exact linked
      · exact ih (linked.addFile _ _)

theorem create (linked : run.Linked) (session : Session) : (run.create session).1.Linked := by
  unfold Run.create
  split
  · exact linked
  · split
    · exact linked
    · exact linked.collect session _ _

theorem extract [Libraries] (linked : run.Linked) (working : Path) :
    (run.extract working).1.Linked := by
  intro entry member
  simp only [Run.extract, List.mem_append] at member
  have found : entry ∈ (extractAll run.settings (run.linkSource working)
      ((Language.ofSetting? run.settings.language).getD .cpp) run.comments).entries ∨
        entry ∈ run.content ++ run.references ++ run.needs ++ run.blocks := by
    simp only [Extraction.entries, List.mem_append]
    tauto
  rcases found with new | old
  · exact linkedTo_of_mem_extractAll new
  · exact linked entry old

theorem merge (linked : run.Linked) : run.merge.Linked := by
  intro entry member
  refine linked entry ?_
  simp only [Run.merge, inOrder, byRow, List.mem_append, List.mem_mergeSort] at member ⊢
  tauto

theorem complete [Libraries] (linked : run.Linked) (session : Session) :
    (run.complete session).1.Linked := by
  have created := linked.create session
  unfold Run.complete
  split
  · rename_i stopped fault isCreated
    simpa [isCreated] using created
  · rename_i collected isCreated
    rw [isCreated] at created
    have extracted := created.extract session.store.working
    split
    · rename_i stopped log fault isExtracted
      simpa [isExtracted] using extracted
    · rename_i gathered log isExtracted
      rw [isExtracted] at extracted
      exact extracted.merge

end Linked

/-- A new run has no entries. -/
theorem linked_of_start {name : String} {settings : Settings} {session after : Session} {run : Run}
    (started : (start name settings).run.run session = (.ok run, after)) : run.Linked := by
  have empty : run.content ++ run.references ++ run.needs ++ run.blocks = [] := by
    unfold start at started
    obtain ⟨repository, _, _, lookedUp⟩ := Result.run_bind_eq_ok_iff.mp started
    -- A repository only changes which address and revision are looked up.
    cases repository <;>
      (simp only [Result.run_bind_eq_ok_iff] at lookedUp
       obtain ⟨address, _, _, revision, _, _, finished⟩ := lookedUp
       cases finished
       rfl)
  intro entry member
  cases empty ▸ member

end Run

end Tracemark.Analysis

namespace Tracemark.Tracing

open Analysis (Run)

theorem mem_putRun {name : String} {run : Run} {runs : List (String × Run)}
    {kept : String × Run} (member : kept ∈ putRun name run runs) : kept.2 = run ∨ kept ∈ runs := by
  induction runs with
  | nil => exact .inl (List.mem_singleton.mp member ▸ rfl)
  | cons current rest ih =>
      simp only [putRun] at member
      split at member
      · rcases List.mem_cons.mp member with rfl | later
        · exact .inl rfl
        · exact .inr (List.mem_cons_of_mem _ later)
      · rcases List.mem_cons.mp member with rfl | later
        · exact .inr List.mem_cons_self
        · exact (ih later).imp_right (List.mem_cons_of_mem _)

namespace Analyses

theorem linked_of_runProject [Libraries] {name : String} {settings : Analysis.Settings}
    {session after : Session} {run : Run}
    (completed : (runProject name settings).run.run session = (.ok run, after)) : run.Linked := by
  simp only [runProject, Result.run_bind_eq_ok_iff] at completed
  obtain ⟨started, _, isStarted, current, _, _, _, _, _, finished⟩ := completed
  have linked := (Run.linked_of_start isStarted).complete current
  split at finished
  · cases finished
  · cases finished
    exact linked

theorem linked_of_runEach [Libraries] {analyses : Analyses} {session : Session}
    (linked : ∀ kept ∈ analyses.runs, kept.2.Linked)
    (projects : List (String × Analysis.Settings)) :
    ∀ kept ∈ (analyses.runEach session projects).1.runs, kept.2.Linked := by
  induction projects generalizing analyses session with
  | nil => exact linked
  | cons project rest ih =>
      unfold runEach
      split
      · exact linked
      · rename_i run after completed
        refine ih fun kept member => ?_
        rcases mem_putRun member with same | earlier
        · exact same ▸ linked_of_runProject completed
        · exact linked kept earlier

theorem linked_of_runAll [Libraries] {directory : Path}
    {settings : List (String × Analysis.Settings)}
    {session after : Session} {analyses : Analyses} {fault : Option Fault}
    (ran : (ofSettings directory settings).runAll session = (analyses, after, fault)) :
    ∀ kept ∈ analyses.runs, kept.2.Linked := by
  have none : ∀ kept ∈ (ofSettings directory settings).runs, kept.2.Linked := by simp [ofSettings]
  have invariant := @linked_of_runEach _ _ session none settings
  have same : ((ofSettings directory settings).runEach session settings).1 = analyses :=
    congrArg Prod.fst ran
  rwa [same] at invariant

end Analyses

end Tracemark.Tracing
