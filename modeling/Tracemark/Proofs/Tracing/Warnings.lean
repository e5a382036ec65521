import Tracemark.Proofs.Analysis.Storing
import Tracemark.Proofs.Json.RoundTrip
import Tracemark.Proofs.Text.Lines
import Tracemark.Tracing.Analyses

/-!
# Stored warnings

The warnings of all projects are stored in one file. Loading them gives the same warnings,
project by project and in the order in which each project collected them.
-/

set_option autoImplicit false

namespace Tracemark

namespace Analysis.StoredWarning

structure ReadsBack (warning : StoredWarning) (depth : Nat) : Prop where
  file : Json.ReadsBack depth warning.file
  line : Json.ReadsBack depth warning.line
  message : Json.ReadsBack depth warning.message
  type : Json.ReadsBack depth warning.type
  subtype : Json.ReadsBack depth warning.subtype

theorem ReadsBack.toMembers {warning : StoredWarning} {depth : Nat}
    (reads : warning.ReadsBack depth) : Json.ReadsBack (depth + 1) (.object warning.toMembers) := by
  refine Json.readsBack_object ?_ ?_
  · change memberNames.Nodup
    decide
  · simp only [StoredWarning.toMembers, List.forall_mem_cons]
    exact ⟨reads.file, reads.line, reads.message, reads.type, reads.subtype, by simp⟩

theorem ofValue_toMembers (warning : StoredWarning) :
    ofValue (.object warning.toMembers) = .ok warning := by
  simp [ofValue, toMembers, memberNames, Members.has, Members.get?]

end Analysis.StoredWarning

/-- Line numbers within the limit on digits are the only ones that can be read. -/
theorem Analysis.Warning.readsBack_stored {warning : Analysis.Warning}
    (short : warning.line < 10 ^ Json.digitLimit) (depth : Nat) :
    warning.stored.ReadsBack depth where
  file := Json.readsBack_text depth _
  line := Json.readsBack_int depth short
  message := Json.readsBack_text depth _
  type := Json.readsBack_text depth _
  subtype := Json.readsBack_text depth _

namespace Tracing

open Analysis (StoredWarning)

/-- Written values hold no line ending, so unifying those changes nothing. -/
theorem readJson_of_readText {store : Store} {file : Path} {value : Value}
    (reads : Json.ReadsBack Json.depthLimit value)
    (isRead : store.readText file = .ok (Json.write value).toList) :
    readJson store file = .ok value := by
  have absent : '\r' ∉ Json.written value := fun member =>
    absurd (reads.plain '\r' member) (by decide)
  have unified : Text.unifyNewlines (Json.write value).toList = Json.written value :=
    Text.unifyNewlines_of_absent absent
  refine Result.bind_eq_ok_iff.mpr ⟨_, isRead, ?_⟩
  rw [unified, Json.readAll_written reads]
  rfl

def storedWarnings (warnings : List StoredWarning) : Value :=
  .list (warnings.map fun warning => .object warning.toMembers)

theorem mapM_ofValue (warnings : List StoredWarning) :
    (warnings.map fun warning => Value.object warning.toMembers).mapM (fun item =>
      match StoredWarning.ofValue item with
      | .ok warning => Except.ok warning
      | .error cause => .error (Fault.mismatch cause)) = .ok warnings := by
  induction warnings with
  | nil => rfl
  | cons warning rest ih =>
      rw [List.map_cons, List.mapM_cons, ih, StoredWarning.ofValue_toMembers]
      rfl

/-- A list of objects is two levels deep. -/
theorem loadWarnings_of_readText {store : Store} {directory : Path} {warnings : List StoredWarning}
    (reads : ∀ warning ∈ warnings, warning.ReadsBack (Json.depthLimit - 2))
    (isRead : store.readText (warningsPath directory) =
      .ok (Json.write (storedWarnings warnings)).toList) :
    loadWarnings store directory = .ok (some warnings) := by
  have listed : Json.ReadsBack Json.depthLimit (storedWarnings warnings) :=
    Json.readsBack_list (List.forall_mem_map.mpr fun warning member => (reads warning member).toMembers)
  refine Result.bind_eq_ok_iff.mpr ⟨true, Store.contains_of_readText isRead, ?_⟩
  refine Result.bind_eq_ok_iff.mpr ⟨storedWarnings warnings, readJson_of_readText listed isRead, ?_⟩
  exact Result.bind_eq_ok_iff.mpr ⟨_, rfl,
    Result.bind_eq_ok_iff.mpr ⟨warnings, mapM_ofValue warnings, rfl⟩⟩

/-- Warnings survive being stored. Wherever any value can be stored in their place, they can be,
and what is loaded then is what the projects collected: all of it, project by project and in
the order of collection, each with the five fields that it was made with. No limit but the one on
the digits of a number concerns them, and a line number beyond that could not be read. -/
theorem loadWarnings_of_updateWarnings {analyses : Analyses} {session : Session} {value : Value}
    (lines : ∀ warning ∈ analyses.warnings, warning.line < 10 ^ Json.digitLimit)
    (writable : (analyses.dumpWarnings session value).2 = none) :
    ∃ after, analyses.updateWarnings session = (after, none) ∧
      loadWarnings after.store analyses.directory =
        .ok (some (analyses.runs.flatMap fun (_, run) => run.warnings.map fun warning =>
          { file := .text warning.file.text
            line := .int warning.line
            message := .text warning.cause.message
            type := .text "need"
            subtype := .text warning.cause.kind })) := by
  have place : Analysis.storeJson session.store (warningsPath analyses.directory) (.ok value) =
      (_, none) := Prod.ext rfl writable
  obtain ⟨later, stored, isRead⟩ := Analysis.exists_storeJson place
    (storedWarnings (analyses.warnings.map Analysis.Warning.stored))
  refine ⟨{ session with store := later }, ?_, ?_⟩
  · rw [storedWarnings, List.map_map] at stored
    rw [Analyses.updateWarnings, Analyses.dumpWarnings]
    exact congrArg (fun result => ({ session with store := result.1 }, result.2)) stored
  · have loaded : loadWarnings later analyses.directory =
        .ok (some (analyses.warnings.map Analysis.Warning.stored)) := by
      refine loadWarnings_of_readText (List.forall_mem_map.mpr fun warning member => ?_) isRead
      exact Analysis.Warning.readsBack_stored (lines warning member) _
    rw [loaded, Analyses.warnings, List.map_flatMap]
    rfl

/-- A run that collected warnings and nothing else. -/
def runWarning (name : String) (warnings : List Analysis.Warning) : Analysis.Run :=
  ⟨name, {}, none, none, none, [], [], [], [], [], [], warnings⟩

/-- Three warnings of two projects, with names that have to be escaped. The directory for them
does not exist before. -/
theorem loadWarnings_of_updateWarnings_escaped :
    let named : Analysis.Warning := ⟨.ofText "/src/ä\"\\\n😀.c", 3, .newlineInField "títle\x00"⟩
    let short : Analysis.Warning := ⟨.ofText "/src/b.c", 12, .tooFewFields 1 2⟩
    let analyses : Analyses :=
      ⟨[], ⟨.absolute, ["out"]⟩, [("p", runWarning "p" [named, short]), ("q", runWarning "q" [named])]⟩
    let session : Session := ⟨⟨⟨.absolute, []⟩, []⟩, .knowing [], []⟩
    session.store.entry? ["out"] = none ∧
      ∃ after, analyses.updateWarnings session = (after, none) ∧
        loadWarnings after.store analyses.directory =
          .ok (some [
            ⟨.text "/src/ä\"\\\n😀.c", .int 3,
              .text "Field títle\x00 has newline character. It is not allowed", .text "need",
              .text "newline_in_field"⟩,
            ⟨.text "/src/b.c", .int 12, .text "1 given fields. They shall be more than 2",
              .text "need", .text "too_few_fields"⟩,
            ⟨.text "/src/ä\"\\\n😀.c", .int 3,
              .text "Field títle\x00 has newline character. It is not allowed", .text "need",
              .text "newline_in_field"⟩]) := by
  intro named short analyses session
  have writable : (analyses.dumpWarnings session .null).2.isNone = true := by
    decide +kernel
  have lines : ∀ warning ∈ analyses.warnings, warning.line < 10 ^ 2 := by
    change ∀ warning ∈ [named, short, named], _
    simp [named, short]
  have limit : 10 ^ 2 ≤ 10 ^ Json.digitLimit := Nat.pow_le_pow_right (by decide) (by decide)
  exact ⟨rfl, loadWarnings_of_updateWarnings
    (fun warning member => (lines warning member).trans_le limit)
    (Option.isNone_iff_eq_none.mp writable)⟩

end Tracing

end Tracemark
