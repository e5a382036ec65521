import Mathlib.Data.List.Dedup
import Tracemark.Analysis.Settings
import Tracemark.Proofs.OneLine.Layout
import Tracemark.Proofs.Report

/-!
# Markers that clash

The sequences of blocks and the markers of references are taken one after the other. The report
has one line for each of them that is a sequence of one-line needs or is taken twice.
-/

set_option autoImplicit false

namespace Tracemark

theorem Report.nodup_eraseDups (lines : List String) : lines.eraseDups.Nodup := by
  induction length : lines.length using Nat.strongRecOn generalizing lines with
  | ind count ih =>
      cases lines with
      | nil => simp
      | cons line rest =>
          rw [List.eraseDups_cons, List.nodup_cons]
          constructor
          · simp [List.mem_eraseDups]
          · have shorter : (rest.filter fun other => !other == line).length < count := by
              have kept := List.length_filter_le (fun other => !other == line) rest
              rw [List.length_cons] at length
              omega
            exact ih _ shorter _ rfl

namespace Analysis.Settings

theorem isAmong_texts_iff {marker : String} {taken : List String} :
    (Value.text marker).isAmong (taken.map .text) = true ↔ marker ∈ taken := by
  simp [Value.isAmong, Value.same_text_iff]

/-- The markers that clash are those that are taken before or come twice. What is taken grows with
each marker that does not clash, so it always holds the markers that have come. -/
theorem exists_clashing_texts (taken candidates : List String) :
    ∃ found : List String, clashing (taken.map .text) (candidates.map .text) = found.map .text ∧
      ∀ marker, marker ∈ found ↔
        marker ∈ candidates ∧ (marker ∈ taken ∨ 2 ≤ candidates.count marker) := by
  induction candidates generalizing taken with
  | nil => exact ⟨[], rfl, by simp⟩
  | cons first rest ih =>
      simp only [List.map_cons, clashing]
      by_cases known : first ∈ taken
      · obtain ⟨found, isFound, members⟩ := ih taken
        refine ⟨first :: found, by rw [if_pos (isAmong_texts_iff.mpr known), isFound, List.map_cons], ?_⟩
        intro marker
        rw [List.mem_cons, members, List.mem_cons, List.count_cons]
        by_cases same : marker = first
        · simp [same, known]
        · simp [same, Ne.symm same]
      · obtain ⟨found, isFound, members⟩ := ih (first :: taken)
        rw [List.map_cons] at isFound
        refine ⟨found, by rw [if_neg (mt isAmong_texts_iff.mp known), isFound], ?_⟩
        intro marker
        rw [members, List.mem_cons, List.mem_cons, List.count_cons]
        by_cases same : marker = first
        · subst same
          have again : marker ∈ rest ↔ 2 ≤ rest.count marker + 1 := by
            rw [← List.count_pos_iff]
            omega
          rw [again]
          simp [known]
        · simp [same, Ne.symm same]

def clashLine (marker : String) : String :=
  "Marker " ++ marker ++ " is defined multiple times"

theorem clashLine_injective : Function.Injective clashLine := by
  intro marker other same
  exact (String.append_right_inj _).mp ((String.append_left_inj _).mp same)

theorem clashLines_texts_perm (taken candidates : List String) :
    (clashLines (taken.map .text) (candidates.map .text)).Perm
      ((candidates.dedup.filter fun marker =>
        marker ∈ taken ∨ 2 ≤ candidates.count marker).map clashLine) := by
  obtain ⟨found, isFound, members⟩ := exists_clashing_texts taken candidates
  have lines : clashLines (taken.map .text) (candidates.map .text) =
      Report.arrange (found.map clashLine).eraseDups := by
    rw [clashLines, isFound, List.map_map]
    rfl
  rw [lines]
  refine (Report.arrange_perm _).trans ((List.perm_ext_iff_of_nodup (Report.nodup_eraseDups _) ?_).mpr ?_)
  · exact ((List.nodup_dedup _).filter _).map clashLine_injective
  · intro line
    simp [List.mem_eraseDups, members]

/-- The report on markers has one line for each different one among the sequences of blocks and the
markers of references that is a sequence of one-line needs or occurs more than once, and no other
line. -/
theorem checkMarkers_perm_clashes {settings : Settings} {start stop blockStart blockEnd : String}
    {markers : List String} (isStart : settings.style.startSequence = .text start)
    (isEnd : settings.style.endSequence = .text stop)
    (isBlockStart : settings.blocks.startSequence = .text blockStart)
    (isBlockEnd : settings.blocks.endSequence = .text blockEnd)
    (areMarkers : settings.references.markers = .list (markers.map .text)) :
    let used := blockStart :: blockEnd :: markers
    ∃ lines, settings.checkMarkers = .ok lines ∧
      lines.Perm ((used.dedup.filter fun marker =>
        marker ∈ [start, stop] ∨ 2 ≤ used.count marker).map clashLine) := by
  intro used
  have blocks := OneLine.Style.asSet_texts [blockStart, blockEnd]
  have style := OneLine.Style.asSet_texts [start, stop]
  have references := OneLine.Style.asSet_texts markers
  refine ⟨_, ?_, clashLines_texts_perm [start, stop] used⟩
  unfold checkMarkers
  rw [isStart, isEnd, isBlockStart, isBlockEnd, areMarkers]
  refine Result.bind_eq_ok_iff.mpr ⟨_, style, Result.bind_eq_ok_iff.mpr ⟨_, blocks, ?_⟩⟩
  exact Result.bind_eq_ok_iff.mpr ⟨_, rfl, Result.bind_eq_ok_iff.mpr ⟨_, references, rfl⟩⟩

/-- A sequence of one-line needs, one of blocks, and a marker that comes three times. -/
theorem checkMarkers_of_shared_markers :
    let settings : Settings :=
      { references := ⟨.list (["@x", "@", "@rst", "@x", "@x", "@y"].map .text)⟩ }
    ∃ lines, settings.checkMarkers = .ok lines ∧
      lines.Perm ["Marker @ is defined multiple times", "Marker @rst is defined multiple times",
        "Marker @x is defined multiple times"] := by
  intro settings
  obtain ⟨lines, checked, clashes⟩ :=
    @checkMarkers_perm_clashes settings "@" "\n" "@rst" "@endrst" ["@x", "@", "@rst", "@x", "@x", "@y"]
      rfl rfl rfl rfl rfl
  exact ⟨lines, checked, clashes.trans (by decide +kernel)⟩

end Analysis.Settings

end Tracemark
