import Tracemark.Libraries.Reference
import Tracemark.Proofs.Analysis.Extraction
import Tracemark.Proofs.Text.Lines

/-!
# Rows of blocks

A block is put in the row of its start sequence only where the sequence begins a
line. Anything before it in its line counts as a line of its own, and the block is
put one row too far down.
-/

set_option autoImplicit false

namespace Tracemark

theorem Block.row_of_find? {startSequence endSequence text : List Char} {block : Block}
    (feeds : Text.FeedsOnly text)
    (found : Block.find? startSequence endSequence text = some block) :
    ∃ start, Text.find? startSequence text = some start ∧
      block.row = (text.take start).count '\n' + (Text.endsWithinLine (text.take start)).toNat := by
  simp only [Block.find?] at found
  split at found
  · rename_i start stop starts _
    refine ⟨start, starts, ?_⟩
    rw [← Text.length_lines (feeds.take start)]
    split at found
    · cases found
    · split at found <;>
        (cases found
         rfl)
  · cases found

namespace Analysis

/-- Every entry of a block is in the row of the block, counted from the comment, and is
linked to that row. -/
theorem CommentPlace.row_of_mem_blockFindings [Libraries] {place : CommentPlace}
    {settings : Block.Settings} {startSequence endSequence text : List Char}
    (starts : settings.startSequence.asText = .ok startSequence)
    (ends : settings.endSequence.asText = .ok endSequence) {block : Block}
    (found : Block.find? startSequence endSequence text = some block) {entry : Entry}
    (member : entry ∈ (place.gatherTrail (blockFindings settings text)).entries) :
    entry.row = place.startRow + block.row ∧
      ∃ log, place.source.link place.file (entry.row + 1) = (log, .ok entry.link) := by
  obtain ⟨row, startColumn, endColumn, payload, log, inFindings, made⟩ := mem_gather member
  simp only [blockFindings, starts, ends, found, Option.toList_some, List.map_cons, List.map_nil,
    List.mem_singleton, Finding.piece.injEq] at inFindings
  obtain ⟨rfl, -⟩ := inFindings
  obtain ⟨link, linked, rfl⟩ := entry_eq_ok made
  exact ⟨rfl, log, linked⟩

/-- The row of a block, and of its entry and the entry's link, is that of the start sequence,
and one more where the sequence does not begin its line. -/
theorem row_of_block [Libraries] {place : CommentPlace} {settings : Block.Settings}
    {startSequence endSequence text : List Char}
    (starts : settings.startSequence.asText = .ok startSequence)
    (ends : settings.endSequence.asText = .ok endSequence) (feeds : Text.FeedsOnly text)
    {block : Block} (found : Block.find? startSequence endSequence text = some block) :
    ∃ start, Text.find? startSequence text = some start ∧
      block.row = (text.take start).count '\n' + (Text.endsWithinLine (text.take start)).toNat ∧
      (block.row = (text.take start).count '\n' ↔ Text.endsWithinLine (text.take start) = false) ∧
      ∀ entry ∈ (place.gatherTrail (blockFindings settings text)).entries,
        entry.row = place.startRow + block.row ∧
          ∃ log, place.source.link place.file (entry.row + 1) = (log, .ok entry.link) := by
  obtain ⟨start, located, row⟩ := Block.row_of_find? feeds found
  refine ⟨start, located, row, ?_, fun entry member => ?_⟩
  · rw [row]
    cases Text.endsWithinLine (text.take start) <;> simp
  · exact CommentPlace.row_of_mem_blockFindings starts ends found member

/-- A block in the first row of a comment that is put in the second. -/
theorem row_of_block_after_opening :
    let text := "/* @rst x @endrst */".toList
    let place : CommentPlace := ⟨⟨Path.here, none, none, Path.here⟩, Path.here, 0, none⟩
    Block.find? "@rst".toList "@endrst".toList text = some ⟨" x ".toList, 1, 7, 10⟩ ∧
      (text.take 3).count '\n' = 0 ∧
      ∀ entry ∈ (place.gatherTrail (blockFindings {} text)).entries, entry.row = 1 := by
  intro text place
  have found : Block.find? "@rst".toList "@endrst".toList text =
      some ⟨" x ".toList, 1, 7, 10⟩ := by
    decide +kernel
  obtain ⟨start, _, _, _, entries⟩ :=
    @row_of_block _ place {} _ _ text rfl rfl (by decide +kernel) _ found
  exact ⟨found, by decide +kernel, fun entry member => (entries entry member).1⟩

end Analysis

end Tracemark
