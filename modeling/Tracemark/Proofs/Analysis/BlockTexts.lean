import Tracemark.Libraries.Reference
import Tracemark.Proofs.Analysis.Extraction
import Tracemark.Proofs.Block
import Tracemark.Proofs.Block.Extent

/-!
# Blocks without text

A block is looked for where not all between its sequences is blank. What is documented of it is
less: over several lines the first line and the stars that lead the others are left out. So a block
can be found of which nothing visible is documented.
-/

set_option autoImplicit false

namespace Tracemark

namespace Block

/-- Nothing visible is documented of the text between two sequences: it has several lines, and
what follows the first line feed is a blank line, or lines of which each is blank after its first
star. -/
inductive Vanishes (between : List Char) : Prop where
  | line {front rest : List Char} (divided : between = front ++ '\n' :: rest)
      (single : '\n' ∉ front) (last : '\n' ∉ rest) (blank : Text.isBlankText rest = true)
  | lines {front rest : List Char} (divided : between = front ++ '\n' :: rest)
      (single : '\n' ∉ front) (several : '\n' ∈ rest)
      (blank : ∀ line ∈ Text.lines rest, ∀ left, IsCut [['*']] line.full left →
        Text.isBlankText left = true)

theorem isBlankText_withoutLeading_iff {sequences : List (List Char)} {text : List Char} :
    Text.isBlankText (withoutLeading sequences text) = true ↔
      ∀ line ∈ Text.lines text, ∀ left, IsCut sequences line.full left →
        Text.isBlankText left = true := by
  rw [withoutLeading, Text.isBlankText, List.all_flatMap, List.all_eq_true]
  constructor
  · intro blank line isLine left cut
    rw [← afterSequence_eq_iff.mpr cut]
    exact blank line isLine
  · intro blank line isLine
    exact blank line isLine _ (afterSequence_eq_iff.mp rfl)

/-- A single line is documented as it is, and it was not blank. -/
theorem isBlankText_documented_iff {block : Block} {between : List Char} {omitted : Nat}
    (visible : Text.isBlankText between = false) (takes : Takes between block.text omitted) :
    Text.isBlankText block.documented = true ↔ Vanishes between := by
  unfold documented
  generalize block.text = taken at takes ⊢
  constructor
  · intro blank
    cases takes with
    | line single =>
        rw [if_neg (mt List.contains_iff_mem.mp single)] at blank
        cases visible.symm.trans blank
    | lines divided single =>
        split at blank
        · rename_i several
          exact .lines divided single (List.contains_iff_mem.mp several)
            (isBlankText_withoutLeading_iff.mp blank)
        · rename_i last
          exact .line divided single (mt List.contains_iff_mem.mpr last) blank
  · intro vanishes
    cases vanishes with
    | line divided single last blank =>
        rw [divided] at takes
        rw [takes.eq_of_divided single, if_neg (mt List.contains_iff_mem.mp last)]
        exact blank
    | lines divided single several blank =>
        rw [divided] at takes
        rw [takes.eq_of_divided single, if_pos (List.contains_iff_mem.mpr several)]
        exact isBlankText_withoutLeading_iff.mpr blank

end Block

namespace Analysis

theorem CommentPlace.block_of_mem_blockFindings [Libraries] {place : CommentPlace}
    {settings : Block.Settings} {startSequence endSequence text : List Char}
    (starts : settings.startSequence.asText = .ok startSequence)
    (ends : settings.endSequence.asText = .ok endSequence) {entry : Entry}
    (member : entry ∈ (place.gatherTrail (blockFindings settings text)).entries) :
    ∃ block, Block.find? startSequence endSequence text = some block ∧
      entry.payload = .block (String.ofList block.documented) := by
  obtain ⟨row, startColumn, endColumn, payload, log, inFindings, made⟩ := mem_gather member
  obtain ⟨link, linked, rfl⟩ := entry_eq_ok made
  simp only [blockFindings, starts, ends, List.mem_map, Option.mem_toList] at inFindings
  obtain ⟨block, found, isPiece⟩ := inFindings
  cases isPiece
  exact ⟨block, found, rfl⟩

/-- The text of a reported block has a visible character except where all that is documented of
the text between the sequences is blank. -/
theorem visible_text_of_block [Libraries] {place : CommentPlace} {settings : Block.Settings}
    {startSequence endSequence text : List Char}
    (starts : settings.startSequence.asText = .ok startSequence)
    (ends : settings.endSequence.asText = .ok endSequence) {entry : Entry}
    (member : entry ∈ (place.gatherTrail (blockFindings settings text)).entries) :
    ∃ start stop content, Block.Encloses startSequence endSequence text start stop ∧
      entry.payload = .block content ∧
      ((∃ c ∈ content.toList, Text.isBlank c = false) ↔
        ¬ Block.Vanishes (Block.inner startSequence text start stop)) := by
  obtain ⟨block, found, isText⟩ := CommentPlace.block_of_mem_blockFindings starts ends member
  obtain ⟨start, omitted, encloses, visible, takes, _⟩ := Block.takes_of_find? found
  refine ⟨start, block.endIndex, _, encloses, isText, ?_⟩
  rw [← Block.isBlankText_documented_iff visible takes, Text.isBlankText, List.all_eq_true,
    String.toList_ofList]
  simp

/-- A block whose only text stands in the line of its start sequence is reported without text. -/
theorem visible_text_of_block_in_first_line :
    let text := "/* @rst x\n@endrst */".toList
    let place : CommentPlace := ⟨⟨Path.here, none, none, Path.here⟩, Path.here, 0, none⟩
    let entry : Entry := ⟨Path.here, none, 1, 10, 10, none, .block ""⟩
    (place.gatherTrail (blockFindings {} text)).entries = [entry] ∧
      ∃ start stop, Block.Encloses "@rst".toList "@endrst".toList text start stop ∧
        Block.Vanishes (Block.inner "@rst".toList text start stop) := by
  intro text place entry
  have reported : (place.gatherTrail (blockFindings {} text)).entries = [entry] := by rfl
  obtain ⟨start, stop, content, encloses, isText, visible⟩ :=
    @visible_text_of_block _ place {} _ _ text rfl rfl entry (reported ▸ List.mem_cons_self)
  cases isText
  refine ⟨reported, start, stop, encloses, ?_⟩
  apply Classical.byContradiction
  intro shown
  obtain ⟨c, member, _⟩ := visible.mpr shown
  cases member

end Analysis

end Tracemark
