import Tracemark.Block
import Tracemark.Proofs.Text.Joined
import Tracemark.Proofs.Text.Search

/-!
# Lines without leading sequences

A sequence is cut off a line wherever it stands in it, with all that is before it. So a line
is left as it is exactly where none of the sequences occurs in it, not only where none leads
it.
-/

set_option autoImplicit false

namespace Tracemark.Block

/-- What is left of a line: all of it where none of the sequences occurs, and else what
follows the first occurrence of the first of them that does. -/
inductive IsCut (sequences : List (List Char)) (line : List Char) : List Char → Prop where
  | kept (absent : ∀ sequence ∈ sequences, ¬ sequence <:+: line) : IsCut sequences line line
  | cut {front : List (List Char)} {sequence : List Char} {back : List (List Char)} {index : Nat}
      (listed : sequences = front ++ sequence :: back)
      (absent : ∀ other ∈ front, ¬ other <:+: line) (begins : sequence <+: line.drop index)
      (first : ∀ earlier < index, ¬ sequence <+: line.drop earlier) :
      IsCut sequences line (line.drop (index + sequence.length))

/-- One of the sequences stands at the beginning of the line or after blank space. -/
def LedBy (sequences : List (List Char)) (line : List Char) : Prop :=
  ∃ sequence ∈ sequences, sequence <+: line.dropWhile Text.isBlank

instance (sequences : List (List Char)) (line : List Char) : Decidable (LedBy sequences line) :=
  List.decidableBEx _ _

variable {sequences : List (List Char)} {line : List Char}

def after? (line sequence : List Char) : Option (List Char) :=
  (Text.find? sequence line).map fun index => line.drop (index + sequence.length)

theorem afterSequence_eq (sequences : List (List Char)) (line : List Char) :
    afterSequence sequences line = (sequences.findSome? (after? line)).getD line := by
  change _ = (sequences.findSome? fun sequence =>
    (Text.find? sequence line).map fun index => line.drop (index + sequence.length)).getD line
  rw [afterSequence]
  split <;> rename_i found <;> rw [found] <;> rfl

theorem after?_eq_none_iff {sequence : List Char} :
    after? line sequence = none ↔ ¬ sequence <:+: line := by
  rw [after?, Option.map_eq_none_iff, Text.find?_eq_none_iff]

theorem after?_eq_some_iff {sequence rest : List Char} :
    after? line sequence = some rest ↔
      ∃ index, (sequence <+: line.drop index ∧ ∀ earlier < index, ¬ sequence <+: line.drop earlier) ∧
        line.drop (index + sequence.length) = rest := by
  simp only [after?, Option.map_eq_some_iff, Text.find?_eq_some_iff]

theorem afterSequence_eq_iff {rest : List Char} :
    afterSequence sequences line = rest ↔ IsCut sequences line rest := by
  rw [afterSequence_eq]
  constructor
  · intro same
    cases found : sequences.findSome? (after? line) with
    | none =>
        rw [found, Option.getD_none] at same
        rw [← same]
        apply IsCut.kept
        intro sequence member
        exact after?_eq_none_iff.mp (List.findSome?_eq_none_iff.mp found sequence member)
    | some cut =>
        rw [found, Option.getD_some] at same
        obtain ⟨front, sequence, back, listed, located, nothing⟩ :=
          List.findSome?_eq_some_iff.mp found
        obtain ⟨index, ⟨begins, first⟩, isRest⟩ := after?_eq_some_iff.mp located
        rw [← same, ← isRest]
        refine .cut listed ?_ begins first
        intro other member
        exact after?_eq_none_iff.mp (nothing other member)
  · intro cut
    cases cut with
    | kept absent =>
        have nothing : sequences.findSome? (after? line) = none := by
          rw [List.findSome?_eq_none_iff]
          intro sequence member
          exact after?_eq_none_iff.mpr (absent sequence member)
        rw [nothing, Option.getD_none]
    | cut listed absent begins first =>
        have located := after?_eq_some_iff.mpr ⟨_, ⟨begins, first⟩, rfl⟩
        have found := List.findSome?_eq_some_iff.mpr ⟨_, _, _, listed, located, fun other member =>
          after?_eq_none_iff.mpr (absent other member)⟩
        rw [found, Option.getD_some]

theorem IsCut.suffix {rest : List Char} (cut : IsCut sequences line rest) : rest <:+ line := by
  cases cut with
  | kept absent => exact List.suffix_rfl
  | cut listed absent begins first => exact List.drop_suffix _ _

theorem IsCut.eq_self_iff {rest : List Char} (cut : IsCut sequences line rest)
    (some : ∀ sequence ∈ sequences, sequence ≠ []) :
    rest = line ↔ ∀ sequence ∈ sequences, ¬ sequence <:+: line := by
  cases cut with
  | kept absent => exact iff_of_true rfl absent
  | cut listed absent begins first =>
      rename_i front sequence back index
      have member : sequence ∈ sequences := by simp [listed]
      have occurs : sequence <:+: line := begins.isInfix.trans (List.drop_suffix _ _).isInfix
      have longer := List.length_pos_iff.mpr (some sequence member)
      constructor
      · intro same
        have lengths := congrArg List.length same
        have fits := occurs.length_le
        rw [List.length_drop] at lengths
        omega
      · intro nowhere
        exact absurd occurs (nowhere sequence member)

/-- A line is left as it is exactly where none of the sequences occurs in it. -/
theorem afterSequence_eq_self_iff (some : ∀ sequence ∈ sequences, sequence ≠ [])
    (line : List Char) :
    afterSequence sequences line = line ↔ ∀ sequence ∈ sequences, ¬ sequence <:+: line :=
  (afterSequence_eq_iff.mp rfl).eq_self_iff some

/-! ## All lines of a text -/

def cutLines (sequences : List (List Char)) (text : List Char) : List (List Char) :=
  (Text.lines text).map fun line => afterSequence sequences line.full

theorem withoutLeading_eq_flatten (sequences : List (List Char)) (text : List Char) :
    withoutLeading sequences text = (cutLines sequences text).flatten := by
  rw [withoutLeading, List.flatMap_def, cutLines]

theorem single_of_mem_cutLines {text piece : List Char} (member : piece ∈ cutLines sequences text) :
    Text.IsEnded piece ∨ Text.Unbroken piece := by
  obtain ⟨line, isLine, rfl⟩ := List.mem_map.mp member
  have suffix := (@afterSequence_eq_iff sequences line.full _).mp rfl |>.suffix
  have unbroken := Text.unbroken_body isLine
  rcases Text.isEnding_of_mem_lines isLine with none | ends
  · rw [Text.Line.full, none, List.append_nil] at suffix ⊢
    exact .inr (unbroken.of_subset suffix.subset)
  · rcases Text.isEnded_of_suffix unbroken ends suffix with empty | ended
    · exact .inr (empty ▸ unbroken.of_subset (List.nil_subset _))
    · exact .inl ended

theorem pairwise_cutLines (sequences : List (List Char)) (text : List Char) :
    (cutLines sequences text).Pairwise fun piece _ => piece = [] ∨ Text.IsEnded piece := by
  rw [cutLines, List.pairwise_map]
  apply (Text.pairwise_isEnding_lines text).imp_of_mem
  intro line _ isLine _ ends
  exact Text.isEnded_of_suffix (Text.unbroken_body isLine) ends
    (afterSequence_eq_iff.mp rfl).suffix

/-- Each line of a text is cut for itself. The lines that no sequence leads are all left as they
are exactly where each line in which a sequence occurs is led by one. There are as many lines as
before exactly where something is left of each line, and no two endings become one. -/
theorem lines_of_withoutLeading (some : ∀ sequence ∈ sequences, sequence ≠ []) (text : List Char) :
    withoutLeading sequences text = (cutLines sequences text).flatten ∧
      (∀ line ∈ Text.lines text, ∀ rest,
        afterSequence sequences line.full = rest ↔ IsCut sequences line.full rest) ∧
      ((∀ line ∈ Text.lines text,
          ¬ LedBy sequences line.full → afterSequence sequences line.full = line.full) ↔
        ∀ line ∈ Text.lines text, ∀ sequence ∈ sequences,
          sequence <:+: line.full → LedBy sequences line.full) ∧
      ((Text.lines (withoutLeading sequences text)).length = (Text.lines text).length ↔
        [] ∉ cutLines sequences text ∧
          (cutLines sequences text).IsChain fun piece next => ¬ Text.Joins piece next) := by
  refine ⟨withoutLeading_eq_flatten sequences text, fun _ _ _ => afterSequence_eq_iff, ?_, ?_⟩
  · simp only [afterSequence_eq_self_iff some]
    constructor
    · intro kept line isLine sequence member occurs
      apply Decidable.byContradiction
      intro unled
      exact kept line isLine unled sequence member occurs
    · intro led line isLine unled sequence member occurs
      exact unled (led line isLine sequence member occurs)
  · have sameLength : (Text.lines text).length = (cutLines sequences text).length := by
      rw [cutLines, List.length_map]
    rw [withoutLeading_eq_flatten, sameLength]
    exact (Text.length_lines_flatten (fun _ => single_of_mem_cutLines)
      (pairwise_cutLines sequences text)).2

/-- Of three lines the first is led by a star, the second holds two that are no leading ones, and
the last is only a star. -/
theorem lines_of_withoutLeading_emphasis :
    let sequences := [['*']]
    let text := " * a\nb *c*\n*".toList
    (∀ sequence ∈ sequences, sequence ≠ []) ∧
      withoutLeading sequences text = " a\nc*\n".toList ∧
      (¬ ∀ line ∈ Text.lines text,
        ¬ LedBy sequences line.full → afterSequence sequences line.full = line.full) ∧
      (Text.lines (withoutLeading sequences text)).length ≠ (Text.lines text).length := by
  intro sequences text
  have some : ∀ sequence ∈ sequences, sequence ≠ [] := by decide
  obtain ⟨_, _, kept, counted⟩ := lines_of_withoutLeading some text
  refine ⟨some, by decide +kernel, ?_, ?_⟩
  · rw [kept]
    intro led
    have unled := led ⟨"b *c*".toList, ['\n']⟩ (by decide +kernel) ['*'] (by decide) (by decide +kernel)
    exact absurd unled (by decide +kernel)
  · rw [ne_eq, counted]
    intro all
    exact absurd all.1 (by decide +kernel)

end Tracemark.Block
