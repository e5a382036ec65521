import Mathlib.Data.List.Chain
import Tracemark.Proofs.Text.Lines

/-!
# Lines that are put together

Pieces of lines that are put together make so many lines, unless a piece is empty, or a
carriage return at the end of one and a line feed at the beginning of the next become one
ending.
-/

set_option autoImplicit false

namespace Tracemark.Text

/-- A text that is one line with its ending. -/
def IsEnded (piece : List Char) : Prop :=
  ∃ body ending, piece = body ++ ending ∧ Unbroken body ∧ IsEnding ending

/-- The two texts meet in a carriage return and a line feed. -/
def Joins (piece next : List Char) : Prop :=
  piece.getLast? = some '\r' ∧ next.head? = some '\n'

instance (piece next : List Char) : Decidable (Joins piece next) :=
  inferInstanceAs (Decidable (_ ∧ _))

theorem IsEnding.ne_nil {ending : List Char} (ends : IsEnding ending) : ending ≠ [] := by
  rcases ends with rfl | ⟨c, rfl, _⟩ <;> simp

theorem isEnded_of_isEnding {ending : List Char} (ends : IsEnding ending) : IsEnded ending :=
  ⟨[], ending, rfl, fun _ member => absurd member List.not_mem_nil, ends⟩

theorem isEnded_of_suffix_ending {piece ending : List Char} (ends : IsEnding ending)
    (suffix : piece <:+ ending) : piece = [] ∨ IsEnded piece := by
  rcases ends with rfl | ⟨c, rfl, breaks⟩
  · rcases List.suffix_cons_iff.mp suffix with rfl | later
    · exact .inr (isEnded_of_isEnding (.inl rfl))
    · rcases List.suffix_cons_iff.mp later with rfl | nothing
      · exact .inr (isEnded_of_isEnding (.inr ⟨'\n', rfl, rfl⟩))
      · exact .inl (List.suffix_nil.mp nothing)
  · rcases List.suffix_cons_iff.mp suffix with rfl | nothing
    · exact .inr (isEnded_of_isEnding (.inr ⟨c, rfl, breaks⟩))
    · exact .inl (List.suffix_nil.mp nothing)

/-- What is left of a line with its ending is nothing or again such a line. -/
theorem isEnded_of_suffix {piece body ending : List Char} (unbroken : Unbroken body)
    (ends : IsEnding ending) (suffix : piece <:+ body ++ ending) : piece = [] ∨ IsEnded piece := by
  induction body with
  | nil => exact isEnded_of_suffix_ending ends suffix
  | cons c body ih =>
      obtain ⟨_, others⟩ := List.forall_mem_cons.mp unbroken
      rcases List.suffix_cons_iff.mp suffix with whole | later
      · exact .inr ⟨c :: body, ending, whole, unbroken, ends⟩
      · exact ih others later

/-! ## The number of lines -/

theorem length_lines_cons {c : Char} (goesOn : isLineBreak c = false) {rest : List Char}
    (some : rest ≠ []) : (lines (c :: rest)).length = (lines rest).length := by
  obtain ⟨line, more, divided⟩ :=
    List.exists_cons_of_ne_nil (mt lines_eq_nil_iff.mp some)
  rw [lines]
  · simp [goesOn, divided]
  · intro _ isReturn
    rw [isReturn] at goesOn
    cases goesOn

theorem length_lines_unbroken_append {body rest : List Char} (unbroken : Unbroken body)
    (some : rest ≠ []) : (lines (body ++ rest)).length = (lines rest).length := by
  induction body with
  | nil => rfl
  | cons c body ih =>
      obtain ⟨first, others⟩ := List.forall_mem_cons.mp unbroken
      rw [List.cons_append, length_lines_cons first (by simp [some]), ih others]

theorem lines_break {c : Char} (breaks : isLineBreak c = true) {rest : List Char}
    (apart : ¬ Joins [c] rest) : lines (c :: rest) = ⟨[], [c]⟩ :: lines rest := by
  rw [lines]
  · simp [breaks]
  · intro later isReturn isFeed
    apply apart
    rw [isReturn, isFeed]
    exact ⟨rfl, rfl⟩

theorem length_lines_ending_append {ending : List Char} (ends : IsEnding ending)
    (rest : List Char) :
    (lines (ending ++ rest)).length =
      (lines rest).length + if Joins ending rest then 0 else 1 := by
  rcases ends with rfl | ⟨c, rfl, breaks⟩
  · have apart : ¬ Joins ['\r', '\n'] rest := by
      intro joins
      cases joins.1
    simp [lines, apart]
  · by_cases joins : Joins [c] rest
    · obtain ⟨later, rfl⟩ := List.head?_eq_some_iff.mp joins.2
      obtain rfl : c = '\r' := by simpa using joins.1
      have apart : ¬ Joins ['\n'] later := by
        intro joins
        cases joins.1
      rw [if_pos joins, lines_break (by decide) apart]
      simp [lines]
    · rw [if_neg joins, List.singleton_append, lines_break breaks joins, List.length_cons]

theorem IsEnded.length_lines_append {piece : List Char} (ended : IsEnded piece)
    (rest : List Char) :
    (lines (piece ++ rest)).length = (lines rest).length + if Joins piece rest then 0 else 1 := by
  obtain ⟨body, ending, rfl, unbroken, ends⟩ := ended
  have same : Joins (body ++ ending) rest ↔ Joins ending rest := by
    rw [Joins, List.getLast?_append_of_ne_nil _ ends.ne_nil, Joins]
  have some : ending ++ rest ≠ [] := by simp [ends.ne_nil]
  simp only [List.append_assoc, length_lines_unbroken_append unbroken some, same,
    length_lines_ending_append ends]

theorem length_lines_of_single {piece : List Char} (single : IsEnded piece ∨ Unbroken piece)
    (some : piece ≠ []) : (lines piece).length = 1 := by
  rcases single with ended | unbroken
  · have alone : ¬ Joins piece [] := by
      intro joins
      cases joins.2
    simpa [alone, lines] using ended.length_lines_append []
  · rw [lines_of_unbroken unbroken some, List.length_singleton]

theorem joins_flatten_iff {piece next : List Char} {rest : List (List Char)}
    (none : [] ∉ next :: rest) : Joins piece (next :: rest).flatten ↔ Joins piece next := by
  have some : next ≠ [] := by
    intro nothing
    exact none (nothing ▸ List.mem_cons_self)
  rw [Joins, List.flatten_cons, List.head?_append_of_ne_nil _ some, Joins]

/-- Pieces of which each but the last is nothing or an ended line. -/
theorem length_lines_flatten {pieces : List (List Char)}
    (single : ∀ piece ∈ pieces, IsEnded piece ∨ Unbroken piece)
    (ended : pieces.Pairwise fun piece _ => piece = [] ∨ IsEnded piece) :
    (lines pieces.flatten).length ≤ pieces.length ∧
      ((lines pieces.flatten).length = pieces.length ↔
        [] ∉ pieces ∧ pieces.IsChain fun piece next => ¬ Joins piece next) := by
  induction pieces with
  | nil => simp [lines]
  | cons piece rest ih =>
      obtain ⟨isSingle, others⟩ := List.forall_mem_cons.mp single
      obtain ⟨isEnded, endedRest⟩ := List.pairwise_cons.mp ended
      obtain ⟨atMost, all⟩ := ih others endedRest
      rw [List.flatten_cons, List.length_cons]
      by_cases empty : piece = []
      · simp only [empty, List.nil_append, List.mem_cons_self, not_true_eq_false, false_and,
          iff_false]
        omega
      cases rest with
      | nil => simp [length_lines_of_single isSingle empty, Ne.symm empty]
      | cons next rest =>
          have endedHere := (isEnded next List.mem_cons_self).resolve_left empty
          have fewer : [] ∉ piece :: next :: rest ↔ [] ∉ next :: rest := by
            simp [Ne.symm empty]
          rw [endedHere.length_lines_append, List.isChain_cons_cons, fewer]
          refine ⟨by split <;> omega, ?_, ?_⟩
          · intro same
            by_cases joins : Joins piece (next :: rest).flatten
            · rw [if_pos joins] at same
              omega
            · rw [if_neg joins, Nat.add_right_cancel_iff] at same
              obtain ⟨none, chain⟩ := all.mp same
              exact ⟨none, mt (joins_flatten_iff none).mpr joins, chain⟩
          · intro kept
            obtain ⟨none, apart, chain⟩ := kept
            rw [all.mpr ⟨none, chain⟩, if_neg (mt (joins_flatten_iff none).mp apart)]

end Tracemark.Text
