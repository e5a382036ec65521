import Tracemark.Block
import Tracemark.Proofs.Text.Search

/-!
# The extent of blocks

The first start sequence and the last end sequence of a comment are looked for independently of
each other, so the text between them is empty where the second begins before the first ends. A
block is found exactly where this text is not blank, and its indices are those of its own text.
-/

set_option autoImplicit false

namespace Tracemark.Block

/-- The first start sequence of a text begins at one index, the last end sequence at the other. -/
structure Encloses (startSequence endSequence text : List Char) (start stop : Nat) : Prop where
  starts : startSequence <+: text.drop start
  first : ∀ earlier < start, ¬ startSequence <+: text.drop earlier
  within : stop ≤ text.length
  ends : endSequence <+: text.drop stop
  last : ∀ later, stop < later → later ≤ text.length → ¬ endSequence <+: text.drop later

/-- The text from the end of the start sequence at one index to the other index. It is empty
where the second index comes first. -/
def inner (startSequence text : List Char) (start stop : Nat) : List Char :=
  Text.slice (start + startSequence.length) stop text

/-- What a block takes of the text between its sequences, and how many characters it leaves out
before: nothing of a single line, and else all up to the first line feed. -/
inductive Takes (between : List Char) : List Char → Nat → Prop where
  | line (single : '\n' ∉ between) : Takes between between 0
  | lines {front rest : List Char} (divided : between = front ++ '\n' :: rest)
      (single : '\n' ∉ front) : Takes between rest (front.length + 1)

variable {startSequence endSequence text : List Char} {start stop : Nat}

theorem encloses_iff :
    Encloses startSequence endSequence text start stop ↔
      Text.find? startSequence text = some start ∧ Text.findLast? endSequence text = some stop := by
  rw [Text.find?_eq_some_iff, Text.findLast?_eq_some_iff]
  constructor
  · intro encloses
    exact ⟨⟨encloses.starts, encloses.first⟩, ⟨encloses.within, encloses.ends⟩, encloses.last⟩
  · intro ⟨⟨starts, first⟩, ⟨within, ends⟩, last⟩
    exact ⟨starts, first, within, ends, last⟩

theorem exists_encloses_iff :
    (∃ start stop, Encloses startSequence endSequence text start stop) ↔
      startSequence <:+: text ∧ endSequence <:+: text := by
  have located : startSequence <:+: text ↔ ∃ start, Text.find? startSequence text = some start := by
    rw [← Option.ne_none_iff_exists', ne_eq, Text.find?_eq_none_iff, Decidable.not_not]
  have ended : endSequence <:+: text ↔ ∃ stop, Text.findLast? endSequence text = some stop := by
    rw [← Option.ne_none_iff_exists', ne_eq, Text.findLast?_eq_none_iff, Decidable.not_not]
  simp only [encloses_iff, exists_and_left, exists_and_right, located, ended]

theorem Takes.eq_of_divided {front rest taken : List Char} {omitted : Nat}
    (takes : Takes (front ++ '\n' :: rest) taken omitted) (single : '\n' ∉ front) :
    taken = rest := by
  generalize isBetween : front ++ '\n' :: rest = between at takes
  cases takes with
  | line none =>
      rw [← isBetween] at none
      exact absurd (List.mem_append_right _ List.mem_cons_self) none
  | lines divided otherSingle =>
      exact (Text.divided_inj otherSingle single (divided.symm.trans isBetween.symm)).2

/-! ## What is found -/

theorem exists_find?_eq_some (encloses : Encloses startSequence endSequence text start stop)
    (visible : Text.isBlankText (inner startSequence text start stop) = false) :
    ∃ block, find? startSequence endSequence text = some block := by
  obtain ⟨located, ended⟩ := encloses_iff.mp encloses
  unfold inner at visible
  simp only [find?, located, ended, visible, Bool.false_eq_true, if_false]
  split <;> exact ⟨_, rfl⟩

/-- A block is found between two sequences, and only where not all between them is blank. -/
theorem takes_of_find? {block : Block}
    (found : find? startSequence endSequence text = some block) :
    ∃ start omitted, Encloses startSequence endSequence text start block.endIndex ∧
      Text.isBlankText (inner startSequence text start block.endIndex) = false ∧
      Takes (inner startSequence text start block.endIndex) block.text omitted ∧
      block.startIndex = start + startSequence.length + omitted := by
  unfold find? at found
  split at found
  · rename_i start stop located ended
    have encloses := encloses_iff.mpr ⟨located, ended⟩
    dsimp only at found
    split at found
    · cases found
    · rename_i visible
      have notBlank := Bool.eq_false_iff.mpr visible
      split at found
      · rename_i none
        cases found
        exact ⟨start, 0, encloses, notBlank, .line (Text.find?_singleton_eq_none_iff.mp none), rfl⟩
      · rename_i newline atNewline
        cases found
        obtain ⟨front, rest, divided, single, rfl⟩ := Text.exists_append_of_find?_singleton atNewline
        refine ⟨start, front.length + 1, encloses, notBlank, ?_, rfl⟩
        have isRest : (Text.slice (start + startSequence.length) stop text).drop
            (front.length + 1) = rest := by
          rw [divided, List.drop_length_add_append, List.drop_one, List.tail_cons]
        rw [isRest]
        exact .lines divided single
  · cases found

theorem find?_eq_none_iff_blank :
    find? startSequence endSequence text = none ↔
      ∀ start stop, Encloses startSequence endSequence text start stop →
        Text.isBlankText (inner startSequence text start stop) = true := by
  constructor
  · intro none start stop encloses
    apply Decidable.byContradiction
    intro visible
    obtain ⟨block, found⟩ := exists_find?_eq_some encloses (Bool.eq_false_iff.mpr visible)
    cases none.symm.trans found
  · intro blank
    cases found : find? startSequence endSequence text with
    | none => rfl
    | some block =>
        obtain ⟨start, omitted, encloses, visible, _⟩ := takes_of_find? found
        cases visible.symm.trans (blank _ _ encloses)

/-! ## Indices -/

theorem Takes.suffix {between taken : List Char} {omitted : Nat}
    (takes : Takes between taken omitted) :
    omitted ≤ between.length ∧ between.drop omitted = taken := by
  cases takes with
  | line single => exact ⟨Nat.zero_le _, rfl⟩
  | lines divided single =>
      subst divided
      constructor
      · simp
      · rw [List.drop_length_add_append, List.drop_one, List.tail_cons]

/-- What a block takes ends where the end sequence begins. -/
theorem Takes.slice {taken : List Char} {omitted : Nat} (within : stop ≤ text.length)
    (visible : Text.isBlankText (inner startSequence text start stop) = false)
    (takes : Takes (inner startSequence text start stop) taken omitted) :
    start + startSequence.length + omitted ≤ stop ∧
      Text.slice (start + startSequence.length + omitted) stop text = taken := by
  obtain ⟨fits, isTaken⟩ := takes.suffix
  unfold inner at visible fits isTaken
  have notEmpty : 0 < (Text.slice (start + startSequence.length) stop text).length := by
    apply List.length_pos_iff.mpr
    intro empty
    rw [empty] at visible
    cases visible
  rw [Text.length_slice, Nat.min_eq_left within] at notEmpty fits
  rw [Text.drop_slice] at isTaken
  exact ⟨by omega, isTaken⟩

/-- No block is found exactly where a sequence does not occur or all between the first start
sequence and the last end sequence is blank. A block that is found stands between its indices, the
last end sequence begins at the second of them, and the text of the block is all between the
sequences or, over several lines, what follows the first line feed there. -/
theorem find?_delimits (startSequence endSequence text : List Char) :
    (find? startSequence endSequence text = none ↔
      ¬ startSequence <:+: text ∨ ¬ endSequence <:+: text ∨
        ∃ start stop, Encloses startSequence endSequence text start stop ∧
          ∀ c ∈ inner startSequence text start stop, Text.isBlank c = true) ∧
      ∀ block, find? startSequence endSequence text = some block →
        block.startIndex ≤ block.endIndex ∧ block.endIndex ≤ text.length ∧
          Text.slice block.startIndex block.endIndex text = block.text ∧
          ∃ start omitted, Encloses startSequence endSequence text start block.endIndex ∧
            Takes (inner startSequence text start block.endIndex) block.text omitted ∧
            block.startIndex = start + startSequence.length + omitted := by
  constructor
  · rw [find?_eq_none_iff_blank]
    constructor
    · intro blank
      by_cases both : startSequence <:+: text ∧ endSequence <:+: text
      · obtain ⟨start, stop, encloses⟩ := exists_encloses_iff.mpr both
        exact .inr (.inr ⟨start, stop, encloses, List.all_eq_true.mp (blank start stop encloses)⟩)
      · rcases Decidable.not_and_iff_or_not.mp both with noStart | noEnd
        · exact .inl noStart
        · exact .inr (.inl noEnd)
    · intro missing start stop encloses
      obtain ⟨hasStart, hasEnd⟩ := exists_encloses_iff.mp ⟨start, stop, encloses⟩
      rcases missing with noStart | noEnd | ⟨otherStart, otherStop, other, blank⟩
      · exact absurd hasStart noStart
      · exact absurd hasEnd noEnd
      · obtain ⟨located, ended⟩ := encloses_iff.mp encloses
        obtain ⟨otherLocated, otherEnded⟩ := encloses_iff.mp other
        cases located.symm.trans otherLocated
        cases ended.symm.trans otherEnded
        exact List.all_eq_true.mpr blank
  · intro block found
    obtain ⟨start, omitted, encloses, visible, takes, startIndex⟩ := takes_of_find? found
    obtain ⟨ordered, isText⟩ := takes.slice encloses.within visible
    rw [startIndex]
    exact ⟨ordered, encloses.within, isText, start, omitted, encloses, takes, rfl⟩

/-- Of two end sequences the last one ends the block, also where the first one comes before the
start sequence; where both do, there is no block. -/
theorem find?_delimits_between_lines :
    let text := "@endrst @rst x\n a\n@endrst".toList
    find? "@rst".toList "@endrst".toList text = some ⟨" a\n".toList, 1, 15, 18⟩ ∧
      Text.slice 15 18 text = " a\n".toList ∧ "@endrst".toList <+: text.drop 18 ∧
      find? "@rst".toList "@endrst".toList (text.take 18) = none := by
  intro text
  have found : find? "@rst".toList "@endrst".toList text = some ⟨" a\n".toList, 1, 15, 18⟩ := by
    decide +kernel
  obtain ⟨_, _, isText, start, _, encloses, _⟩ := (find?_delimits _ _ text).2 _ found
  refine ⟨found, isText, encloses.ends, ?_⟩
  apply (find?_delimits _ _ _).1.mpr
  refine .inr (.inr ⟨8, 0, encloses_iff.mpr ⟨by decide +kernel, by decide +kernel⟩, ?_⟩)
  intro c member
  cases member

end Tracemark.Block
