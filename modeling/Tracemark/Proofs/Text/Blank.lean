import Mathlib.Data.List.TakeWhile
import Tracemark.Text.Blank

/-!
# Blank space at the ends of texts

What trimming leaves of a text, and which texts it leaves as they are.
-/

set_option autoImplicit false

namespace Tracemark.Text

theorem mem_of_mem_trimBy {test : Char → Bool} {text : List Char} {c : Char}
    (member : c ∈ trimBy test text) : c ∈ text := by
  have inBack := List.mem_reverse.mp member
  have inFront := List.mem_reverse.mp ((List.dropWhile_sublist test).subset inBack)
  exact (List.dropWhile_sublist test).subset inFront

/-- Nothing changes when more of what is removed follows a text. -/
theorem trimBy_append {test : Char → Bool} (text : List Char) {tail : List Char}
    (removed : ∀ c ∈ tail, test c = true) : trimBy test (text ++ tail) = trimBy test text := by
  have back : ∀ front : List Char, dropTail test (front ++ tail) = dropTail test front := by
    intro front
    simp only [dropTail, List.reverse_append]
    rw [List.dropWhile_append_of_pos fun c member => removed c (List.mem_reverse.mp member)]
  simp only [trimBy, List.dropWhile_append]
  split
  · rename_i empty
    have nothing : tail.dropWhile test = [] := List.dropWhile_eq_nil_iff.mpr removed
    rw [nothing, List.isEmpty_iff.mp empty]
  · exact back _

/-- What is removed at both ends satisfies the test. -/
theorem exists_tail_of_trimBy (test : Char → Bool) (text : List Char) :
    ∃ tail, text = text.takeWhile test ++ (trimBy test text ++ tail) ∧ ∀ c ∈ tail, test c = true := by
  refine ⟨((text.dropWhile test).reverse.takeWhile test).reverse, ?_, ?_⟩
  · rw [trimBy, dropTail, ← List.reverse_append, List.takeWhile_append_dropWhile,
      List.reverse_reverse, List.takeWhile_append_dropWhile]
  · intro c member
    exact List.mem_takeWhile_imp (List.mem_reverse.mp member)

theorem count_trimBy {test : Char → Bool} {c : Char} (kept : test c = false) (text : List Char) :
    (trimBy test text).count c = text.count c := by
  obtain ⟨tail, divided, removed⟩ := exists_tail_of_trimBy test text
  have front : (text.takeWhile test).count c = 0 := by
    refine List.count_eq_zero.mpr fun member => ?_
    exact Bool.false_ne_true (kept.symm.trans (List.mem_takeWhile_imp member))
  have back : tail.count c = 0 := by
    refine List.count_eq_zero.mpr fun member => ?_
    exact Bool.false_ne_true (kept.symm.trans (removed c member))
  have counted := congrArg (List.count c) divided
  rw [List.count_append, List.count_append, front, back] at counted
  omega

/-- No blank character stands at the beginning or at the end. -/
structure IsTrimmed (text : List Char) : Prop where
  first : ∀ c ∈ text.head?, isBlank c = false
  last : ∀ c ∈ text.getLast?, isBlank c = false

theorem isTrimmed_iff {text : List Char} :
    IsTrimmed text ↔
      (text.head?.all fun c => !isBlank c) = true ∧
        (text.getLast?.all fun c => !isBlank c) = true := by
  simp only [Option.all_eq_true, Bool.not_eq_true']
  exact ⟨fun trimmed => ⟨trimmed.first, trimmed.last⟩, fun both => ⟨both.1, both.2⟩⟩

instance : DecidablePred IsTrimmed := fun _ =>
  decidable_of_iff' _ isTrimmed_iff

theorem trimBy_eq_self {test : Char → Bool} {text : List Char}
    (first : ∀ c ∈ text.head?, test c = false) (last : ∀ c ∈ text.getLast?, test c = false) :
    trimBy test text = text := by
  have front : text.dropWhile test = text := by
    cases text with
    | nil => rfl
    | cons c rest => simp [first c rfl]
  have back : text.reverse.dropWhile test = text.reverse := by
    cases reversed : text.reverse with
    | nil => rfl
    | cons c rest =>
        have atEnd : text.getLast? = some c := by
          rw [← List.head?_reverse, reversed, List.head?_cons]
        simp [last c atEnd]
  simp [trimBy, dropTail, front, back]

namespace IsTrimmed

variable {text : List Char}

theorem trim_eq (trimmed : IsTrimmed text) : trim text = text :=
  trimBy_eq_self trimmed.first trimmed.last

theorem dropTail_eq (trimmed : IsTrimmed text) : dropTail isBlank text = text := by
  have front : text.dropWhile isBlank = text := by
    cases text with
    | nil => rfl
    | cons c rest => simp [trimmed.first c rfl]
  have trims := trimmed.trim_eq
  rwa [trim, trimBy, front] at trims

/-- Blank space around a text is removed. -/
theorem trim_padded (trimmed : IsTrimmed text) {front back : List Char}
    (frontBlank : ∀ c ∈ front, isBlank c = true) (backBlank : ∀ c ∈ back, isBlank c = true) :
    trim (front ++ text ++ back) = text := by
  rw [trim, trimBy_append _ backBlank, trimBy, List.dropWhile_append_of_pos frontBlank]
  exact trimmed.trim_eq

theorem trimSpaces_eq (trimmed : IsTrimmed text) : trimSpaces text = text := by
  have visible : ∀ c, isBlank c = false → (c == ' ') = false := by
    intro c notBlank
    refine beq_eq_false_iff_ne.mpr ?_
    rintro rfl
    exact absurd notBlank (by decide)
  exact trimBy_eq_self (fun c found => visible c (trimmed.first c found))
    fun c found => visible c (trimmed.last c found)

theorem isBlankText_eq_false (trimmed : IsTrimmed text) (some : text ≠ []) :
    isBlankText text = false := by
  cases text with
  | nil => exact absurd rfl some
  | cons c rest => simp [isBlankText, trimmed.first c rfl]

theorem append_cons {left right : List Char} {c : Char} (leftTrimmed : IsTrimmed left)
    (rightTrimmed : IsTrimmed right) (visible : isBlank c = false) :
    IsTrimmed (left ++ c :: right) := by
  constructor
  · intro first found
    cases left with
    | nil =>
        cases found
        exact visible
    | cons character rest => exact leftTrimmed.first first found
  · intro last found
    rw [List.getLast?_append, List.getLast?_cons, Option.some_or, Option.mem_some_iff] at found
    cases atEnd : right.getLast? with
    | none => simpa [← found, atEnd] using visible
    | some character =>
        have same : character = last := by simpa [atEnd] using found
        exact rightTrimmed.last last (same ▸ atEnd)

/-- Whatever stands between two texts that are trimmed is not at an end. -/
theorem append_append {left right : List Char} (leftTrimmed : IsTrimmed left)
    (rightTrimmed : IsTrimmed right) (leftSome : left ≠ []) (rightSome : right ≠ [])
    (middle : List Char) : IsTrimmed (left ++ middle ++ right) := by
  constructor
  · intro first found
    obtain ⟨c, rest, rfl⟩ := List.exists_cons_of_ne_nil leftSome
    exact leftTrimmed.first first found
  · intro last found
    have atEnd := List.getLast?_eq_some_getLast rightSome
    rw [List.getLast?_append, atEnd, Option.some_or] at found
    exact rightTrimmed.last last (atEnd.trans found)

end IsTrimmed

end Tracemark.Text
