import Tracemark.Proofs.Text.Blank

/-!
# Runs of characters between separators

The runs of a text are the pieces between its separators that are not empty. So they fall
apart at a separator, separators around a text add none, and together they hold all
characters of the text that are no separators.
-/

set_option autoImplicit false

namespace Tracemark.Text

variable {test : Char → Bool}

theorem runsOutside_eq_filter_splitOnP (text : List Char) :
    runsOutside test text = (text.splitOnP test).filter (!·.isEmpty) := by
  fun_induction runsOutside test text with
  | case1 => simp
  | case2 c rest divides ih => simp [List.splitOnP_cons_eq_if_modifyHead, divides, ih]
  | case3 c within => simp [List.splitOnP_cons_eq_if_modifyHead, within]
  | case4 c within next rest divides ih =>
      simp [List.splitOnP_cons_eq_if_modifyHead, within, divides, ih]
  | case5 c within next rest goesOn empty ih =>
      -- A text that begins with no separator has a first run.
      obtain ⟨first, more, divided⟩ := List.exists_cons_of_ne_nil (List.splitOnP_ne_nil test rest)
      rw [empty, List.splitOnP_cons_eq_if_modifyHead, if_neg goesOn, divided] at ih
      simp at ih
  | case6 c within next rest goesOn run more found ih =>
      obtain ⟨first, others, divided⟩ := List.exists_cons_of_ne_nil (List.splitOnP_ne_nil test rest)
      rw [found] at ih ⊢
      simp only [List.splitOnP_cons_eq_if_modifyHead, goesOn, within, divided] at ih ⊢
      simpa using ih

theorem runsOutside_append_cons {c : Char} (divides : test c = true) (left right : List Char) :
    runsOutside test (left ++ c :: right) = runsOutside test left ++ runsOutside test right := by
  simp only [runsOutside_eq_filter_splitOnP, List.splitOnP_append_cons left right divides,
    List.filter_append]

theorem runsOutside_cons {c : Char} (divides : test c = true) (text : List Char) :
    runsOutside test (c :: text) = runsOutside test text :=
  runsOutside_append_cons divides [] text

theorem runsOutside_append {right : List Char} (begins : ∀ c ∈ right.head?, test c = true)
    (left : List Char) :
    runsOutside test (left ++ right) = runsOutside test left ++ runsOutside test right := by
  cases right with
  | nil => simp [runsOutside]
  | cons c rest =>
      have divides := begins c rfl
      rw [runsOutside_append_cons divides, runsOutside_cons divides]

theorem runsOutside_of_within {text : List Char} (some : text ≠ [])
    (within : ∀ c ∈ text, test c = false) : runsOutside test text = [text] := by
  rw [runsOutside_eq_filter_splitOnP, List.splitOnP_eq_singleton within]
  simp [some]

theorem runsOutside_separators_append {separators : List Char}
    (divide : ∀ c ∈ separators, test c = true) (text : List Char) :
    runsOutside test (separators ++ text) = runsOutside test text := by
  induction separators with
  | nil => rfl
  | cons c rest ih =>
      obtain ⟨first, others⟩ := List.forall_mem_cons.mp divide
      rw [List.cons_append, runsOutside_cons first, ih others]

theorem runsOutside_of_separators {text : List Char} (divide : ∀ c ∈ text, test c = true) :
    runsOutside test text = [] := by
  simpa [runsOutside] using runsOutside_separators_append divide []

theorem runsOutside_append_separators {separators : List Char}
    (divide : ∀ c ∈ separators, test c = true) (text : List Char) :
    runsOutside test (text ++ separators) = runsOutside test text := by
  have begins : ∀ c ∈ separators.head?, test c = true := by
    intro c first
    exact divide c (List.mem_of_mem_head? first)
  rw [runsOutside_append begins, runsOutside_of_separators divide, List.append_nil]

theorem flatten_runsOutside (text : List Char) :
    (runsOutside test text).flatten = text.filter (!test ·) := by
  rw [runsOutside_eq_filter_splitOnP, List.flatten_filter_not_isEmpty]
  induction text with
  | nil => rfl
  | cons c rest ih =>
      rw [List.splitOnP_cons_eq_if_modifyHead]
      cases divides : test c with
      | true => simpa [divides] using ih
      | false =>
          obtain ⟨first, more, divided⟩ :=
            List.exists_cons_of_ne_nil (List.splitOnP_ne_nil test rest)
          rw [divided] at ih ⊢
          simpa [divides] using ih

/-- More runs come of what follows a text, unless that is made of separators. -/
theorem runsOutside_append_eq_left_iff {left right : List Char} :
    runsOutside test (left ++ right) = runsOutside test left ↔ ∀ c ∈ right, test c = true := by
  constructor
  · intro same
    have characters := congrArg List.flatten same
    rw [flatten_runsOutside, flatten_runsOutside, List.filter_append,
      List.append_right_eq_self, List.filter_eq_nil_iff] at characters
    simpa using characters
  · intro divide
    exact runsOutside_append_separators divide left

theorem runsOutside_trimBy {removed : Char → Bool} (divides : ∀ c, removed c = true → test c = true)
    (text : List Char) : runsOutside test (trimBy removed text) = runsOutside test text := by
  obtain ⟨tail, divided, isTail⟩ := exists_tail_of_trimBy removed text
  have before : ∀ c ∈ text.takeWhile removed, test c = true := by
    intro c member
    exact divides c (List.mem_takeWhile_imp member)
  have behind : ∀ c ∈ tail, test c = true := by
    intro c member
    exact divides c (isTail c member)
  calc runsOutside test (trimBy removed text)
      = runsOutside test (text.takeWhile removed ++ (trimBy removed text ++ tail)) := by
        rw [runsOutside_separators_append before, runsOutside_append_separators behind]
    _ = runsOutside test text := by rw [← divided]

end Tracemark.Text
