import Tracemark.Proofs.Text.Blank
import Tracemark.Text.Lines
import Tracemark.Text.Search

/-!
# Lines of a text

A text in which only line feeds end lines has one line for each of them, and one
more if something follows the last. Whatever ends its lines, line breaks stand
nowhere but at their ends.
-/

set_option autoImplicit false

namespace Tracemark.Text

/-- Only line feeds end the lines of a text. -/
def FeedsOnly (text : List Char) : Prop :=
  ∀ c ∈ text, isLineBreak c = true → c = '\n'

instance (text : List Char) : Decidable (FeedsOnly text) :=
  List.decidableBAll _ text

theorem FeedsOnly.take {text : List Char} (feeds : FeedsOnly text) (count : Nat) :
    FeedsOnly (text.take count) :=
  fun c member => feeds c (List.mem_of_mem_take member)

def endsWithinLine (text : List Char) : Bool :=
  text.getLast?.any (· != '\n')

theorem ne_feed_of_not_isLineBreak {c : Char} (goesOn : ¬ isLineBreak c = true) : c ≠ '\n' := by
  rintro rfl
  exact goesOn (by decide)

theorem endsWithinLine_cons {c : Char} {rest : List Char} (some : rest ≠ []) :
    endsWithinLine (c :: rest) = endsWithinLine rest := by
  cases rest with
  | nil => exact absurd rfl some
  | cons next rest => rfl

theorem lines_eq_nil_iff {text : List Char} : lines text = [] ↔ text = [] := by
  fun_cases lines text <;> simp

theorem length_lines {text : List Char} (feeds : FeedsOnly text) :
    (lines text).length = text.count '\n' + (endsWithinLine text).toNat := by
  fun_induction lines text with
  | case1 => rfl
  | case2 rest ih => exact absurd (feeds '\r' (by simp) (by decide)) (by decide)
  | case3 c rest _ breaks ih =>
      obtain rfl := feeds c List.mem_cons_self breaks
      have later := ih fun other member => feeds other (List.mem_cons_of_mem _ member)
      cases rest with
      | nil => rfl
      | cons next rest =>
          rw [endsWithinLine_cons (by simp), List.count_cons_self, List.length_cons, later]
          omega
  | case4 c rest _ goesOn empty ih =>
      obtain rfl := lines_eq_nil_iff.mp empty
      have within : (c != '\n') = true := bne_iff_ne.mpr (ne_feed_of_not_isLineBreak goesOn)
      simp [endsWithinLine, within, ne_feed_of_not_isLineBreak goesOn]
  | case5 c rest _ goesOn line more found ih =>
      have later := ih fun other member => feeds other (List.mem_cons_of_mem _ member)
      have some : rest ≠ [] := by
        rintro rfl
        cases found
      rw [endsWithinLine_cons some, List.count_cons_of_ne (ne_feed_of_not_isLineBreak goesOn), ← later,
        found]
      rfl

/-! ## Where line breaks stand -/

/-- No line ends within the text. -/
def Unbroken (text : List Char) : Prop :=
  ∀ c ∈ text, isLineBreak c = false

instance (text : List Char) : Decidable (Unbroken text) :=
  List.decidableBAll _ text

theorem Unbroken.of_subset {text part : List Char} (unbroken : Unbroken text)
    (inside : ∀ c ∈ part, c ∈ text) : Unbroken part :=
  fun c member => unbroken c (inside c member)

theorem unbroken_body {text : List Char} {line : Line} (member : line ∈ lines text) :
    Unbroken line.body := by
  fun_induction lines text generalizing line with
  | case1 => cases member
  | case2 rest ih =>
      rcases List.mem_cons.mp member with rfl | later
      · exact fun c inBody => absurd inBody List.not_mem_nil
      · exact ih later
  | case3 c rest _ breaks ih =>
      rcases List.mem_cons.mp member with rfl | later
      · exact fun c inBody => absurd inBody List.not_mem_nil
      · exact ih later
  | case4 c rest _ goesOn empty ih =>
      cases List.mem_singleton.mp member
      simpa [Unbroken] using goesOn
  | case5 c rest _ goesOn first more found ih =>
      rcases List.mem_cons.mp member with rfl | later
      · have unbroken := ih (found ▸ List.mem_cons_self)
        intro other inBody
        rcases List.mem_cons.mp inBody with rfl | inRest
        · exact Bool.eq_false_iff.mpr goesOn
        · exact unbroken other inRest
      · exact ih (found ▸ List.mem_cons_of_mem _ later)

/-- Lines with their endings make up the text. -/
theorem flatMap_full_lines (text : List Char) : (lines text).flatMap Line.full = text := by
  fun_induction lines text with
  | case1 => rfl
  | case2 rest ih => simp [Line.full, ih]
  | case3 c rest _ breaks ih => simp [Line.full, ih]
  | case4 c rest _ goesOn empty ih =>
      obtain rfl := lines_eq_nil_iff.mp empty
      rfl
  | case5 c rest _ goesOn line more found ih =>
      rw [found, List.flatMap_cons] at ih
      simpa [Line.full] using ih

/-- The characters that can end a line. -/
def IsEnding (ending : List Char) : Prop :=
  ending = ['\r', '\n'] ∨ ∃ c, ending = [c] ∧ isLineBreak c = true

/-- Only the last line may lack an ending. -/
theorem pairwise_isEnding_lines (text : List Char) :
    (lines text).Pairwise fun line _ => IsEnding line.ending := by
  fun_induction lines text with
  | case1 => exact .nil
  | case2 rest ih => exact .cons (fun _ _ => .inl rfl) ih
  | case3 c rest _ breaks ih => exact .cons (fun _ _ => .inr ⟨c, rfl, breaks⟩) ih
  | case4 c rest _ goesOn empty ih => exact List.pairwise_singleton _ _
  | case5 c rest _ goesOn line more found ih =>
      rw [found, List.pairwise_cons] at ih
      exact .cons ih.1 ih.2

theorem isEnding_of_mem_lines {text : List Char} {line : Line} (member : line ∈ lines text) :
    line.ending = [] ∨ IsEnding line.ending := by
  fun_induction lines text generalizing line with
  | case1 => cases member
  | case2 rest ih =>
      rcases List.mem_cons.mp member with rfl | later
      · exact .inr (.inl rfl)
      · exact ih later
  | case3 c rest _ breaks ih =>
      rcases List.mem_cons.mp member with rfl | later
      · exact .inr (.inr ⟨c, rfl, breaks⟩)
      · exact ih later
  | case4 c rest _ goesOn empty ih =>
      cases List.mem_singleton.mp member
      exact .inl rfl
  | case5 c rest _ goesOn first more found ih =>
      rw [found] at ih
      rcases List.mem_cons.mp member with rfl | later
      · exact @ih first List.mem_cons_self
      · exact ih (List.mem_cons_of_mem _ later)

theorem breaks_of_mem_ending {text : List Char} {line : Line} (member : line ∈ lines text) :
    ∀ c ∈ line.ending, isLineBreak c = true := by
  rcases isEnding_of_mem_lines member with none | both | ⟨c, single, breaks⟩
  · simp [none]
  · rw [both]
    exact List.forall_mem_cons.mpr ⟨rfl, List.forall_mem_singleton.mpr rfl⟩
  · rw [single]
    exact List.forall_mem_singleton.mpr breaks

/-- A text in which line breaks stand at the end only. -/
def BreaksAtEnd (text : List Char) : Prop :=
  ∃ body ending, text = body ++ ending ∧ Unbroken body ∧ ∀ c ∈ ending, isLineBreak c = true

theorem breaksAtEnd_full {text : List Char} {line : Line} (member : line ∈ lines text) :
    BreaksAtEnd line.full :=
  ⟨line.body, line.ending, rfl, unbroken_body member, breaks_of_mem_ending member⟩

theorem BreaksAtEnd.append {text ending : List Char} (breaks : BreaksAtEnd text)
    (more : ∀ c ∈ ending, isLineBreak c = true) : BreaksAtEnd (text ++ ending) := by
  obtain ⟨body, own, rfl, unbroken, ends⟩ := breaks
  refine ⟨body, own ++ ending, List.append_assoc _ _ _, unbroken, ?_⟩
  exact List.forall_mem_append.mpr ⟨ends, more⟩

theorem BreaksAtEnd.slice {text : List Char} (breaks : BreaksAtEnd text) (start stop : Nat) :
    BreaksAtEnd (slice start stop text) := by
  obtain ⟨body, ending, rfl, unbroken, ends⟩ := breaks
  rw [Text.slice, List.take_append, List.drop_append]
  refine ⟨_, _, rfl, unbroken.of_subset fun c member => ?_, fun c member => ends c ?_⟩
  · exact List.mem_of_mem_take (List.mem_of_mem_drop member)
  · exact List.mem_of_mem_take (List.mem_of_mem_drop member)

theorem isBlank_of_isLineBreak {c : Char} (breaks : isLineBreak c = true) : isBlank c = true := by
  simp only [isLineBreak, isBlank, Bool.or_eq_true, Bool.and_eq_true, decide_eq_true_eq,
    beq_iff_eq] at breaks ⊢
  omega

/-- Trimming removes the line breaks at the end. -/
theorem BreaksAtEnd.unbroken_trim {text : List Char} (breaks : BreaksAtEnd text) :
    Unbroken (trim text) := by
  obtain ⟨body, ending, rfl, unbroken, ends⟩ := breaks
  rw [trim, trimBy_append body fun c member => isBlank_of_isLineBreak (ends c member)]
  exact unbroken.of_subset fun c member => mem_of_mem_trimBy member

/-! ## Line breaks before a line -/

theorem length_ending_le {text : List Char} (absent : '\r' ∉ text) {line : Line}
    (member : line ∈ lines text) : line.ending.length ≤ 1 := by
  rcases isEnding_of_mem_lines member with none | both | ⟨c, single, _⟩
  · rw [none]
    exact Nat.zero_le 1
  · have isReturn : '\r' ∈ line.full := by simp [Line.full, both]
    rw [← flatMap_full_lines text] at absent
    exact absurd (List.mem_flatMap.mpr ⟨line, member, isReturn⟩) absent
  · rw [single]
    exact Nat.le_refl 1

/-- Without carriage returns, one character ends each line that another line follows. -/
theorem ending_of_mem_front {text : List Char} (absent : '\r' ∉ text) {front back : List Line}
    {line : Line} (divided : lines text = front ++ line :: back) :
    ∀ other ∈ front, ∃ c, other.ending = [c] ∧ isLineBreak c = true := by
  intro other member
  have ended := pairwise_isEnding_lines text
  rw [divided, List.pairwise_append] at ended
  rcases ended.2.2 other member line List.mem_cons_self with both | single
  · have short := length_ending_le absent (divided ▸ List.mem_append_left _ member)
    rw [both] at short
    exact absurd short (by decide)
  · exact single

/-- So many line breaks stand before a line as there are lines before it. -/
theorem countP_isLineBreak_front {text : List Char} (absent : '\r' ∉ text) {front back : List Line}
    {line : Line} (divided : lines text = front ++ line :: back) :
    (front.flatMap Line.full).countP isLineBreak = front.length := by
  have ends := ending_of_mem_front absent divided
  have unbroken : ∀ other ∈ front, Unbroken other.body := fun other member =>
    unbroken_body (divided ▸ List.mem_append_left _ member)
  clear divided
  induction front with
  | nil => rfl
  | cons first front ih =>
      obtain ⟨⟨c, isEnding, breaks⟩, laterEnds⟩ := List.forall_mem_cons.mp ends
      obtain ⟨body, laterBodies⟩ := List.forall_mem_cons.mp unbroken
      have none : first.body.countP isLineBreak = 0 :=
        List.countP_eq_zero.mpr fun other member => Bool.eq_false_iff.mp (body other member)
      rw [List.flatMap_cons, List.countP_append, ih laterEnds laterBodies, Line.full,
        List.countP_append, none, isEnding, List.countP_singleton, if_pos breaks, List.length_cons]
      omega

def strayBreaks (text : List Char) : Nat :=
  text.countP fun c => isLineBreak c && c != '\n'

theorem strayBreaks_eq_zero_iff {text : List Char} : strayBreaks text = 0 ↔ FeedsOnly text := by
  simp [strayBreaks, FeedsOnly, List.countP_eq_zero]

theorem countP_isLineBreak (text : List Char) :
    text.countP isLineBreak = text.count '\n' + strayBreaks text := by
  induction text with
  | nil => rfl
  | cons c rest ih =>
      rw [strayBreaks, List.countP_cons, List.countP_cons, List.count_cons, ih, strayBreaks]
      by_cases isFeed : c = '\n'
      · simp [isFeed, isLineBreak]
        omega
      · by_cases breaks : isLineBreak c = true
        · simp [isFeed, breaks]
          omega
        · simp [isFeed, breaks]

/-! ## Texts made of lines -/

theorem lines_append_feed {line : List Char} (unbroken : Unbroken line) (rest : List Char) :
    lines (line ++ '\n' :: rest) = ⟨line, ['\n']⟩ :: lines rest := by
  induction line with
  | nil => rw [List.nil_append, lines] <;> simp [isLineBreak]
  | cons c line ih =>
      have goesOn := unbroken c List.mem_cons_self
      have later := ih fun other member => unbroken other (List.mem_cons_of_mem _ member)
      rw [List.cons_append, lines]
      · simp [goesOn, later]
      · rintro _ rfl
        cases goesOn

theorem lines_of_unbroken {line : List Char} (unbroken : Unbroken line) (some : line ≠ []) :
    lines line = [⟨line, []⟩] := by
  induction line with
  | nil => exact absurd rfl some
  | cons c line ih =>
      have goesOn := unbroken c List.mem_cons_self
      rw [lines]
      · cases line with
        | nil => simp [goesOn, lines]
        | cons next line =>
            have later := ih (fun other member => unbroken other (List.mem_cons_of_mem _ member))
              (by simp)
            simp [goesOn, later]
      · rintro _ rfl
        cases goesOn

/-- Lines that end with a line feed are followed by those of what comes after them. -/
theorem lines_flatMap_feed {front : List (List Char)} (unbroken : ∀ line ∈ front, Unbroken line)
    (rest : List Char) :
    lines (front.flatMap (· ++ ['\n']) ++ rest) = front.map (⟨·, ['\n']⟩) ++ lines rest := by
  induction front with
  | nil => rfl
  | cons line front ih =>
      obtain ⟨first, others⟩ := List.forall_mem_cons.mp unbroken
      rw [List.flatMap_cons, List.append_assoc, List.append_assoc, List.singleton_append,
        lines_append_feed first, ih others, List.map_cons, List.cons_append]

theorem intercalate_feed_concat (front : List (List Char)) (last : List Char) :
    ['\n'].intercalate (front ++ [last]) = front.flatMap (· ++ ['\n']) ++ last := by
  induction front with
  | nil => simp
  | cons line front ih =>
      rw [List.cons_append, List.flatMap_cons, List.append_assoc, ← ih]
      cases front <;> simp [List.intercalate_cons_cons]

/-! ## Unified line endings -/

theorem joinReturns_of_absent {text : List Char} (absent : '\r' ∉ text) : joinReturns text = text := by
  fun_induction joinReturns text with
  | case1 => rfl
  | case2 rest ih => exact absurd List.mem_cons_self absent
  | case3 c rest _ ih => rw [ih fun member => absent (List.mem_cons_of_mem _ member)]

theorem unifyNewlines_of_absent {text : List Char} (absent : '\r' ∉ text) :
    unifyNewlines text = text := by
  have kept : ∀ c ∈ text, (if c == '\r' then '\n' else c) = c := by
    intro c member
    rw [if_neg]
    intro isReturn
    exact absent (beq_iff_eq.mp isReturn ▸ member)
  rw [unifyNewlines, joinReturns_of_absent absent, List.map_congr_left kept, List.map_id']

theorem return_not_mem_unifyNewlines (text : List Char) : '\r' ∉ unifyNewlines text := by
  intro member
  obtain ⟨c, _, isReturn⟩ := List.mem_map.mp member
  split at isReturn
  · cases isReturn
  · rename_i other
    exact other (beq_iff_eq.mpr isReturn)

end Tracemark.Text
