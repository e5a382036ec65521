import Tracemark.Proofs.Text.Joined

/-!
# One pass over the line terminators

Line terminators come in three forms, told apart by the characters next to them. Unifying them is
done by replacing twice, and is one pass over the text that takes each terminator for a line feed.
So the line feeds before a character of the result are the terminators that were before it.
-/

set_option autoImplicit false

namespace Tracemark.Text

/-- The forms of a line terminator: both characters, or one of them without the other. -/
inductive Terminator where
  | pair
  | loneReturn
  | loneFeed
deriving Repr, DecidableEq

namespace Terminator

def length : Terminator → Nat
  | .pair => 2
  | .loneReturn | .loneFeed => 1

/-- A terminator of this form begins at the index. -/
def StandsAt (text : List Char) (index : Nat) : Terminator → Prop
  | .pair => text[index]? = some '\r' ∧ text[index + 1]? = some '\n'
  | .loneReturn => text[index]? = some '\r' ∧ text[index + 1]? ≠ some '\n'
  | .loneFeed => text[index]? = some '\n' ∧ (text.take index).getLast? ≠ some '\r'

instance (text : List Char) (index : Nat) :
    (form : Terminator) → Decidable (form.StandsAt text index)
  | .pair => inferInstanceAs (Decidable (_ ∧ _))
  | .loneReturn => inferInstanceAs (Decidable (_ ∧ _))
  | .loneFeed => inferInstanceAs (Decidable (_ ∧ _))

theorem exists_iff {P : Terminator → Prop} :
    (∃ form, P form) ↔ P .pair ∨ P .loneReturn ∨ P .loneFeed := by
  constructor
  · intro some
    obtain ⟨form, holds⟩ := some
    cases form with
    | pair => exact .inl holds
    | loneReturn => exact .inr (.inl holds)
    | loneFeed => exact .inr (.inr holds)
  · intro one
    rcases one with holds | holds | holds <;> exact ⟨_, holds⟩

instance {P : Terminator → Prop} [DecidablePred P] : Decidable (∃ form, P form) :=
  decidable_of_iff' _ exists_iff

end Terminator

def terminatorsBefore (text : List Char) (index : Nat) : Nat :=
  (List.range index).countP fun start =>
    ∃ form : Terminator, form.StandsAt text start ∧ start + form.length ≤ index

/-- A pass over the text from the index on. It writes a line feed for each terminator, and keeps the
other characters. -/
inductive Translation (text : List Char) : Nat → List Char → Prop where
  | done : Translation text text.length []
  | terminator {index : Nat} {result : List Char} (form : Terminator) :
      form.StandsAt text index → Translation text (index + form.length) result →
      Translation text index ('\n' :: result)
  | kept {index : Nat} {result : List Char} {c : Char} :
      text[index]? = some c → c ≠ '\r' → c ≠ '\n' → Translation text (index + 1) result →
      Translation text index (c :: result)

/-! ## Unifying part by part -/

theorem unifyNewlines_pair (rest : List Char) :
    unifyNewlines ('\r' :: '\n' :: rest) = '\n' :: unifyNewlines rest := by
  simp [unifyNewlines, joinReturns]

theorem unifyNewlines_cons {c : Char} {rest : List Char} (apart : ¬ Joins [c] rest) :
    unifyNewlines (c :: rest) = (if c == '\r' then '\n' else c) :: unifyNewlines rest := by
  rw [unifyNewlines, joinReturns, List.map_cons, unifyNewlines]
  intro later isReturn isFeed
  apply apart
  rw [isReturn, isFeed]
  exact ⟨rfl, rfl⟩

theorem unifyNewlines_return {rest : List Char} (alone : rest.head? ≠ some '\n') :
    unifyNewlines ('\r' :: rest) = '\n' :: unifyNewlines rest :=
  unifyNewlines_cons fun joins => alone joins.2

theorem unifyNewlines_other {c : Char} (other : c ≠ '\r') (rest : List Char) :
    unifyNewlines (c :: rest) = c :: unifyNewlines rest := by
  rw [unifyNewlines_cons, if_neg (by simpa using other)]
  intro joins
  exact other (by simpa using joins.1)

theorem not_joins_of_single {c : Char} {rest : List Char}
    (single : ∀ later, c = '\r' → rest = '\n' :: later → False) : ¬ Joins [c] rest := by
  intro joins
  obtain ⟨later, isFeed⟩ := List.head?_eq_some_iff.mp joins.2
  exact single later (by simpa using joins.1) isFeed

theorem Joins.cons {front back : List Char} (joins : Joins front back) (c : Char) :
    Joins (c :: front) back := by
  refine ⟨?_, joins.2⟩
  rw [List.getLast?_cons, joins.1, Option.getD_some]

/-- Texts are unified one by one, unless a terminator is divided between them. -/
theorem unifyNewlines_append {front back : List Char} (apart : ¬ Joins front back) :
    unifyNewlines (front ++ back) = unifyNewlines front ++ unifyNewlines back := by
  induction front using joinReturns.induct with
  | case1 => rfl
  | case2 rest ih =>
      have apartRest : ¬ Joins rest back := fun joins => apart ((joins.cons '\n').cons '\r')
      rw [List.cons_append, List.cons_append, unifyNewlines_pair, unifyNewlines_pair, ih apartRest,
        List.cons_append]
  | case3 c rest single ih =>
      have apartRest : ¬ Joins rest back := fun joins => apart (joins.cons c)
      have apartHere := not_joins_of_single single
      have apartLonger : ¬ Joins [c] (rest ++ back) := by
        cases rest with
        | nil => exact apart
        | cons next rest => exact apartHere
      rw [List.cons_append, unifyNewlines_cons apartLonger, unifyNewlines_cons apartHere,
        ih apartRest, List.cons_append]

theorem unifyNewlines_around {c : Char} (noReturn : c ≠ '\r') (noFeed : c ≠ '\n')
    (before after : List Char) :
    unifyNewlines (before ++ c :: after) = unifyNewlines before ++ c :: unifyNewlines after := by
  have apart : ¬ Joins before (c :: after) := by
    intro joins
    exact noFeed (by simpa using joins.2)
  rw [unifyNewlines_append apart, unifyNewlines_other noReturn]

/-! ## The pass -/

theorem drop_eq_cons_of_getElem? {text : List Char} {index : Nat} {c : Char}
    (found : text[index]? = some c) : text.drop index = c :: text.drop (index + 1) := by
  rw [List.drop_eq_getElem?_toList_append, found]
  rfl

theorem Terminator.StandsAt.unifyNewlines_drop {text : List Char} {index : Nat} {form : Terminator}
    (stands : form.StandsAt text index) :
    unifyNewlines (text.drop index) = '\n' :: unifyNewlines (text.drop (index + form.length)) := by
  cases form with
  | pair =>
      rw [drop_eq_cons_of_getElem? stands.1, drop_eq_cons_of_getElem? stands.2]
      exact unifyNewlines_pair _
  | loneReturn =>
      rw [drop_eq_cons_of_getElem? stands.1]
      apply unifyNewlines_return
      rw [List.head?_drop]
      exact stands.2
  | loneFeed =>
      rw [drop_eq_cons_of_getElem? stands.1]
      exact unifyNewlines_other (by decide) _

theorem Translation.eq_unifyNewlines {text result : List Char} {index : Nat}
    (translation : Translation text index result) : result = unifyNewlines (text.drop index) := by
  induction translation with
  | done =>
      rw [List.drop_length]
      rfl
  | terminator form stands _ ih => rw [stands.unifyNewlines_drop, ih]
  | kept found noReturn _ _ ih =>
      rw [drop_eq_cons_of_getElem? found, unifyNewlines_other noReturn, ih]

/-- The pass goes on to the end from wherever it does not divide a terminator. -/
theorem translation_of_apart {front rest : List Char} (apart : ¬ Joins front rest) :
    Translation (front ++ rest) front.length (unifyNewlines rest) := by
  -- `front` is what the pass has left behind. A line feed looks back at its last character.
  induction rest using joinReturns.induct generalizing front with
  | case1 =>
      rw [List.append_nil]
      exact .done
  | case2 rest ih =>
      have later := @ih (front ++ ['\r', '\n']) (by simp [Joins])
      rw [List.append_assoc, List.length_append] at later
      rw [unifyNewlines_pair]
      exact .terminator .pair (by simp [Terminator.StandsAt]) later
  | case3 c rest single ih =>
      have apartHere := not_joins_of_single single
      have later := @ih (front ++ [c]) (by simpa [Joins] using apartHere)
      rw [List.append_assoc, List.length_append] at later
      by_cases isReturn : c = '\r'
      · subst isReturn
        have alone : rest.head? ≠ some '\n' := fun isFeed => apartHere ⟨rfl, isFeed⟩
        rw [unifyNewlines_return alone]
        refine .terminator .loneReturn ⟨by simp, ?_⟩ later
        rwa [List.getElem?_append_right (by omega), Nat.add_sub_cancel_left,
          List.getElem?_cons_succ, ← List.head?_eq_getElem?]
      · rw [unifyNewlines_other isReturn]
        by_cases isFeed : c = '\n'
        · subst isFeed
          refine .terminator .loneFeed ⟨by simp, ?_⟩ later
          rw [List.take_left]
          exact fun isReturn => apart ⟨isReturn, rfl⟩
        · exact .kept (by simp) isReturn isFeed later

theorem translation_iff {text result : List Char} :
    Translation text 0 result ↔ result = unifyNewlines text := by
  constructor
  · exact Translation.eq_unifyNewlines
  · intro unified
    rw [unified]
    exact @translation_of_apart [] text (by simp [Joins])

/-! ## Terminators before a character -/

/-- A terminator begins with the character, if the text before it is `front`. -/
def Opens (front : List Char) (c : Char) : Prop :=
  c = '\r' ∨ c = '\n' ∧ front.getLast? ≠ some '\r'

instance (front : List Char) (c : Char) : Decidable (Opens front c) :=
  inferInstanceAs (Decidable (_ ∨ _))

theorem exists_standsAt_iff {text : List Char} {index : Nat} {c : Char}
    (found : text[index]? = some c) :
    (∃ form : Terminator, form.StandsAt text index) ↔ Opens (text.take index) c := by
  rw [Terminator.exists_iff]
  simp only [Terminator.StandsAt, Opens, found, Option.some.injEq]
  tauto

/-- One more character adds a line feed exactly if a terminator begins with it. -/
theorem count_unifyNewlines_concat (front : List Char) (c : Char) :
    (unifyNewlines (front ++ [c])).count '\n' =
      (unifyNewlines front).count '\n' + if Opens front c then 1 else 0 := by
  by_cases joins : Joins front [c]
  · obtain ⟨start, rfl⟩ := List.getLast?_eq_some_iff.mp joins.1
    obtain rfl : c = '\n' := by simpa using joins.2
    -- The return of the pair has been counted; its line feed adds nothing.
    have apart (rest : List Char) : ¬ Joins start ('\r' :: rest) := by simp [Joins]
    rw [List.append_assoc, List.singleton_append, unifyNewlines_append (apart _),
      unifyNewlines_append (apart _)]
    simp [Opens, unifyNewlines, joinReturns]
  · rw [unifyNewlines_append joins, List.count_append]
    by_cases isReturn : c = '\r'
    · simp [Opens, isReturn, unifyNewlines, joinReturns]
    · rw [unifyNewlines_other isReturn]
      by_cases isFeed : c = '\n'
      · have lone : front.getLast? ≠ some '\r' := fun last => joins ⟨last, by simp [isFeed]⟩
        simp [Opens, isFeed, lone, unifyNewlines, joinReturns]
      · simp [Opens, isReturn, isFeed, unifyNewlines, joinReturns]

/-- The line feeds in the first part of a text, unified, are the terminators that begin there. -/
theorem count_unifyNewlines_take {text : List Char} {index : Nat} (inside : index ≤ text.length) :
    (unifyNewlines (text.take index)).count '\n' =
      (List.range index).countP fun start => ∃ form : Terminator, form.StandsAt text start := by
  induction index with
  | zero => rfl
  | succ index ih =>
      have found : text[index]? = some text[index] := List.getElem?_eq_getElem inside
      rw [List.take_succ_eq_append_getElem inside, count_unifyNewlines_concat, ih (by omega),
        List.range_succ, List.countP_append, List.countP_singleton]
      simp only [exists_standsAt_iff found, decide_eq_true_eq]

theorem Terminator.StandsAt.ends_le {text : List Char} {start index : Nat} {form : Terminator}
    (stands : form.StandsAt text start) (inside : start < index)
    (noFeed : text[index]? ≠ some '\n') : start + form.length ≤ index := by
  cases form with
  | pair =>
      have elsewhere : start + 1 ≠ index := by
        intro same
        apply noFeed
        rw [← same]
        exact stands.2
      exact Nat.lt_of_le_of_ne inside elsewhere
  | loneReturn => exact inside
  | loneFeed => exact inside

/-- Before a character that is no line feed, every terminator that begins also ends. -/
theorem terminatorsBefore_eq {text : List Char} {index : Nat} (noFeed : text[index]? ≠ some '\n') :
    terminatorsBefore text index =
      (List.range index).countP fun start => ∃ form : Terminator, form.StandsAt text start := by
  apply List.countP_congr
  intro start member
  simp only [decide_eq_true_eq]
  apply exists_congr
  intro form
  exact and_iff_left_of_imp fun stands => stands.ends_le (List.mem_range.mp member) noFeed

/-- Replacing both characters by a line feed and then the returns that are left gives the result of
one pass over the text, and only that. No return is left, so it is also the result for itself. A
character other than the two is kept, and has as many line feeds before it as it had terminators. -/
theorem unifyNewlines_in_one_pass (text : List Char) :
    (∀ result, Translation text 0 result ↔ result = unifyNewlines text) ∧
      '\r' ∉ unifyNewlines text ∧
      unifyNewlines (unifyNewlines text) = unifyNewlines text ∧
      ∀ before c after, text = before ++ c :: after → c ≠ '\r' → c ≠ '\n' →
        unifyNewlines text = unifyNewlines before ++ c :: unifyNewlines after ∧
          (unifyNewlines before).count '\n' = terminatorsBefore text before.length := by
  have noReturns := return_not_mem_unifyNewlines text
  refine ⟨fun _ => translation_iff, noReturns, unifyNewlines_of_absent noReturns, ?_⟩
  intro before c after divided noReturn noFeed
  subst divided
  refine ⟨unifyNewlines_around noReturn noFeed before after, ?_⟩
  have counted := @count_unifyNewlines_take (before ++ c :: after) before.length (by simp)
  rw [List.take_left] at counted
  rw [counted, terminatorsBefore_eq (by simp [noFeed])]

/-- All forms in a row: a return before a pair, a line feed after it, and a return at the end. -/
theorem unifyNewlines_in_one_pass_of_all_forms :
    let before := "a\r\r\n\n\r".toList
    let text := before ++ 'b' :: "\n".toList
    Translation text 0 "a\n\n\n\nb\n".toList ∧
      (∀ result, Translation text 0 result → '\r' ∉ result ∧ unifyNewlines result = result) ∧
      (unifyNewlines before).count '\n' = 4 ∧ terminatorsBefore text 6 = 4 := by
  intro before text
  obtain ⟨pass, noReturns, again, counted⟩ := unifyNewlines_in_one_pass text
  have feeds : (unifyNewlines before).count '\n' = 4 := by decide
  obtain ⟨_, same⟩ := counted before 'b' _ rfl (by decide) (by decide)
  refine ⟨(pass _).mpr (by decide), ?_, feeds, same.symm.trans feeds⟩
  intro result translation
  obtain rfl := (pass result).mp translation
  exact ⟨noReturns, again⟩

end Tracemark.Text
