import Mathlib.Data.List.Forall2
import Tracemark.Text.Pattern

/-!
# What patterns match

A pattern takes the front of a text in several ways. A match fails exactly where all of them fail,
and one that succeeds has taken one of them. Of the ways of a lazy repetition it has taken the first
that succeeds, which leaves most of the text.
-/

set_option autoImplicit false

namespace Tracemark.Text

theorem CharClass.sameLetter_self (c : Char) : sameLetter c c = true := by
  simp [sameLetter]

theorem CharClass.toLower_eq_or (c : Char) :
    c.toLower = c ∨ (65 ≤ c.toNat ∧ c.toNat ≤ 90 ∧ c.toLower.toNat = c.toNat + 32) := by
  unfold Char.toLower
  split
  · rename_i upper
    have first : 65 ≤ c.val.toNat := UInt32.le_iff_toNat_le.mp upper.1
    have last : c.val.toNat ≤ 90 := UInt32.le_iff_toNat_le.mp upper.2
    refine .inr ⟨first, last, ?_⟩
    change (c.val + 32).toNat = c.val.toNat + 32
    rw [UInt32.toNat_add]
    change (c.val.toNat + 32) % 4294967296 = c.val.toNat + 32
    omega
  · exact .inl rfl

/-- A sign that comes before the letters has no other case. -/
theorem CharClass.eq_of_sameLetter {sign c : Char} (low : sign.toNat < 65)
    (same : sameLetter sign c = true) : c = sign := by
  have isLower : sign.toLower = sign := by
    rcases toLower_eq_or sign with kept | ⟨upper, _⟩
    · exact kept
    · omega
  have noLetter : ∀ letter : Char, 65 ≤ letter.toNat → sign ≠ letter := by
    intro letter high isLetter
    rw [isLetter] at low
    omega
  simp only [sameLetter, isLower, beq_false_of_ne (noLetter 's' (by decide)),
    beq_false_of_ne (noLetter 'i' (by decide)), Bool.false_and, Bool.or_false, beq_iff_eq] at same
  rcases toLower_eq_or c with kept | ⟨upper, _, raised⟩
  · rw [same, kept]
  · rw [← same] at raised
    omega

/-- The text is the word, in upper or lower case. -/
def Reads (word text : List Char) : Prop :=
  List.Forall₂ (fun expected c => CharClass.sameLetter expected c = true) word text

/-- A text is free of what no letter of the word is read as. -/
theorem Reads.not_mem {word text : List Char} {c : Char} (reads : Reads word text)
    (absent : (word.all fun letter => !CharClass.sameLetter letter c) = true) : c ∉ text := by
  induction reads with
  | nil => exact List.not_mem_nil
  | cons same _ ih =>
      rw [List.all_cons, Bool.and_eq_true, Bool.not_eq_true'] at absent
      intro member
      rcases List.mem_cons.mp member with rfl | later
      · cases absent.1.symm.trans same
      · exact ih absent.2 later

theorem reads_sign_cons_iff {sign : Char} (low : sign.toNat < 65) {word text : List Char} :
    Reads (sign :: word) text ↔ ∃ rest, text = sign :: rest ∧ Reads word rest := by
  unfold Reads
  rw [List.forall₂_cons_left_iff]
  constructor
  · intro ⟨c, rest, same, others, isText⟩
    rw [CharClass.eq_of_sameLetter low same] at isText
    exact ⟨rest, isText, others⟩
  · intro ⟨rest, isText, others⟩
    exact ⟨sign, rest, CharClass.sameLetter_self sign, others, isText⟩

theorem Reads.exists_append {word more text : List Char} (reads : Reads (word ++ more) text) :
    ∃ front rest, text = front ++ rest ∧ Reads word front ∧ Reads more rest := by
  induction word generalizing text with
  | nil => exact ⟨[], text, rfl, .nil, reads⟩
  | cons letter word ih =>
      obtain ⟨c, others, same, readsOthers, rfl⟩ := List.forall₂_cons_left_iff.mp reads
      obtain ⟨front, rest, rfl, readsWord, readsMore⟩ := ih readsOthers
      exact ⟨c :: front, rest, rfl, .cons same readsWord, readsMore⟩

namespace Pattern

variable {α : Type}

/-! ## Repetitions -/

/-- What is left of a text after at least so many characters of a class. -/
def Leaves (class_ : CharClass) (least : Nat) (input rest : List Char) : Prop :=
  ∃ front, input = front ++ rest ∧ (∀ c ∈ front, class_.holds c = true) ∧ least ≤ front.length

section Repetition

variable {class_ : CharClass} {next : List Char → Option α} {least : Nat} {input rest : List Char}

theorem leaves_nil_iff : Leaves class_ least [] rest ↔ least = 0 ∧ rest = [] := by
  constructor
  · intro ⟨front, divided, _, enough⟩
    obtain ⟨rfl, rfl⟩ := List.append_eq_nil_iff.mp divided.symm
    exact ⟨Nat.le_zero.mp enough, rfl⟩
  · intro ⟨isZero, isRest⟩
    exact ⟨[], isRest.symm, by simp, Nat.le_of_eq isZero⟩

theorem leaves_cons_iff {c : Char} :
    Leaves class_ least (c :: input) rest ↔
      (least = 0 ∧ rest = c :: input) ∨
        (class_.holds c = true ∧ Leaves class_ (least - 1) input rest) := by
  constructor
  · intro ⟨front, divided, all, enough⟩
    cases front with
    | nil => exact .inl ⟨Nat.le_zero.mp enough, divided.symm⟩
    | cons first front =>
        obtain ⟨rfl, rfl⟩ := List.cons.inj divided
        obtain ⟨holds, others⟩ := List.forall_mem_cons.mp all
        rw [List.length_cons] at enough
        exact .inr ⟨holds, front, rfl, others, by omega⟩
  · intro ways
    rcases ways with ⟨isZero, rfl⟩ | ⟨holds, front, rfl, all, enough⟩
    · exact ⟨[], rfl, by simp, Nat.le_of_eq isZero⟩
    · refine ⟨c :: front, rfl, List.forall_mem_cons.mpr ⟨holds, all⟩, ?_⟩
      rw [List.length_cons]
      omega

theorem Leaves.length_le (leaves : Leaves class_ least input rest) : rest.length ≤ input.length := by
  obtain ⟨front, rfl, _⟩ := leaves
  rw [List.length_append]
  omega

theorem takeMost_cons (c : Char) :
    takeMost class_ next least (c :: input) =
      (if class_.holds c = true then takeMost class_ next (least - 1) input else none).or
        (if least = 0 then next (c :: input) else none) := by
  simp only [takeMost, beq_iff_eq]
  split <;> rename_i longer <;> rw [longer] <;> rfl

theorem takeLeast_cons (c : Char) :
    takeLeast class_ next least (c :: input) =
      (if least = 0 then next (c :: input) else none).or
        (if class_.holds c = true then takeLeast class_ next (least - 1) input else none) := by
  simp only [takeLeast, beq_iff_eq]
  split <;> rename_i here <;> rw [here] <;> rfl

theorem takeMost_eq_none_iff :
    takeMost class_ next least input = none ↔
      ∀ rest, Leaves class_ least input rest → next rest = none := by
  induction input generalizing least with
  | nil => simp [takeMost, leaves_nil_iff]
  | cons c input ih =>
      simp only [takeMost_cons, Option.or_eq_none_iff, ite_eq_right_iff, ih, leaves_cons_iff]
      constructor
      · intro ⟨longer, here⟩ rest ways
        rcases ways with ⟨isZero, rfl⟩ | ⟨holds, leaves⟩
        · exact here isZero
        · exact longer holds rest leaves
      · intro fails
        exact ⟨fun holds rest leaves => fails rest (.inr ⟨holds, leaves⟩),
          fun isZero => fails _ (.inl ⟨isZero, rfl⟩)⟩

theorem takeLeast_eq_none_iff :
    takeLeast class_ next least input = none ↔
      ∀ rest, Leaves class_ least input rest → next rest = none := by
  rw [← takeMost_eq_none_iff]
  induction input generalizing least with
  | nil => rfl
  | cons c input ih =>
      simp only [takeLeast_cons, takeMost_cons, Option.or_eq_none_iff, ite_eq_right_iff, ih, and_comm]

theorem exists_leaves_of_takeMost {result : α}
    (succeeded : takeMost class_ next least input = some result) :
    ∃ rest, Leaves class_ least input rest ∧ next rest = some result := by
  induction input generalizing least with
  | nil => simpa [takeMost, leaves_nil_iff] using succeeded
  | cons c input ih =>
      rw [takeMost_cons, Option.or_eq_some_iff] at succeeded
      rcases succeeded with longer | ⟨_, here⟩
      · obtain ⟨holds, taken⟩ := Option.ite_none_right_eq_some.mp longer
        obtain ⟨rest, leaves, isResult⟩ := ih taken
        exact ⟨rest, leaves_cons_iff.mpr (.inr ⟨holds, leaves⟩), isResult⟩
      · obtain ⟨isZero, isResult⟩ := Option.ite_none_right_eq_some.mp here
        exact ⟨c :: input, leaves_cons_iff.mpr (.inl ⟨isZero, rfl⟩), isResult⟩

/-- A lazy repetition leaves as much of the text as it can so that the rest of the match succeeds. -/
theorem takeLeast_eq_some_iff {result : α} :
    takeLeast class_ next least input = some result ↔
      ∃ rest, (Leaves class_ least input rest ∧ next rest = some result) ∧
        ∀ other, Leaves class_ least input other → rest.length < other.length → next other = none := by
  induction input generalizing least with
  | nil => simp +contextual [takeLeast, leaves_nil_iff]
  | cons c input ih =>
      rw [takeLeast_cons, Option.or_eq_some_iff]
      constructor
      · intro succeeded
        rcases succeeded with here | ⟨notHere, longer⟩
        · obtain ⟨isZero, isResult⟩ := Option.ite_none_right_eq_some.mp here
          refine ⟨c :: input, ⟨leaves_cons_iff.mpr (.inl ⟨isZero, rfl⟩), isResult⟩, ?_⟩
          intro other leaves shorter
          exact absurd leaves.length_le (Nat.not_le.mpr shorter)
        · obtain ⟨holds, taken⟩ := Option.ite_none_right_eq_some.mp longer
          obtain ⟨rest, ⟨leaves, isResult⟩, first⟩ := ih.mp taken
          refine ⟨rest, ⟨leaves_cons_iff.mpr (.inr ⟨holds, leaves⟩), isResult⟩, ?_⟩
          intro other otherLeaves shorter
          rcases leaves_cons_iff.mp otherLeaves with ⟨isZero, rfl⟩ | ⟨_, inInput⟩
          · exact ite_eq_right_iff.mp notHere isZero
          · exact first other inInput shorter
      · intro ⟨rest, ⟨leaves, isResult⟩, first⟩
        rcases leaves_cons_iff.mp leaves with ⟨isZero, rfl⟩ | ⟨holds, inInput⟩
        · exact .inl (Option.ite_none_right_eq_some.mpr ⟨isZero, isResult⟩)
        · refine .inr ⟨ite_eq_right_iff.mpr ?_, Option.ite_none_right_eq_some.mpr ⟨holds, ?_⟩⟩
          · intro isZero
            apply first _ (leaves_cons_iff.mpr (.inl ⟨isZero, rfl⟩))
            exact Nat.lt_succ_of_le inInput.length_le
          · refine ih.mpr ⟨rest, ⟨inInput, isResult⟩, ?_⟩
            intro other otherLeaves
            exact first other (leaves_cons_iff.mpr (.inr ⟨holds, otherLeaves⟩))

end Repetition

theorem consumed_append (front rest : List Char) : consumed (front ++ rest) rest = front := by
  simp [consumed]

/-! ## Ways of a pattern -/

/-- One way in which a pattern takes the front of a text: what it leaves, and the captures then. -/
def Matches : Pattern → List Char → Captures → List Char → Captures → Prop
  | .empty, input, captures, rest, found => rest = input ∧ found = captures
  | .one class_, input, captures, rest, found =>
      found = captures ∧ ∃ c, input = c :: rest ∧ class_.holds c = true
  | .sequence first second, input, captures, rest, found =>
      ∃ middle between, first.Matches input captures middle between ∧
        second.Matches middle between rest found
  | .either first second, input, captures, rest, found =>
      first.Matches input captures rest found ∨ second.Matches input captures rest found
  | .optional pattern, input, captures, rest, found =>
      pattern.Matches input captures rest found ∨ rest = input ∧ found = captures
  | .many class_ least _, input, captures, rest, found =>
      found = captures ∧ Leaves class_ least input rest
  | .capture name pattern, input, captures, rest, found =>
      ∃ inside, pattern.Matches input captures rest inside ∧
        found = (name, consumed input rest) :: inside
  | .ifCaptured name pattern, input, captures, rest, found =>
      if (captures.get? name).isSome then pattern.Matches input captures rest found
      else rest = input ∧ found = captures
  | .ending, input, captures, rest, found =>
      (input = [] ∨ input = ['\n']) ∧ rest = input ∧ found = captures

variable {next : List Char → Captures → Option α} {input : List Char} {captures : Captures}

theorem matchThen_either (first second : Pattern) :
    (either first second).matchThen input captures next =
      (first.matchThen input captures next).or (second.matchThen input captures next) := by
  rw [matchThen]
  cases first.matchThen input captures next <;> rfl

theorem matchThen_optional (pattern : Pattern) :
    pattern.optional.matchThen input captures next =
      (pattern.matchThen input captures next).or (next input captures) := by
  rw [matchThen]
  cases pattern.matchThen input captures next <;> rfl

/-- A match fails exactly where what follows fails for every way. -/
theorem matchThen_eq_none_iff {pattern : Pattern} :
    pattern.matchThen input captures next = none ↔
      ∀ rest found, pattern.Matches input captures rest found → next rest found = none := by
  induction pattern generalizing input captures next with
  | empty => simp [matchThen, Matches]
  | one class_ => cases input <;> simp [matchThen, Matches]
  | sequence first second ihFirst ihSecond =>
      simp only [matchThen, Matches, ihFirst, ihSecond]
      constructor
      · intro fails rest found ⟨middle, between, isFirst, isSecond⟩
        exact fails middle between isFirst rest found isSecond
      · intro fails middle between isFirst rest found isSecond
        exact fails rest found ⟨middle, between, isFirst, isSecond⟩
  | either first second ihFirst ihSecond =>
      simp only [matchThen_either, Option.or_eq_none_iff, Matches, ihFirst, ihSecond, or_imp,
        forall_and]
  | optional pattern ih =>
      simp only [matchThen_optional, Option.or_eq_none_iff, Matches, ih, or_imp, forall_and]
      apply and_congr_right
      intro _
      constructor
      · intro skipped rest found ⟨isInput, areCaptures⟩
        rw [isInput, areCaptures]
        exact skipped
      · intro fails
        exact fails input captures ⟨rfl, rfl⟩
  | many class_ least greedy =>
      cases greedy <;>
        simp [matchThen, Matches, takeMost_eq_none_iff, takeLeast_eq_none_iff]
  | capture name pattern ih =>
      simp only [matchThen, Matches, ih]
      constructor
      · intro fails rest found ⟨inside, isInside, isFound⟩
        rw [isFound]
        exact fails rest inside isInside
      · intro fails rest inside isInside
        exact fails rest _ ⟨inside, isInside, rfl⟩
  | ifCaptured name pattern ih =>
      simp only [matchThen, Matches]
      split
      · exact ih
      · simp
  | ending =>
      simp only [matchThen, Matches, Bool.or_eq_true, List.isEmpty_iff, beq_iff_eq,
        ite_eq_right_iff]
      constructor
      · intro fails rest found ⟨atEnd, isInput, areCaptures⟩
        rw [isInput, areCaptures]
        exact fails atEnd
      · intro fails atEnd
        exact fails input captures ⟨atEnd, rfl, rfl⟩

theorem exists_matches_of_matchThen {pattern : Pattern} {result : α}
    (succeeded : pattern.matchThen input captures next = some result) :
    ∃ rest found, pattern.Matches input captures rest found ∧ next rest found = some result := by
  induction pattern generalizing input captures next with
  | empty => exact ⟨input, captures, ⟨rfl, rfl⟩, succeeded⟩
  | one class_ =>
      cases input with
      | nil => cases succeeded
      | cons c input =>
          obtain ⟨holds, isResult⟩ := Option.ite_none_right_eq_some.mp succeeded
          exact ⟨input, captures, ⟨rfl, c, rfl, holds⟩, isResult⟩
  | sequence first second ihFirst ihSecond =>
      obtain ⟨middle, between, isFirst, later⟩ := ihFirst succeeded
      obtain ⟨rest, found, isSecond, isResult⟩ := ihSecond later
      exact ⟨rest, found, ⟨middle, between, isFirst, isSecond⟩, isResult⟩
  | either first second ihFirst ihSecond =>
      rw [matchThen_either, Option.or_eq_some_iff] at succeeded
      rcases succeeded with byFirst | ⟨_, bySecond⟩
      · obtain ⟨rest, found, isFirst, isResult⟩ := ihFirst byFirst
        exact ⟨rest, found, .inl isFirst, isResult⟩
      · obtain ⟨rest, found, isSecond, isResult⟩ := ihSecond bySecond
        exact ⟨rest, found, .inr isSecond, isResult⟩
  | optional pattern ih =>
      rw [matchThen_optional, Option.or_eq_some_iff] at succeeded
      rcases succeeded with taken | ⟨_, skipped⟩
      · obtain ⟨rest, found, isTaken, isResult⟩ := ih taken
        exact ⟨rest, found, .inl isTaken, isResult⟩
      · exact ⟨input, captures, .inr ⟨rfl, rfl⟩, skipped⟩
  | many class_ least greedy =>
      cases greedy with
      | true =>
          obtain ⟨rest, leaves, isResult⟩ := exists_leaves_of_takeMost succeeded
          exact ⟨rest, captures, ⟨rfl, leaves⟩, isResult⟩
      | false =>
          obtain ⟨rest, ⟨leaves, isResult⟩, _⟩ := takeLeast_eq_some_iff.mp succeeded
          exact ⟨rest, captures, ⟨rfl, leaves⟩, isResult⟩
  | capture name pattern ih =>
      obtain ⟨rest, inside, isInside, isResult⟩ := ih succeeded
      exact ⟨rest, _, ⟨inside, isInside, rfl⟩, isResult⟩
  | ifCaptured name pattern ih =>
      simp only [matchThen] at succeeded
      simp only [Matches]
      split at succeeded
      · rename_i isCaptured
        simp only [if_pos isCaptured]
        exact ih succeeded
      · rename_i notCaptured
        simp only [if_neg notCaptured]
        exact ⟨input, captures, ⟨rfl, rfl⟩, succeeded⟩
  | ending =>
      obtain ⟨atEnd, isResult⟩ := Option.ite_none_right_eq_some.mp succeeded
      simp only [Bool.or_eq_true, List.isEmpty_iff, beq_iff_eq] at atEnd
      exact ⟨input, captures, ⟨atEnd, rfl, rfl⟩, isResult⟩

/-- A lazy capture takes a text if what follows succeeds after it, and after no shorter one. -/
theorem matchThen_lazyCapture {name : String} {class_ : CharClass} {least : Nat}
    {front ending : List Char} {result : α} (all : ∀ c ∈ front, class_.holds c = true)
    (enough : least ≤ front.length)
    (succeeds : next ending ((name, front) :: captures) = some result)
    (fails : ∀ before back, front = before ++ back → back ≠ [] →
      next (back ++ ending) ((name, before) :: captures) = none) :
    (capture name (many class_ least false)).matchThen (front ++ ending) captures next =
      some result := by
  refine takeLeast_eq_some_iff.mpr ⟨ending, ⟨⟨front, rfl, all, enough⟩, ?_⟩, ?_⟩
  · simpa only [consumed_append] using succeeds
  · intro other ⟨before, divided, _⟩ longer
    obtain ⟨back, isFront, isOther⟩ : ∃ back, front = before ++ back ∧ other = back ++ ending := by
      rcases List.append_eq_append_iff.mp divided with ⟨_, _, isEnding⟩ | shorter
      · rw [isEnding, List.length_append] at longer
        omega
      · exact shorter
    have some : back ≠ [] := by
      intro empty
      rw [isOther, empty] at longer
      exact absurd longer (Nat.lt_irrefl _)
    simp only [divided, consumed_append]
    rw [isOther]
    exact fails before back isFront some

/-! ## Patterns one after the other -/

theorem matchThen_all_cons (first : Pattern) (others : List Pattern) :
    (all (first :: others)).matchThen input captures next =
      first.matchThen input captures fun middle between =>
        (all others).matchThen middle between next := by
  cases others <;> rfl

variable {rest : List Char} {found : Captures}

theorem matches_all_cons_iff {first : Pattern} {others : List Pattern} :
    (all (first :: others)).Matches input captures rest found ↔
      ∃ middle between, first.Matches input captures middle between ∧
        (all others).Matches middle between rest found := by
  cases others with
  | nil => simp [all, Matches]
  | cons second others => rfl

/-- What is captured before a sign ends at the sign. -/
theorem exists_front_of_capture {name : String} {class_ : CharClass} {least : Nat} {greedy : Bool}
    {sign : Char} (low : sign.toNat < 65) {others : List Pattern} {result : α}
    (succeeded : (all (capture name (many class_ least greedy) :: one (.letter sign) ::
      others)).matchThen input captures next = some result) :
    ∃ front middle, input = front ++ sign :: middle ∧ (∀ c ∈ front, class_.holds c = true) ∧
      least ≤ front.length ∧
      (all others).matchThen middle ((name, front) :: captures) next = some result := by
  rw [matchThen_all_cons] at succeeded
  obtain ⟨_, _, ⟨_, ⟨rfl, front, rfl, all, enough⟩, rfl⟩, later⟩ :=
    exists_matches_of_matchThen succeeded
  rw [consumed_append, matchThen_all_cons] at later
  obtain ⟨middle, _, ⟨rfl, c, rfl, same⟩, isResult⟩ := exists_matches_of_matchThen later
  obtain rfl := CharClass.eq_of_sameLetter low same
  exact ⟨front, middle, rfl, all, enough, isResult⟩

theorem matches_word_iff {text : String} :
    (word text).Matches input captures rest found ↔
      found = captures ∧ ∃ front, input = front ++ rest ∧ Reads text.toList front := by
  unfold word Reads
  induction text.toList generalizing input captures with
  | nil =>
      simp only [List.forall₂_nil_left_iff, exists_eq_right, List.nil_append]
      exact ⟨fun ⟨isRest, isFound⟩ => ⟨isFound, isRest.symm⟩,
        fun ⟨isFound, isInput⟩ => ⟨isInput.symm, isFound⟩⟩
  | cons letter letters ih =>
      rw [List.map_cons, matches_all_cons_iff]
      simp only [ih, Matches, List.forall₂_cons_left_iff]
      constructor
      · intro ⟨middle, between, ⟨same, c, isInput, holds⟩, isFound, front, isMiddle, others⟩
        rw [isInput, isMiddle]
        exact ⟨isFound.trans same, c :: front, rfl, c, front, holds, others, rfl⟩
      · intro ⟨isFound, front, isInput, c, others, holds, areOthers, isFront⟩
        subst isFront
        exact ⟨others ++ rest, captures, ⟨rfl, c, isInput, holds⟩, isFound, others, rfl, areOthers⟩

end Pattern

end Tracemark.Text
