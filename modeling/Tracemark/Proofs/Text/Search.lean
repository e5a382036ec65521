import Tracemark.Text.Search

/-!
# What a search finds

The first occurrence is the least index at which the pattern begins, the last one
the greatest, and both exist exactly when the pattern occurs. Dividing a text at a
separator undoes putting pieces together with it.
-/

set_option autoImplicit false

namespace Tracemark.Text

variable {pattern text : List Char}

theorem find?_eq_some_iff {index : Nat} :
    find? pattern text = some index ↔
      pattern <+: text.drop index ∧ ∀ earlier < index, ¬ pattern <+: text.drop earlier := by
  induction text generalizing index with
  | nil =>
      cases pattern with
      | nil =>
          simp only [find?, List.isEmpty_nil, ↓reduceIte, Option.some.injEq, List.drop_nil,
            List.nil_prefix, true_and]
          constructor
          · rintro rfl earlier ⟨⟩
          · intro least
            exact Nat.le_antisymm (Nat.zero_le _)
              (Nat.le_of_not_lt fun later => least 0 later trivial)
      | cons c rest => simp [find?]
  | cons c rest ih =>
      simp only [find?]
      split
      · rename_i begins
        have here : pattern <+: c :: rest := List.isPrefixOf_iff_prefix.mp begins
        constructor
        · rintro ⟨⟩
          exact ⟨here, fun earlier before => absurd before (Nat.not_lt_zero _)⟩
        · rintro ⟨_, least⟩
          cases index with
          | zero => rfl
          | succ index => exact absurd here (least 0 (Nat.succ_pos _))
      · rename_i elsewhere
        have notHere : ¬ pattern <+: c :: rest := fun here =>
          elsewhere (List.isPrefixOf_iff_prefix.mpr here)
        cases index with
        | zero => simp [notHere]
        | succ index =>
            simp only [Option.map_eq_some_iff, Nat.add_right_cancel_iff, exists_eq_right, ih,
              List.drop_succ_cons]
            constructor
            · rintro ⟨found, least⟩
              refine ⟨found, ?_⟩
              intro earlier before
              cases earlier with
              | zero => exact notHere
              | succ earlier => exact least earlier (Nat.lt_of_succ_lt_succ before)
            · rintro ⟨found, least⟩
              exact ⟨found, fun earlier before => least (earlier + 1) (Nat.succ_lt_succ before)⟩

theorem find?_add_length_le {index : Nat} (found : find? pattern text = some index) :
    index + pattern.length ≤ text.length := by
  obtain ⟨begins, least⟩ := find?_eq_some_iff.mp found
  have fits := begins.length_le
  rw [List.length_drop] at fits
  cases pattern with
  | nil =>
      have first : index = 0 := Nat.eq_zero_of_not_pos fun later => least 0 later List.nil_prefix
      simp [first]
  | cons c rest =>
      rw [List.length_cons] at fits ⊢
      omega

/-- What follows a text does not matter to a search that succeeds within it. -/
theorem find?_append_of_some {index : Nat} (found : find? pattern text = some index)
    (tail : List Char) : find? pattern (text ++ tail) = some index := by
  have fits := find?_add_length_le found
  obtain ⟨begins, least⟩ := find?_eq_some_iff.mp found
  refine find?_eq_some_iff.mpr ⟨?_, fun earlier before inside => least earlier before ?_⟩
  · rw [List.drop_append_of_le_length (by omega)]
    exact begins.trans (List.prefix_append _ _)
  · rw [List.drop_append_of_le_length (by omega)] at inside
    refine List.prefix_of_prefix_length_le inside (List.prefix_append _ _) ?_
    rw [List.length_drop]
    omega

theorem find?_eq_none_iff : find? pattern text = none ↔ ¬ pattern <:+: text := by
  induction text with
  | nil => cases pattern <;> simp [find?]
  | cons c rest ih =>
      simp only [find?, List.infix_cons_iff]
      split
      · rename_i begins
        simp [List.isPrefixOf_iff_prefix.mp begins]
      · rename_i elsewhere
        have notHere : ¬ pattern <+: c :: rest := fun here =>
          elsewhere (List.isPrefixOf_iff_prefix.mpr here)
        simp [ih, notHere]

theorem findLast?_eq_none_iff : findLast? pattern text = none ↔ ¬ pattern <:+: text := by
  induction text with
  | nil => cases pattern <;> simp [findLast?]
  | cons c rest ih =>
      simp only [findLast?, List.infix_cons_iff]
      cases found : findLast? pattern rest with
      | some index =>
          have inRest : pattern <:+: rest := by
            refine Decidable.byContradiction fun absent => ?_
            simp [ih.mpr absent] at found
          simp [inRest]
      | none =>
          simp only [ih.mp found, or_false]
          split
          · rename_i begins
            simp [List.isPrefixOf_iff_prefix.mp begins]
          · rename_i elsewhere
            simp only [true_iff]
            exact fun here => elsewhere (List.isPrefixOf_iff_prefix.mpr here)

theorem findLast?_cons_eq_some_iff {c : Char} {rest : List Char} {index : Nat} :
    findLast? pattern (c :: rest) = some index ↔
      (∃ inRest, findLast? pattern rest = some inRest ∧ index = inRest + 1) ∨
        findLast? pattern rest = none ∧ pattern <+: c :: rest ∧ index = 0 := by
  rw [findLast?]
  cases findLast? pattern rest with
  | some inRest => simp [@eq_comm _ index]
  | none => simp [@eq_comm _ index]

theorem occurs_of_findLast? {index : Nat} (found : findLast? pattern text = some index) :
    index ≤ text.length ∧ pattern <+: text.drop index := by
  induction text generalizing index with
  | nil =>
      cases pattern with
      | nil =>
          cases found
          exact ⟨Nat.le_refl 0, List.nil_prefix⟩
      | cons c rest => cases found
  | cons c rest ih =>
      rcases findLast?_cons_eq_some_iff.mp found with ⟨inRest, foundRest, rfl⟩ | ⟨_, begins, rfl⟩
      · obtain ⟨within, occurs⟩ := ih foundRest
        exact ⟨Nat.succ_le_succ within, occurs⟩
      · exact ⟨Nat.zero_le _, begins⟩

/-- The last occurrence is not before a place exactly when the pattern occurs from there on. -/
theorem le_findLast?_iff {index : Nat} (found : findLast? pattern text = some index) {place : Nat}
    (within : place ≤ text.length) : place ≤ index ↔ pattern <:+: text.drop place := by
  have somewhere : pattern <:+: text :=
    (occurs_of_findLast? found).2.isInfix.trans (List.drop_suffix index text).isInfix
  induction text generalizing index place with
  | nil =>
      obtain rfl : place = 0 := Nat.le_zero.mp within
      simpa using somewhere
  | cons c rest ih =>
      cases place with
      | zero => simpa using somewhere
      | succ place =>
          have withinRest := Nat.le_of_succ_le_succ within
          rcases findLast?_cons_eq_some_iff.mp found with ⟨inRest, foundRest, rfl⟩ | ⟨absent, _, rfl⟩
          · have occurs := occurs_of_findLast? foundRest
            rw [Nat.succ_le_succ_iff, List.drop_succ_cons]
            exact ih foundRest withinRest
              (occurs.2.isInfix.trans (List.drop_suffix inRest rest).isInfix)
          · have nowhere := findLast?_eq_none_iff.mp absent
            constructor
            · intro early
              exact absurd early (Nat.not_succ_le_zero _)
            · intro later
              exact absurd (later.trans (List.drop_suffix place rest).isInfix) nowhere

theorem findLast?_eq_some_iff {index : Nat} :
    findLast? pattern text = some index ↔
      (index ≤ text.length ∧ pattern <+: text.drop index) ∧
        ∀ later, index < later → later ≤ text.length → ¬ pattern <+: text.drop later := by
  constructor
  · intro found
    refine ⟨occurs_of_findLast? found, ?_⟩
    intro later after within begins
    have early := (le_findLast?_iff found within).mpr begins.isInfix
    exact absurd after (Nat.not_lt.mpr early)
  · intro ⟨⟨within, begins⟩, last⟩
    cases found : findLast? pattern text with
    | none =>
        have occurs := begins.isInfix.trans (List.drop_suffix index text).isInfix
        exact absurd occurs (findLast?_eq_none_iff.mp found)
    | some other =>
        obtain ⟨otherWithin, otherBegins⟩ := occurs_of_findLast? found
        have notBefore := (le_findLast?_iff found within).mpr begins.isInfix
        have notAfter := Nat.le_of_not_lt fun after => last other after otherWithin otherBegins
        rw [Nat.le_antisymm notBefore notAfter]

/-- A text that ends in a pattern has its last occurrence there. -/
theorem findLast?_append_self : findLast? pattern (text ++ pattern) = some text.length := by
  induction text with
  | nil =>
      cases pattern with
      | nil => rfl
      | cons c rest =>
          have tooShort : findLast? (c :: rest) rest = none := by
            refine findLast?_eq_none_iff.mpr fun inside => ?_
            exact absurd inside.length_le (by simp)
          simp [findLast?, tooShort]
  | cons c rest ih => simp [findLast?, ih]

theorem prefix_append_iff_of_disjoint {tail : List Char} (apart : ∀ c ∈ pattern, c ∉ tail) :
    pattern <+: text ++ tail ↔ pattern <+: text := by
  induction text generalizing pattern with
  | nil =>
      cases pattern with
      | nil => simp
      | cons c rest =>
          have first := apart c List.mem_cons_self
          simp only [List.nil_append, List.prefix_nil, reduceCtorEq, iff_false]
          exact fun begins => first (begins.subset List.mem_cons_self)
  | cons c text ih =>
      cases pattern with
      | nil => simp
      | cons first rest =>
          have others : ∀ c ∈ rest, c ∉ tail := fun c member => apart c (List.mem_cons_of_mem _ member)
          simp [List.cons_prefix_cons, ih others]

/-- What shares no character with a pattern does not matter to a search when it follows. -/
theorem find?_append_of_disjoint {tail : List Char} (some : pattern ≠ [])
    (apart : ∀ c ∈ pattern, c ∉ tail) : find? pattern (text ++ tail) = find? pattern text := by
  have begins (rest : List Char) : pattern.isPrefixOf (rest ++ tail) = pattern.isPrefixOf rest := by
    rw [Bool.eq_iff_iff, List.isPrefixOf_iff_prefix, List.isPrefixOf_iff_prefix,
      prefix_append_iff_of_disjoint apart]
  induction text with
  | nil =>
      have absent : ¬ pattern <:+: tail := by
        obtain ⟨c, rest, rfl⟩ := List.exists_cons_of_ne_nil some
        exact fun inside => apart c List.mem_cons_self (inside.subset List.mem_cons_self)
      simp [find?_eq_none_iff.mpr absent, find?, some]
  | cons c rest ih => rw [List.cons_append, find?, find?, ← List.cons_append, begins, ih]

/-- A pattern whose first character does not stand before it is found where it was put. -/
theorem find?_append_cons {c : Char} {front : List Char} (absent : c ∉ front) (rest : List Char) :
    find? (c :: rest) (front ++ c :: rest) = some front.length := by
  induction front with
  | nil => simp [find?]
  | cons first front ih =>
      obtain ⟨different, inFront⟩ := not_or.mp (mt List.mem_cons.mpr absent)
      simp [find?, List.isPrefixOf, different, ih inFront]

theorem slice_add (start length : Nat) (text : List Char) :
    slice start (start + length) text = (text.drop start).take length := by
  rw [slice, List.drop_take, Nat.add_sub_cancel_left]

theorem length_slice (start stop : Nat) (text : List Char) :
    (slice start stop text).length = min stop text.length - start := by
  rw [slice, List.length_drop, List.length_take]

theorem drop_slice (start stop count : Nat) (text : List Char) :
    (slice start stop text).drop count = slice (start + count) stop text := by
  rw [slice, slice, List.drop_drop]

theorem find?_singleton_eq_none_iff {c : Char} : find? [c] text = none ↔ c ∉ text := by
  rw [find?_eq_none_iff]
  apply not_congr
  constructor
  · intro occurs
    exact occurs.subset List.mem_cons_self
  · intro member
    obtain ⟨front, rest, rfl⟩ := List.append_of_mem member
    exact ⟨front, rest, by simp⟩

theorem find?_singleton_append_cons {c : Char} {front : List Char} (absent : c ∉ front)
    (rest : List Char) : find? [c] (front ++ c :: rest) = some front.length := by
  simpa using find?_append_of_some (find?_append_cons absent []) rest

theorem findLast?_singleton_append_cons {c : Char} {rest : List Char} (absent : c ∉ rest)
    (front : List Char) : findLast? [c] (front ++ c :: rest) = some front.length := by
  have nowhere : findLast? [c] rest = none :=
    findLast?_eq_none_iff.mpr fun occurs => absent (occurs.subset List.mem_cons_self)
  induction front with
  | nil => simp [findLast?, nowhere]
  | cons first front ih => simp [findLast?, ih]

/-- A text is divided at the first occurrence of a character in one way. -/
theorem divided_inj {c : Char} {front other rest more : List Char} (absent : c ∉ front)
    (otherAbsent : c ∉ other) (same : front ++ c :: rest = other ++ c :: more) :
    front = other ∧ rest = more := by
  have found := find?_singleton_append_cons absent rest
  rw [same, find?_singleton_append_cons otherAbsent] at found
  obtain ⟨sameFront, sameRest⟩ := List.append_inj same (Option.some.inj found).symm
  exact ⟨sameFront, (List.cons.inj sameRest).2⟩

/-- A character is found after the longest front that does not hold it. -/
theorem exists_append_of_find?_singleton {c : Char} {index : Nat}
    (found : find? [c] text = some index) :
    ∃ front rest, text = front ++ c :: rest ∧ c ∉ front ∧ front.length = index := by
  have member : c ∈ text := by
    apply Decidable.byContradiction
    intro absent
    cases (find?_singleton_eq_none_iff.mpr absent).symm.trans found
  obtain ⟨front, rest, rfl, absent⟩ := List.eq_append_cons_of_mem member
  rw [find?_singleton_append_cons absent] at found
  exact ⟨front, rest, rfl, absent, Option.some.inj found⟩

/-- A character is found before the longest end that does not hold it. -/
theorem exists_append_of_findLast?_singleton {c : Char} {index : Nat}
    (found : findLast? [c] text = some index) :
    ∃ front rest, text = front ++ c :: rest ∧ c ∉ rest := by
  have member : c ∈ text.reverse :=
    List.mem_reverse.mpr ((List.drop_suffix index text).subset
      ((occurs_of_findLast? found).2.subset List.mem_cons_self))
  obtain ⟨back, rest, divided, absent⟩ := List.eq_append_cons_of_mem member
  refine ⟨rest.reverse, back.reverse, ?_, by simpa using absent⟩
  rw [← List.reverse_reverse text, divided]
  simp

/-! ## Pieces -/

theorem pieces_ne_nil (separator : Char) (text : List Char) : pieces separator text ≠ [] := by
  cases text with
  | nil => simp [pieces]
  | cons c rest =>
      simp only [pieces]
      split
      · simp
      · split <;> simp

theorem pieces_of_not_mem {separator : Char} {text : List Char} (absent : separator ∉ text) :
    pieces separator text = [text] := by
  induction text with
  | nil => rfl
  | cons c rest ih =>
      obtain ⟨different, inRest⟩ := not_or.mp (mt List.mem_cons.mpr absent)
      simp [pieces, ih inRest, Ne.symm different]

theorem pieces_append_cons {separator : Char} {piece : List Char} (absent : separator ∉ piece)
    (rest : List Char) :
    pieces separator (piece ++ separator :: rest) = piece :: pieces separator rest := by
  induction piece with
  | nil => simp [pieces]
  | cons c piece ih =>
      obtain ⟨different, inPiece⟩ := not_or.mp (mt List.mem_cons.mpr absent)
      simp [pieces, ih inPiece, Ne.symm different]

theorem pieces_intercalate {separator : Char} {parts : List (List Char)} (some : parts ≠ [])
    (free : ∀ part ∈ parts, separator ∉ part) :
    pieces separator ([separator].intercalate parts) = parts := by
  induction parts with
  | nil => exact absurd rfl some
  | cons part rest ih =>
      have first := free part List.mem_cons_self
      cases rest with
      | nil => simpa using pieces_of_not_mem first
      | cons next rest =>
          rw [List.intercalate_cons_cons, List.append_assoc, List.singleton_append,
            pieces_append_cons first, ih (by simp) fun other member =>
              free other (List.mem_cons_of_mem _ member)]

theorem mem_intercalate {separator : List Char} {parts : List (List Char)} {c : Char}
    (member : c ∈ separator.intercalate parts) : c ∈ separator ∨ ∃ part ∈ parts, c ∈ part := by
  induction parts with
  | nil => simp at member
  | cons part rest ih =>
      cases rest with
      | nil => exact .inr ⟨part, List.mem_cons_self, by simpa using member⟩
      | cons next rest =>
          simp only [List.intercalate_cons_cons, List.append_assoc, List.mem_append] at member
          rcases member with inFirst | separates | inRest
          · exact .inr ⟨part, List.mem_cons_self, inFirst⟩
          · exact .inl separates
          · rcases ih inRest with separates | ⟨other, otherMember, inPart⟩
            · exact .inl separates
            · exact .inr ⟨other, List.mem_cons_of_mem _ otherMember, inPart⟩

theorem not_mem_of_mem_pieces {separator : Char} {text piece : List Char}
    (member : piece ∈ pieces separator text) : separator ∉ piece := by
  induction text generalizing piece with
  | nil => simp_all [pieces]
  | cons c rest ih =>
      simp only [pieces] at member
      split at member
      · rcases List.mem_cons.mp member with rfl | later
        · exact List.not_mem_nil
        · exact ih later
      · rename_i different
        split at member
        · rename_i none
          exact absurd none (pieces_ne_nil _ _)
        · rename_i first more divided
          rcases List.mem_cons.mp member with rfl | later
          · have absent := ih (divided ▸ List.mem_cons_self)
            simp only [beq_iff_eq] at different
            simp [Ne.symm different, absent]
          · exact ih (divided ▸ List.mem_cons_of_mem _ later)

end Tracemark.Text
