import Tracemark.Proofs.OneLine.Written

/-!
# Brackets within a list field

In a list field the splitter looks at brackets only, whether a backslash stands in front of
them or not. A closing bracket within an item therefore ends the field at the next separator,
unless another bracket opens before it.
-/

set_option autoImplicit false

namespace Tracemark.OneLine

/-- The items of a list with a backslash in front of every comma, bracket and backslash. -/
def guardedItems (items : List (List Char)) : List Char :=
  [','].intercalate (items.map (escaped (isSpecial (some ','))))

/-- A bracket opens in front of every separator. -/
def Reopens (separator : Char) (text : List Char) : Prop :=
  ∀ before after, text = before ++ separator :: after → '[' ∈ before

/-- Wherever a separator follows a closing bracket, a bracket opens in between. -/
def KeptTogether (separator : Char) (text : List Char) : Prop :=
  ∀ before between after, text = before ++ ']' :: (between ++ separator :: after) → '[' ∈ between

section

variable {separator c : Char} {rest : List Char}

theorem reopens_opening (notOpening : separator ≠ '[') : Reopens separator ('[' :: rest) := by
  intro before after divided
  cases before with
  | nil => exact absurd (List.cons.inj divided).1.symm notOpening
  | cons first before => exact (List.cons.inj divided).1 ▸ List.mem_cons_self

theorem not_reopens_separator : ¬ Reopens separator (separator :: rest) :=
  fun reopens => absurd (reopens [] rest rfl) List.not_mem_nil

theorem reopens_cons_iff (other : c ≠ separator) (notOpening : c ≠ '[') :
    Reopens separator (c :: rest) ↔ Reopens separator rest := by
  constructor
  · intro reopens before after divided
    have opens := reopens (c :: before) after (congrArg (c :: ·) divided)
    exact (List.mem_cons.mp opens).resolve_left (Ne.symm notOpening)
  · intro reopens before after divided
    cases before with
    | nil => exact absurd (List.cons.inj divided).1 other
    | cons first before =>
        exact List.mem_cons_of_mem _ (reopens before after (List.cons.inj divided).2)

theorem keptTogether_cons_iff (notClosing : c ≠ ']') :
    KeptTogether separator (c :: rest) ↔ KeptTogether separator rest := by
  constructor
  · intro kept before between after divided
    exact kept (c :: before) between after (congrArg (c :: ·) divided)
  · intro kept before between after divided
    cases before with
    | nil => exact absurd (List.cons.inj divided).1 notClosing
    | cons first before => exact kept before between after (List.cons.inj divided).2

theorem keptTogether_closing_iff :
    KeptTogether separator (']' :: rest) ↔
      KeptTogether separator rest ∧ Reopens separator rest := by
  constructor
  · intro kept
    refine ⟨fun before between after divided => ?_, fun between after divided => ?_⟩
    · exact kept (']' :: before) between after (congrArg (']' :: ·) divided)
    · exact kept [] between after (congrArg (']' :: ·) divided)
  · rintro ⟨kept, reopens⟩ before between after divided
    cases before with
    | nil => exact reopens between after (List.cons.inj divided).2
    | cons first before => exact kept before between after (List.cons.inj divided).2

end

variable {separator : Char}

theorem isKept_iff (notOpening : separator ≠ '[') (notClosing : separator ≠ ']') {isOpen : Bool}
    {text : List Char} :
    isKept separator isOpen text = true ↔
      KeptTogether separator text ∧ (isOpen = false → Reopens separator text) := by
  -- A bracket that is open at the start is one that need not open before the first separator.
  induction text generalizing isOpen with
  | nil => simp [isKept, KeptTogether, Reopens]
  | cons c rest ih =>
      rw [isKept, Bool.and_eq_true, ih]
      by_cases opens : c = '['
      · subst opens
        simp [openAfter, Ne.symm notOpening, keptTogether_cons_iff, reopens_opening notOpening]
      · by_cases closes : c = ']'
        · subst closes
          simp [openAfter, Ne.symm notClosing, keptTogether_closing_iff, reopens_cons_iff]
          tauto
        · rw [keptTogether_cons_iff closes]
          by_cases divides : c = separator
          · subst divides
            cases isOpen <;> simp [openAfter, opens, closes, not_reopens_separator]
          · simp [openAfter, opens, closes, divides, reopens_cons_iff divides opens]

/-! ## The splitter in a list field -/

section ListField

variable {listPositions : List Nat} {position : Nat}

/-- A list field that is not kept together ends within the text, at one of its separators. -/
theorem splitFrom_of_not_isKept (isList : position ∈ listPositions)
    (notBackslash : separator ≠ '\\') (notClosing : separator ≠ ']') {isOpen : Bool}
    {text : List Char} (cut : isKept separator isOpen text = false) (rest : List Char) :
    ∃ before after, text = before ++ separator :: after ∧
      splitFrom (some separator) listPositions ⟨position, false, isOpen⟩ (text ++ rest) =
        before ::
          splitFrom (some separator) listPositions ⟨position + 1, false, false⟩ (after ++ rest) := by
  induction text generalizing isOpen with
  | nil => cases cut
  | cons c text ih =>
      by_cases ends : c = separator ∧ isOpen = false
      · obtain ⟨rfl, rfl⟩ := ends
        exact ⟨[], text, rfl, splitFrom_separator notBackslash (fun _ => rfl) _⟩
      · have enclosed : c = separator → isOpen = true ∧ c ≠ ']' := fun divides =>
          ⟨Bool.not_eq_false _ ▸ fun closed => ends ⟨divides, closed⟩, divides ▸ notClosing⟩
        have later : isKept separator (openAfter isOpen c) text = false := by
          by_cases divides : c = separator
          · simpa [isKept, (enclosed divides).1] using cut
          · simpa [isKept, divides] using cut
        obtain ⟨before, after, rfl, read⟩ := ih later
        refine ⟨c :: before, after, rfl, ?_⟩
        rw [List.cons_append, splitFrom_enclosed isList enclosed, read]
        rfl

end ListField

/-! ## Fields without special characters around it -/

/-- No character of the fields divides, escapes or is a bracket. -/
def Plain (separator : Char) (fields : List (List Char)) : Prop :=
  ∀ field ∈ fields, ∀ c ∈ field, isSpecial (some separator) c = false

instance decidablePlain (separator : Char) (fields : List (List Char)) :
    Decidable (Plain separator fields) :=
  @List.decidableBAll _ _ (fun field => List.decidableBAll _ field) fields

section PlainFields

variable {listPositions : List Nat} {position : Nat}

/-- A field without special characters is read as it stands, as a list too. -/
theorem splitFrom_field {isOpen : Bool} {field : List Char}
    (plain : ∀ c ∈ field, isSpecial (some separator) c = false) (rest : List Char) :
    splitFrom (some separator) listPositions ⟨position, false, isOpen⟩ (field ++ rest) =
      extendFirst field
        (splitFrom (some separator) listPositions ⟨position, false, isOpen⟩ rest) := by
  induction field with
  | nil => exact (extendFirst_nil (splitFrom_ne_nil _ _ _ _)).symm
  | cons c field ih =>
      rw [List.cons_append, splitFrom_plain (plain c List.mem_cons_self),
        ih fun other member => plain other (List.mem_cons_of_mem _ member), ← extendFirst_append]
      rfl

theorem splitFrom_leading (notBackslash : separator ≠ '\\') {leading fields : List (List Char)}
    (plain : Plain separator leading) (given : fields ≠ []) :
    splitFrom (some separator) listPositions ⟨position, false, false⟩
        ([separator].intercalate (leading ++ fields)) =
      leading ++ splitFrom (some separator) listPositions
        ⟨position + leading.length, false, false⟩ ([separator].intercalate fields) := by
  induction leading generalizing position with
  | nil => rfl
  | cons field leading ih =>
      have laterPlain : Plain separator leading :=
        fun other member => plain other (List.mem_cons_of_mem _ member)
      have joined : [separator].intercalate (field :: (leading ++ fields)) =
          field ++ separator :: [separator].intercalate (leading ++ fields) := by
        rw [List.intercalate_cons_of_ne_nil (by simp [given])]
        simp
      rw [List.cons_append, joined, splitFrom_field (plain field List.mem_cons_self),
        splitFrom_separator notBackslash (fun _ => rfl), ih laterPlain, List.length_cons,
        Nat.add_right_comm, Nat.add_assoc]
      simp [extendFirst]

theorem splitFrom_fields (notBackslash : separator ≠ '\\') {fields : List (List Char)}
    (plain : Plain separator fields) (given : fields ≠ []) :
    splitFrom (some separator) listPositions ⟨position, false, false⟩
      ([separator].intercalate fields) = fields := by
  obtain ⟨front, last, rfl⟩ := (List.eq_nil_or_concat' fields).resolve_left given
  have lastPlain := plain last (List.mem_append_right _ List.mem_cons_self)
  have frontPlain : Plain separator front :=
    fun field member => plain field (List.mem_append_left _ member)
  have alone : splitFrom (some separator) listPositions ⟨position + front.length, false, false⟩ last =
      [last] := by
    simpa [splitFrom, extendFirst] using splitFrom_field lastPlain []
  rw [splitFrom_leading notBackslash frontPlain (List.cons_ne_nil _ _), List.intercalate_singleton,
    alone]

end PlainFields

/-! ## A list field with guarded items -/

section Bracketed

variable {listPositions : List Nat} {position : Nat}

/-- A list field that is kept together is read as it stands, and the fields after it. -/
theorem splitFrom_bracketedField (notBackslash : separator ≠ '\\') (notOpening : separator ≠ '[')
    (notClosing : separator ≠ ']') (isList : position ∈ listPositions) {inner : List Char}
    (kept : KeptTogether separator inner) {trailing : List (List Char)}
    (plain : Plain separator trailing) :
    splitFrom (some separator) listPositions ⟨position, false, false⟩
        ([separator].intercalate (('[' :: inner ++ [']']) :: trailing)) =
      ('[' :: inner ++ [']']) :: trailing := by
  have isKept : isKept separator true inner = true :=
    (isKept_iff notOpening notClosing).mpr ⟨kept, nofun⟩
  have read := splitFrom_list isList false notOpening notClosing isKept
  cases trailing with
  | nil =>
      have alone := read []
      rw [List.append_nil] at alone
      rw [List.intercalate_singleton, alone]
      simp [splitFrom, extendFirst]
  | cons next trailing =>
      rw [List.intercalate_cons_cons, List.append_assoc, read, List.singleton_append,
        splitFrom_separator notBackslash (fun _ => rfl),
        splitFrom_fields notBackslash plain (List.cons_ne_nil _ _)]
      simp [extendFirst]

/-- A list field that is not kept together is read as one of its beginnings. -/
theorem head_splitFrom_ne (notBackslash : separator ≠ '\\') (notOpening : separator ≠ '[')
    (notClosing : separator ≠ ']') (isList : position ∈ listPositions) {inner : List Char}
    (cut : ¬ KeptTogether separator inner) (rest : List Char) :
    (splitFrom (some separator) listPositions ⟨position, false, false⟩
      ('[' :: inner ++ [']'] ++ rest))[0]? ≠ some ('[' :: inner ++ [']']) := by
  have notKept : isKept separator true inner = false := by
    rw [Bool.eq_false_iff]
    exact fun kept => cut ((isKept_iff notOpening notClosing).mp kept).1
  obtain ⟨before, after, rfl, read⟩ :=
    splitFrom_of_not_isKept isList notBackslash notClosing notKept (']' :: rest)
  have opened : splitFrom (some separator) listPositions ⟨position, false, false⟩
      ('[' :: (before ++ separator :: after) ++ [']'] ++ rest) = ('[' :: before) ::
        splitFrom (some separator) listPositions ⟨position + 1, false, false⟩
          (after ++ ']' :: rest) := by
    rw [List.cons_append, List.cons_append, List.append_assoc,
      splitFrom_enclosed isList (fun opens => absurd opens.symm notOpening)]
    exact congrArg (extendFirst ['[']) read
  rw [opened]
  intro same
  have lengths := congrArg (Option.map List.length) same
  simp at lengths

end Bracketed

/-- A list field whose items have their commas, brackets and backslashes guarded stands
unchanged among the fields exactly where no separator follows a closing bracket within it
without another bracket opening; then the fields around it are unchanged too. -/
theorem split_guardedItems {listPositions : List Nat} (notBackslash : separator ≠ '\\')
    (notOpening : separator ≠ '[') (notClosing : separator ≠ ']')
    {leading trailing : List (List Char)} (plainLeading : Plain separator leading)
    (plainTrailing : Plain separator trailing)
    (isList : leading.length + 1 ∈ listPositions) (items : List (List Char)) :
    let written := '[' :: guardedItems items ++ [']']
    let fields := split (some separator) listPositions
      ([separator].intercalate (leading ++ written :: trailing))
    (fields[leading.length]? = some written ↔ KeptTogether separator (guardedItems items)) ∧
      (KeptTogether separator (guardedItems items) → fields = leading ++ written :: trailing) := by
  intro written fields
  have fromField : fields = leading ++ splitFrom (some separator) listPositions
      ⟨1 + leading.length, false, false⟩ ([separator].intercalate (written :: trailing)) :=
    splitFrom_leading notBackslash plainLeading (List.cons_ne_nil _ _)
  rw [Nat.add_comm] at isList
  have whole : KeptTogether separator (guardedItems items) →
      fields = leading ++ written :: trailing := fun kept =>
    fromField.trans (congrArg (leading ++ ·)
      (splitFrom_bracketedField notBackslash notOpening notClosing isList kept plainTrailing))
  refine ⟨⟨fun found => ?_, fun kept => ?_⟩, whole⟩
  · by_contra cut
    obtain ⟨rest, begins⟩ : ∃ rest,
        [separator].intercalate (written :: trailing) = written ++ rest := by
      cases trailing with
      | nil => exact ⟨[], by simp⟩
      | cons next trailing => exact ⟨_, List.intercalate_cons_cons.trans (List.append_assoc ..)⟩
    rw [fromField, begins, List.getElem?_append_right (Nat.le_refl _), Nat.sub_self] at found
    exact head_splitFrom_ne notBackslash notOpening notClosing isList cut rest found
  · rw [whole kept]
    simp

/-- A closing bracket at the end of the first of two items ends the field at the comma
between them. A semicolon as the separator leaves it whole. -/
theorem split_guardedItems_closing :
    (split (some ',') [2] "T,[a\\],b],c".toList)[1]? ≠ some "[a\\],b]".toList ∧
      split (some ';') [2] "T;[a\\],b];c".toList =
        ["T".toList, "[a\\],b]".toList, "c".toList] := by
  have ofComma := split_guardedItems (show ',' ≠ '\\' by decide) (by decide) (by decide)
    (show Plain ',' ["T".toList] by decide) (show Plain ',' ["c".toList] by decide)
    (show 2 ∈ [2] by decide) ["a]".toList, "b".toList]
  have ofSemicolon := split_guardedItems (show ';' ≠ '\\' by decide) (by decide) (by decide)
    (show Plain ';' ["T".toList] by decide) (show Plain ';' ["c".toList] by decide)
    (show 2 ∈ [2] by decide) ["a]".toList, "b".toList]
  have kept : isKept ';' true (guardedItems ["a]".toList, "b".toList]) = true := by decide
  refine ⟨fun found => ?_, ofSemicolon.2 ((isKept_iff (by decide) (by decide)).mp kept).1⟩
  have reopened := ofComma.1.mp found "a\\".toList [] "b".toList rfl
  exact absurd reopened List.not_mem_nil

end Tracemark.OneLine
