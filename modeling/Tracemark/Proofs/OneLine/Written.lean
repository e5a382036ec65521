import Tracemark.OneLine.Split
import Tracemark.Proofs.OneLine.Layout
import Tracemark.Proofs.Text.Search

/-!
# How fields are written

A text field is written with a backslash in front of each character that would
otherwise divide or escape. A list field is written in brackets, its items divided
by commas. Splitting fields that are written this way gives them back.
-/

set_option autoImplicit false

namespace Tracemark.OneLine

/-- A text with a backslash in front of each special character. -/
def escaped (special : Char → Bool) (text : List Char) : List Char :=
  text.flatMap fun c => if special c then ['\\', c] else [c]

/-- The characters of an item that are written with a backslash. -/
def isItemSpecial (c : Char) : Bool :=
  c == ',' || c == '[' || c == '\\'

inductive Content where
  | text (characters : List Char)
  | list (items : List (List Char))
deriving Repr, DecidableEq

namespace Content

/-- The kind of the fields that can hold the content. -/
def kind : Content → FieldKind
  | .text _ => .text
  | .list _ => .list

def writtenItems (items : List (List Char)) : List Char :=
  [','].intercalate (items.map (escaped isItemSpecial))

/-- The written form of a content in a mark with the given separator. -/
def written (separator : Char) : Content → List Char
  | .text characters => escaped (isSpecial (some separator)) characters
  | .list items => '[' :: writtenItems items ++ [']']

/-- What is left of a written content when a mark has been split: backslashes of a
text are gone, those in a list stay. -/
def field : Content → List Char
  | .text characters => characters
  | .list items => '[' :: writtenItems items ++ [']']

end Content

def writtenMark (separator : Char) (contents : List Content) : List Char :=
  [separator].intercalate (contents.map (Content.written separator))

theorem writtenMark_cons_cons (separator : Char) (content next : Content) (rest : List Content) :
    writtenMark separator (content :: next :: rest) =
      content.written separator ++ separator :: writtenMark separator (next :: rest) := by
  simp [writtenMark, List.intercalate_cons_cons]

/-! ## Characters of what is written -/

theorem mem_escaped {special : Char → Bool} {text : List Char} {c : Char}
    (member : c ∈ escaped special text) : c = '\\' ∨ c ∈ text := by
  simp only [escaped, List.mem_flatMap] at member
  obtain ⟨character, inText, written⟩ := member
  split at written
  · rcases List.mem_cons.mp written with backslash | same
    · exact .inl backslash
    · exact .inr (List.mem_singleton.mp same ▸ inText)
  · exact .inr (List.mem_singleton.mp written ▸ inText)

theorem not_mem_writtenItems {items : List (List Char)} {c : Char} (notComma : c ≠ ',')
    (notBackslash : c ≠ '\\') (absent : ∀ item ∈ items, c ∉ item) :
    c ∉ Content.writtenItems items := by
  intro member
  rcases Text.mem_intercalate member with comma | ⟨part, partMember, inPart⟩
  · exact notComma (List.mem_singleton.mp comma)
  · obtain ⟨item, itemMember, rfl⟩ := List.mem_map.mp partMember
    rcases mem_escaped inPart with backslash | inItem
    · exact notBackslash backslash
    · exact absent item itemMember inItem

/-! ## Splitting -/

theorem extendFirst_append (left right : List Char) (fields : List (List Char)) :
    extendFirst (left ++ right) fields = extendFirst left (extendFirst right fields) := by
  cases fields <;> simp [extendFirst]

theorem extendFirst_nil {fields : List (List Char)} (some : fields ≠ []) :
    extendFirst [] fields = fields := by
  cases fields with
  | nil => exact absurd rfl some
  | cons field rest => rfl

theorem splitFrom_ne_nil (separator : Option Char) (listPositions : List Nat) (state : SplitState)
    (text : List Char) : splitFrom separator listPositions state text ≠ [] := by
  have extended : ∀ characters fields, extendFirst characters fields ≠ [] := by
    intro characters fields
    cases fields <;> simp [extendFirst]
  induction text generalizing state with
  | nil => simp [splitFrom]
  | cons c rest ih =>
      simp only [splitFrom]
      repeat' split
      all_goals first
        | exact extended _ _
        | exact ih _
        | simp

/-- Is a bracket open after a character of a list field? -/
def openAfter (isOpen : Bool) (c : Char) : Bool :=
  if c == '[' then true else if c == ']' then false else isOpen

/-- Do all separators of a list field stand where a bracket is open? -/
def isKept (separator : Char) : Bool → List Char → Bool
  | _, [] => true
  | isOpen, c :: rest => (c != separator || isOpen) && isKept separator (openAfter isOpen c) rest

theorem isKept_of_unclosed {separator : Char} {text : List Char} (unclosed : ']' ∉ text) :
    isKept separator true text = true := by
  induction text with
  | nil => rfl
  | cons c rest ih =>
      simp only [List.mem_cons, not_or] at unclosed
      simp [isKept, openAfter, Ne.symm unclosed.1, ih unclosed.2]

section Fields

variable {separator : Char} {listPositions : List Nat} {position : Nat}

/-- At the separator a field ends, unless it is a list whose bracket is open. -/
theorem splitFrom_separator {bracketed : Bool} (notBackslash : separator ≠ '\\')
    (closed : position ∈ listPositions → bracketed = false) (rest : List Char) :
    splitFrom (some separator) listPositions ⟨position, false, bracketed⟩ (separator :: rest) =
      [] :: splitFrom (some separator) listPositions ⟨position + 1, false, bracketed⟩ rest := by
  by_cases isList : position ∈ listPositions <;> simp [splitFrom, notBackslash, isList, closed]

/-- In a text field a special character after a backslash is itself. -/
theorem splitFrom_backslash {bracketed : Bool} (isText : position ∉ listPositions) {c : Char}
    (special : isSpecial (some separator) c = true) (rest : List Char) :
    splitFrom (some separator) listPositions ⟨position, false, bracketed⟩ ('\\' :: c :: rest) =
      extendFirst [c]
        (splitFrom (some separator) listPositions ⟨position, false, bracketed⟩ rest) := by
  simp [splitFrom, isText, special]

/-- In any field a character that is not special is itself. -/
theorem splitFrom_plain {bracketed : Bool} {c : Char}
    (plain : isSpecial (some separator) c = false) (rest : List Char) :
    splitFrom (some separator) listPositions ⟨position, false, bracketed⟩ (c :: rest) =
      extendFirst [c]
        (splitFrom (some separator) listPositions ⟨position, false, bracketed⟩ rest) := by
  simp only [isSpecial, Bool.or_eq_false_iff, beq_eq_false_iff_ne, ne_eq,
    Option.some.injEq] at plain
  simp [splitFrom, plain]

/-- Where it does not end a list field, a character belongs to it, and a bracket opens or
closes. -/
theorem splitFrom_enclosed (isList : position ∈ listPositions) {isOpen : Bool} {c : Char}
    (enclosed : c = separator → isOpen = true ∧ c ≠ ']') (rest : List Char) :
    splitFrom (some separator) listPositions ⟨position, false, isOpen⟩ (c :: rest) =
      extendFirst [c]
        (splitFrom (some separator) listPositions ⟨position, false, openAfter isOpen c⟩ rest) := by
  by_cases divides : c = separator
  · obtain ⟨rfl, notClosing⟩ := enclosed divides
    simp [splitFrom, isList, divides, openAfter, divides ▸ notClosing]
  · simp [splitFrom, isList, divides, openAfter]

/-- A text field is read as the text that was written. -/
theorem splitFrom_escaped (isText : position ∉ listPositions) (bracketed : Bool)
    (text rest : List Char) :
    splitFrom (some separator) listPositions ⟨position, false, bracketed⟩
        (escaped (isSpecial (some separator)) text ++ rest) =
      extendFirst text
        (splitFrom (some separator) listPositions ⟨position, false, bracketed⟩ rest) := by
  induction text with
  | nil => exact (extendFirst_nil (splitFrom_ne_nil _ _ _ _)).symm
  | cons c text ih =>
      rw [← List.singleton_append, extendFirst_append, ← ih]
      cases special : isSpecial (some separator) c with
      | true => simpa [escaped, special] using splitFrom_backslash isText special _
      | false => simpa [escaped, special] using splitFrom_plain special _

theorem splitFrom_of_isKept (isList : position ∈ listPositions) (notClosing : separator ≠ ']')
    {isOpen : Bool} {text : List Char} (kept : isKept separator isOpen text = true)
    (rest : List Char) :
    splitFrom (some separator) listPositions ⟨position, false, isOpen⟩ (text ++ rest) =
      extendFirst text
        (splitFrom (some separator) listPositions ⟨position, false, text.foldl openAfter isOpen⟩
          rest) := by
  induction text generalizing isOpen with
  | nil => exact (extendFirst_nil (splitFrom_ne_nil _ _ _ _)).symm
  | cons c text ih =>
      simp only [isKept, Bool.and_eq_true, Bool.or_eq_true, bne_iff_ne] at kept
      obtain ⟨notDivided, laterKept⟩ := kept
      have enclosed : c = separator → isOpen = true ∧ c ≠ ']' := fun divides =>
        ⟨notDivided.resolve_left (absurd divides), divides ▸ notClosing⟩
      rw [List.cons_append, splitFrom_enclosed isList enclosed, ih laterKept, ← extendFirst_append]
      rfl

/-- A list field that is kept together is read as it was written, up to its closing bracket. -/
theorem splitFrom_list (isList : position ∈ listPositions) (bracketed : Bool)
    (notOpening : separator ≠ '[') (notClosing : separator ≠ ']') {inner : List Char}
    (kept : isKept separator true inner = true) (rest : List Char) :
    splitFrom (some separator) listPositions ⟨position, false, bracketed⟩
        ('[' :: inner ++ [']'] ++ rest) =
      extendFirst ('[' :: inner ++ [']'])
        (splitFrom (some separator) listPositions ⟨position, false, false⟩ rest) := by
  have opening : splitFrom (some separator) listPositions ⟨position, false, bracketed⟩
      ('[' :: (inner ++ ']' :: rest)) = extendFirst ['[']
        (splitFrom (some separator) listPositions ⟨position, false, true⟩
          (inner ++ ']' :: rest)) :=
    splitFrom_enclosed isList (fun divides => absurd divides.symm notOpening) _
  have closing : ∀ isOpen, splitFrom (some separator) listPositions ⟨position, false, isOpen⟩
      (']' :: rest) = extendFirst [']']
        (splitFrom (some separator) listPositions ⟨position, false, false⟩ rest) := fun isOpen =>
    splitFrom_enclosed isList (fun divides => absurd divides.symm notClosing) _
  calc splitFrom (some separator) listPositions ⟨position, false, bracketed⟩
        ('[' :: inner ++ [']'] ++ rest)
      = splitFrom (some separator) listPositions ⟨position, false, bracketed⟩
          ('[' :: (inner ++ ']' :: rest)) := by simp
    _ = extendFirst ['['] (extendFirst inner (extendFirst [']']
          (splitFrom (some separator) listPositions ⟨position, false, false⟩ rest))) := by
        rw [opening, splitFrom_of_isKept isList notClosing kept, closing]
    _ = extendFirst ('[' :: inner ++ [']'])
          (splitFrom (some separator) listPositions ⟨position, false, false⟩ rest) := by
        rw [← extendFirst_append, ← extendFirst_append]
        rfl

/-- A list that can be told apart in a mark: neither bracket is the separator, and no
item holds the closing one. Texts can always be told apart. -/
def Content.Enclosed (separator : Char) : Content → Prop
  | .text _ => True
  | .list items => separator ≠ '[' ∧ separator ≠ ']' ∧ ∀ item ∈ items, ']' ∉ item

/-- A written field is read, and at its end no bracket of it is open. -/
theorem splitFrom_written {content : Content}
    (aligned : position ∈ listPositions ↔ content.kind = .list)
    (enclosed : content.Enclosed separator) (bracketed : Bool) :
    ∃ after : Bool, (position ∈ listPositions → after = false) ∧ ∀ rest,
      splitFrom (some separator) listPositions ⟨position, false, bracketed⟩
          (content.written separator ++ rest) =
        extendFirst content.field
          (splitFrom (some separator) listPositions ⟨position, false, after⟩ rest) := by
  cases content with
  | text characters =>
      have isText : position ∉ listPositions := by simpa [Content.kind] using aligned
      exact ⟨bracketed, fun isList => absurd isList isText,
        splitFrom_escaped isText bracketed characters⟩
  | list items =>
      obtain ⟨notOpening, notClosing, unclosed⟩ := enclosed
      have isList : position ∈ listPositions := aligned.mpr rfl
      exact ⟨false, fun _ => rfl,
        splitFrom_list isList bracketed notOpening notClosing
          (isKept_of_unclosed (not_mem_writtenItems (by decide) (by decide) unclosed))⟩

end Fields

/-- Each content stands where a field of its kind is expected. -/
def Aligned (listPositions : List Nat) : Nat → List Content → Prop
  | _, [] => True
  | position, content :: rest =>
      (position ∈ listPositions ↔ content.kind = .list) ∧ Aligned listPositions (position + 1) rest

/-- Splitting undoes the writing of contents that stand where fields of their kinds
are expected. -/
theorem splitFrom_writtenMark {separator : Char} (notBackslash : separator ≠ '\\')
    {listPositions : List Nat} {contents : List Content} (given : contents ≠ [])
    (enclosed : ∀ content ∈ contents, content.Enclosed separator) {position : Nat}
    (aligned : Aligned listPositions position contents) (bracketed : Bool) :
    splitFrom (some separator) listPositions ⟨position, false, bracketed⟩
        (writtenMark separator contents) = contents.map Content.field := by
  induction contents generalizing position bracketed with
  | nil => exact absurd rfl given
  | cons content rest ih =>
      obtain ⟨after, closed, read⟩ :=
        splitFrom_written aligned.1 (enclosed content List.mem_cons_self) bracketed
      cases rest with
      | nil =>
          have alone := read []
          simpa [writtenMark, extendFirst, splitFrom] using alone
      | cons next rest =>
          have later := ih (List.cons_ne_nil _ _)
            (fun other member => enclosed other (List.mem_cons_of_mem _ member)) aligned.2 after
          rw [writtenMark_cons_cons, read, splitFrom_separator notBackslash closed, later]
          simp [extendFirst]

end Tracemark.OneLine
