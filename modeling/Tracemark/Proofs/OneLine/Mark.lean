import Tracemark.OneLine.Reading
import Tracemark.Proofs.Result

/-!
# Marks in lines

A line is read in two steps: the mark between the two sequences is located, and the
mark is read. The second step sees nothing of the line but the mark.
-/

set_option autoImplicit false

namespace Tracemark.OneLine

/-- Reads fields from the texts that are given for them, if there are neither too few
nor too many. -/
def readTexts (objects : List Members) (given : List (List Char)) :
    Except Fault (Except Warning (Table Value)) :=
  let least := (objects.filter Style.isRequired).length
  if given.length < least then .ok (.error (.tooFewFields given.length least))
  else if objects.length < given.length then
    .ok (.error (.tooManyFields given.length objects.length))
  else readFields objects given []

namespace Style

def given (style : Style) (objects : List Members) (mark : List Char) : List (List Char) :=
  let separator :=
    match style.separator with
    | .text characters => separatorOf? characters.toList
    | _ => none
  (split separator (listPositionsOf objects) (Text.trim mark)).map Text.trimSpaces

def readMark (style : Style) (mark : List Char) : Except Fault (Except Warning (Table Value)) := do
  let objects ← style.fieldMembers
  readTexts objects (style.given objects mark)

end Style

/-- Blank space at the ends of a mark does not matter. -/
theorem Style.readMark_of_trim_eq (style : Style) {mark other : List Char}
    (same : Text.trim mark = Text.trim other) : style.readMark mark = style.readMark other := by
  simp only [readMark, given, same]

def readingBetween (begin stop : Nat) : Except Warning (Table Value) → Reading
  | .error cause => .warning cause
  | .ok found => .need ⟨withoutColumns found, begin, stop⟩

theorem map_readTexts (objects : List Members) (given : List (List Char)) (begin stop : Nat) :
    (readTexts objects given).map (readingBetween begin stop) =
      let least := (objects.filter Style.isRequired).length
      if given.length < least then .ok (.warning (.tooFewFields given.length least))
      else if objects.length < given.length then
        .ok (.warning (.tooManyFields given.length objects.length))
      else do
        match ← readFields objects given [] with
        | .error cause => return .warning cause
        | .ok found => return .need ⟨withoutColumns found, begin, stop⟩ := by
  simp only [readTexts]
  split
  · rfl
  · split
    · rfl
    · cases readFields objects given [] with
      | error fault => rfl
      | ok outcome => cases outcome <;> rfl

variable {style : Style} {line : List Char}

/-- A line in which both sequences occur is read as its mark is. -/
theorem read_of_located {startSequence endSequence : List Char} {start stop : Nat}
    (starts : style.startSequence.asText = .ok startSequence)
    (ends : style.endSequence.asText = .ok endSequence)
    (located : Text.find? startSequence line = some start)
    (ended : Text.findLast? endSequence line = some stop) :
    read style line =
      (style.readMark (Text.slice (start + startSequence.length) stop line)).map
        (readingBetween (start + startSequence.length) stop) := by
  simp only [read, starts, ends, bind, Except.bind, located, ended, Style.readMark]
  cases style.fieldMembers with
  | error fault => rfl
  | ok objects => exact (map_readTexts _ _ _ _).symm

/-- A line without one of the sequences is read as nothing. -/
theorem read_of_not_located {startSequence endSequence : List Char}
    (starts : style.startSequence.asText = .ok startSequence)
    (ends : style.endSequence.asText = .ok endSequence)
    (missing : Text.find? startSequence line = none ∨ Text.findLast? endSequence line = none) :
    read style line = .ok .nothing := by
  simp only [read, starts, ends, bind, Except.bind]
  rcases missing with noStart | noStop
  · rw [noStart]
    rfl
  · rw [noStop]
    cases Text.find? startSequence line <;> rfl

/-- A line that is read as something has a mark after its start sequence, and is read as its
mark is. -/
theorem exists_start_of_read {reading : Reading} (isRead : read style line = .ok reading)
    (some : reading ≠ .nothing) :
    ∃ startSequence start stop outcome, style.startSequence.asText = .ok startSequence ∧
      Text.find? startSequence line = .some start ∧
      style.readMark (Text.slice (start + startSequence.length) stop line) = .ok outcome ∧
      reading = readingBetween (start + startSequence.length) stop outcome := by
  cases starts : style.startSequence.asText with
  | error fault =>
      simp only [read, starts] at isRead
      cases isRead
  | ok startSequence =>
      cases ends : style.endSequence.asText with
      | error fault =>
          simp only [read, starts, ends] at isRead
          cases isRead
      | ok endSequence =>
          cases located : Text.find? startSequence line with
          | none =>
              rw [read_of_not_located starts ends (.inl located)] at isRead
              exact absurd (Except.ok.inj isRead).symm some
          | some start =>
              cases ended : Text.findLast? endSequence line with
              | none =>
                  rw [read_of_not_located starts ends (.inr ended)] at isRead
                  exact absurd (Except.ok.inj isRead).symm some
              | some stop =>
                  rw [read_of_located starts ends located ended, Result.map_eq_ok_iff] at isRead
                  obtain ⟨outcome, readsMark, rfl⟩ := isRead
                  exact ⟨startSequence, start, stop, outcome, rfl, located, readsMark, rfl⟩

theorem exists_mark_of_read {reading : Reading} (isRead : read style line = .ok reading)
    (some : reading ≠ .nothing) :
    ∃ begin stop outcome, style.readMark (Text.slice begin stop line) = .ok outcome ∧
      reading = readingBetween begin stop outcome := by
  obtain ⟨startSequence, start, stop, outcome, _, _, readsMark, isReading⟩ :=
    exists_start_of_read isRead some
  exact ⟨start + startSequence.length, stop, outcome, readsMark, isReading⟩

end Tracemark.OneLine
