import Tracemark.Analysis.Extraction
import Tracemark.Proofs.OneLine.Mark
import Tracemark.Proofs.Text.Lines
import Tracemark.Proofs.Text.Search
import Tracemark.Proofs.Trail

/-!
# Lines of a comment are read one by one

Where marks end with a line feed, each line of a comment but the last is read as it would be
in a comment of its own. The last line of several has no line feed, and none is added: what
is marked there is not read.
-/

set_option autoImplicit false

namespace Tracemark

namespace OneLine

/-- A style whose marks begin within a line and end with it. -/
structure Style.EndsWithLine (style : Style) (startSequence : List Char) : Prop where
  start : style.startSequence.asText = .ok startSequence
  stop : style.endSequence.asText = .ok ['\n']
  some : startSequence ≠ []
  within : '\n' ∉ startSequence

namespace Style.EndsWithLine

variable {style : Style} {startSequence : List Char}

theorem read_of_feed_not_mem (ends : style.EndsWithLine startSequence) {line : List Char}
    (unended : '\n' ∉ line) : read style line = .ok .nothing := by
  refine read_of_not_located ends.start ends.stop (.inr (Text.findLast?_eq_none_iff.mpr ?_))
  exact fun inside => unended (inside.subset List.mem_cons_self)

theorem find?_append (ends : style.EndsWithLine startSequence) (line : List Char) {tail : List Char}
    (feeds : ∀ c ∈ tail, c = '\n') :
    Text.find? startSequence (line ++ tail) = Text.find? startSequence line :=
  Text.find?_append_of_disjoint ends.some fun c inStart inTail =>
    ends.within (feeds c inTail ▸ inStart)

theorem read_feed (ends : style.EndsWithLine startSequence) :
    read style ['\n'] = .ok .nothing := by
  have notLocated := ends.find?_append [] (show ∀ c ∈ ['\n'], c = '\n' by simp)
  refine read_of_not_located ends.start ends.stop (.inl (notLocated.trans ?_))
  simp [Text.find?, ends.some]

end Style.EndsWithLine

end OneLine

namespace Analysis

/-- A reading that is so many rows further down, and ends so many columns further right. -/
def LineReading.moved (rows columns : Nat) : LineReading → LineReading
  | .warning row cause => .warning (row + rows) cause
  | .need row found =>
      .need (row + rows) { found with endColumn := found.endColumn + columns }

theorem LineReading.moved_zero : LineReading.moved 0 0 = id := by
  funext reading
  cases reading <;> rfl

variable {style : OneLine.Style} {startSequence : List Char}

theorem readLine_eq_moved (style : OneLine.Style) (row : Nat) (line : List Char) :
    readLine style row line = (readLine style 0 line).map (.moved row 0) := by
  unfold readLine
  cases OneLine.read style line with
  | error fault => rfl
  | ok reading => cases reading <;> simp [Trail.map, LineReading.moved]

theorem readLine_of_nothing {line : List Char} (nothing : OneLine.read style line = .ok .nothing)
    (row : Nat) : readLine style row line = {} := by
  simp only [readLine, nothing]

/-- A comment of one line is read with a line feed at its end. -/
theorem readNeeds_of_unbroken {line : List Char} (unbroken : Text.Unbroken line) (some : line ≠ []) :
    readNeeds style line = readLine style 0 (line ++ ['\n']) := by
  have only : markLines line = [line ++ ['\n']] := by
    simp [markLines, Text.lines_of_unbroken unbroken some, Text.Line.full]
  simp only [readNeeds, only, List.zipIdx_singleton, Trail.along_singleton]

/-- The lines of a comment, each read in a comment of its own, one after the other. -/
def lineByLine (style : OneLine.Style) (lines : List (List Char)) : Trail LineReading :=
  Trail.along (fun (line, row) => (readNeeds style line).map (.moved row 0)) lines.zipIdx

theorem lineByLine_singleton (style : OneLine.Style) (line : List Char) :
    lineByLine style [line] = readNeeds style line := by
  simp only [lineByLine, List.zipIdx_singleton, Trail.along_singleton, LineReading.moved_zero,
    Trail.map_id]

theorem lineByLine_concat (style : OneLine.Style) (front : List (List Char)) (last : List Char) :
    lineByLine style (front ++ [last]) =
      (lineByLine style front).followedBy fun _ =>
        (readNeeds style last).map (.moved front.length 0) := by
  simp only [lineByLine, List.zipIdx_append, Trail.along_append, List.zipIdx_singleton,
    Trail.along_singleton, Nat.zero_add]

theorem readLine_append_feed (ends : style.EndsWithLine startSequence) {line : List Char}
    (unbroken : Text.Unbroken line) (row : Nat) :
    readLine style row (line ++ ['\n']) = (readNeeds style line).map (.moved row 0) := by
  cases line with
  | nil => exact readLine_of_nothing ends.read_feed row
  | cons c rest =>
      rw [readLine_eq_moved, readNeeds_of_unbroken unbroken (List.cons_ne_nil c rest)]

theorem along_append_feed (ends : style.EndsWithLine startSequence) {front : List (List Char)}
    (unbroken : ∀ line ∈ front, Text.Unbroken line) (row : Nat) :
    Trail.along (fun (line, row) => readLine style row line) ((front.map (· ++ ['\n'])).zipIdx row) =
      Trail.along (fun (line, row) => (readNeeds style line).map (.moved row 0))
        (front.zipIdx row) := by
  induction front generalizing row with
  | nil => rfl
  | cons line front ih =>
      obtain ⟨first, others⟩ := List.forall_mem_cons.mp unbroken
      simp only [List.map_cons, List.zipIdx_cons, Trail.along, readLine_append_feed ends first,
        ih others]

/-- A second line feed after a line moves the end of a need by one column and changes
nothing else. -/
theorem readLine_append_feeds (ends : style.EndsWithLine startSequence) (line : List Char) :
    readLine style 0 (line ++ ['\n', '\n']) =
      (readLine style 0 (line ++ ['\n'])).map (.moved 0 1) := by
  have once := ends.find?_append line (show ∀ c ∈ ['\n'], c = '\n' by simp)
  have twice := ends.find?_append line (show ∀ c ∈ ['\n', '\n'], c = '\n' by simp)
  cases located : Text.find? startSequence line with
  | none =>
      have notOnce := OneLine.read_of_not_located ends.start ends.stop (.inl (once.trans located))
      have notTwice := OneLine.read_of_not_located ends.start ends.stop (.inl (twice.trans located))
      rw [readLine_of_nothing notOnce, readLine_of_nothing notTwice]
      rfl
  | some start =>
      have inside : start + startSequence.length ≤ line.length := by
        obtain ⟨begins, _⟩ := Text.find?_eq_some_iff.mp located
        have fits := begins.length_le
        have some := List.length_pos_iff.mpr ends.some
        rw [List.length_drop] at fits
        omega
      have endOnce : Text.findLast? ['\n'] (line ++ ['\n']) = some line.length :=
        Text.findLast?_append_self
      have endTwice : Text.findLast? ['\n'] (line ++ ['\n', '\n']) = some (line.length + 1) := by
        have atEnd := @Text.findLast?_append_self ['\n'] (line ++ ['\n'])
        simpa using atEnd
      have markOnce : Text.slice (start + startSequence.length) line.length (line ++ ['\n']) =
          line.drop (start + startSequence.length) := by
        rw [Text.slice, List.take_left]
      have markTwice : Text.slice (start + startSequence.length) (line.length + 1)
          (line ++ ['\n', '\n']) = line.drop (start + startSequence.length) ++ ['\n'] := by
        rw [Text.slice, List.take_length_add_append, ← List.drop_append_of_le_length inside]
        rfl
      have sameMark := style.readMark_of_trim_eq
        (Text.trimBy_append (line.drop (start + startSequence.length))
          (List.forall_mem_singleton.mpr (by decide : Text.isBlank '\n' = true)))
      have readOnce := OneLine.read_of_located ends.start ends.stop (once.trans located) endOnce
      have readTwice := OneLine.read_of_located ends.start ends.stop (twice.trans located) endTwice
      rw [markOnce] at readOnce
      rw [markTwice, sameMark] at readTwice
      simp only [readLine, readOnce, readTwice]
      cases style.readMark (line.drop (start + startSequence.length)) with
      | error fault => rfl
      | ok outcome => cases outcome <;> rfl

/-! ## Comments of several lines -/

theorem markLines_of_length_ne {text : List Char} (several : (Text.lines text).length ≠ 1) :
    markLines text = (Text.lines text).map Text.Line.full := by
  unfold markLines
  split
  · rename_i only isOnly
    rw [isOnly] at several
    exact absurd rfl several
  · rfl

variable {front : List (List Char)} {last : List Char}

/-- All lines but the last are read with a line feed at their end. -/
theorem markLines_of_several (unbroken : ∀ line ∈ front ++ [last], Text.Unbroken line)
    (some : front ≠ []) (several : ¬ (front.length = 1 ∧ last = [])) :
    ∃ rest, markLines (['\n'].intercalate (front ++ [last])) = front.map (· ++ ['\n']) ++ rest ∧
      ∀ line ∈ rest, line = last := by
  obtain ⟨inFront, atEnd⟩ := List.forall_mem_append.mp unbroken
  have divided := Text.lines_flatMap_feed inFront last
  rw [← Text.intercalate_feed_concat] at divided
  refine ⟨(Text.lines last).map Text.Line.full, ?_, ?_⟩
  · have count : (Text.lines (['\n'].intercalate (front ++ [last]))).length ≠ 1 := by
      have frontSome := List.length_pos_iff.mpr some
      rw [divided, List.length_append, List.length_map]
      intro one
      have noMore : (Text.lines last).length = 0 := by omega
      exact several ⟨by omega, Text.lines_eq_nil_iff.mp (List.eq_nil_of_length_eq_zero noMore)⟩
    rw [markLines_of_length_ne count, divided, List.map_append]
    simp [Text.Line.full]
  · intro line member
    by_cases empty : last = []
    · rw [Text.lines_eq_nil_iff.mpr empty] at member
      cases member
    · rw [Text.lines_of_unbroken (atEnd last List.mem_cons_self) empty] at member
      simpa [Text.Line.full] using member

theorem markLines_of_ended {line : List Char} (unbroken : Text.Unbroken line) :
    markLines (line ++ ['\n']) = [line ++ ['\n', '\n']] := by
  have only := Text.lines_append_feed unbroken []
  simp only [markLines, only, Text.lines, Text.Line.full, List.append_assoc, List.singleton_append]

theorem readNeeds_append_feed (ends : style.EndsWithLine startSequence) {line : List Char}
    (unbroken : Text.Unbroken line) :
    readNeeds style (line ++ ['\n']) = (readNeeds style line).map (.moved 0 1) := by
  simp only [readNeeds, markLines_of_ended unbroken, List.zipIdx_singleton, Trail.along_singleton]
  rw [readLine_append_feeds ends, readLine_append_feed ends unbroken, LineReading.moved_zero,
    Trail.map_id]
  rfl

theorem readNeeds_of_several (ends : style.EndsWithLine startSequence)
    (unbroken : ∀ line ∈ front ++ [last], Text.Unbroken line) (some : front ≠ [])
    (several : ¬ (front.length = 1 ∧ last = [])) :
    readNeeds style (['\n'].intercalate (front ++ [last])) = lineByLine style front := by
  obtain ⟨inFront, atEnd⟩ := List.forall_mem_append.mp unbroken
  obtain ⟨rest, divided, areLast⟩ := markLines_of_several unbroken some several
  have feedless : '\n' ∉ last := fun member =>
    absurd (atEnd last List.mem_cons_self '\n' member) (by decide)
  have unread : Trail.along (fun (line, row) => readLine style row line)
      (rest.zipIdx (0 + (front.map (· ++ ['\n'])).length)) = {} := by
    apply Trail.along_eq_empty
    intro line member
    apply readLine_of_nothing
    rw [areLast line.1 (List.fst_mem_of_mem_zipIdx member)]
    exact ends.read_of_feed_not_mem feedless
  rw [readNeeds, divided, List.zipIdx_append, Trail.along_append, unread, Trail.followedBy_empty,
    along_append_feed ends inFront 0]
  rfl

/-- The lines of a comment that end with a line feed are read one by one, as in comments of
their own, and the last line is not read unless it is the only one. So all lines are read one
by one exactly when a last line that is not empty holds nothing to be read. Where the only line
feed is the last character of the comment, needs end one column further right. -/
theorem readNeeds_intercalate (ends : style.EndsWithLine startSequence)
    (unbroken : ∀ line ∈ front ++ [last], Text.Unbroken line) :
    (front = [] → readNeeds style (['\n'].intercalate (front ++ [last])) =
      lineByLine style (front ++ [last])) ∧
    (front ≠ [] → readNeeds style (['\n'].intercalate (front ++ [last])) =
      if front.length = 1 ∧ last = [] then (lineByLine style front).map (.moved 0 1)
      else lineByLine style front) ∧
    (front ≠ [] → last ≠ [] → (lineByLine style front).fault = none →
      (readNeeds style (['\n'].intercalate (front ++ [last])) = lineByLine style (front ++ [last]) ↔
        readNeeds style last = {})) := by
  obtain ⟨inFront, _⟩ := List.forall_mem_append.mp unbroken
  refine ⟨?_, fun some => ?_, fun some notEmpty sound => ?_⟩
  · rintro rfl
    simp [lineByLine_singleton]
  · split
    · rename_i ended
      obtain ⟨isOne, rfl⟩ := ended
      obtain ⟨line, rfl⟩ := List.length_eq_one_iff.mp isOne
      have first := inFront line List.mem_cons_self
      rw [lineByLine_singleton, Text.intercalate_feed_concat]
      simpa using readNeeds_append_feed ends first
    · rename_i several
      exact readNeeds_of_several ends unbroken some several
  · rw [readNeeds_of_several ends unbroken some fun ended => notEmpty ended.2, lineByLine_concat,
      eq_comm, Trail.followedBy_eq_self_iff sound, Trail.map_eq_empty_iff]

/-- A mark in the last of two lines is not read, though it is in a comment of its own. -/
theorem readNeeds_intercalate_mark_at_end :
    let opening := "/* a".toList
    let marked := "@T, ID_1 */".toList
    "/* a\n@T, ID_1 */".toList = ['\n'].intercalate ([opening] ++ [marked]) ∧
      readNeeds OneLine.Style.standard "/* a\n@T, ID_1 */".toList = {} ∧
      ((readNeeds OneLine.Style.standard marked).found.map fun reading =>
        match reading with
        | .warning row _ => (row, 0, 0)
        | .need row need => (row, need.startColumn, need.endColumn)) = [(0, 1, 11)] ∧
      readNeeds OneLine.Style.standard (['\n'].intercalate ([opening] ++ [marked])) ≠
        lineByLine OneLine.Style.standard ([opening] ++ [marked]) := by
  intro opening marked
  have ends : OneLine.Style.standard.EndsWithLine ['@'] := ⟨rfl, rfl, by decide, by decide⟩
  obtain ⟨-, others, byLines⟩ := @readNeeds_intercalate _ _ [opening] marked ends (by decide +kernel)
  have written : "/* a\n@T, ID_1 */".toList = ['\n'].intercalate ([opening] ++ [marked]) := by
    decide +kernel
  have nothing : lineByLine OneLine.Style.standard [opening] = {} := rfl
  have notEmpty : marked ≠ [] := by decide +kernel
  refine ⟨written, ?_, by decide +kernel, ?_⟩
  · rw [written, others (by simp), if_neg fun ended => notEmpty ended.2, nothing]
  · rw [Ne, byLines (by simp) notEmpty (congrArg Trail.fault nothing)]
    intro unread
    have found : (readNeeds OneLine.Style.standard marked).found.length = 1 := by decide +kernel
    rw [unread] at found
    cases found

end Analysis

end Tracemark
