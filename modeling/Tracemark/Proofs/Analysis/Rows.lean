import Tracemark.Proofs.Analysis.FieldBreaks
import Tracemark.Proofs.OneLine.Mark
import Tracemark.Proofs.Reference
import Tracemark.Proofs.Text.Lines
import Tracemark.Proofs.Text.Search

/-!
# Rows of marks

A mark is put in the row of its comment, counted on by the lines that stand before it in the
comment. That is its row in the file where those lines end with line feeds. Each of them that
ends with another line break puts the mark one row too far down.
-/

set_option autoImplicit false

namespace Tracemark

namespace Text

/-- A pattern is found after some lines of a text, at a column of the next line. A line feed may
follow that line. -/
def FoundAfter (text pattern : List Char) (front : List Line) (column : Nat) : Prop :=
  ∃ line back, lines text = front ++ line :: back ∧
    find? pattern (line.full ++ ['\n']) = some column

/-- The index in a text of a column of the line after some lines. -/
def indexAfter (front : List Line) (column : Nat) : Nat :=
  (front.flatMap Line.full).length + column

variable {text pattern : List Char} {front : List Line} {column : Nat}

/-- Nothing is found behind a line feed that ends the line. -/
theorem count_feed_before_found {line : Line} (unbroken : Unbroken line.body)
    (ends : line.ending.length ≤ 1) (found : find? pattern (line.full ++ ['\n']) = some column) :
    column ≤ line.full.length ∧ (line.full.take column).count '\n' = 0 := by
  have fits := find?_add_length_le found
  obtain ⟨begins, least⟩ := find?_eq_some_iff.mp found
  have patterned : 0 < column → 0 < pattern.length := fun later =>
    List.length_pos_iff.mpr fun empty => least 0 later (empty ▸ List.nil_prefix)
  rw [List.length_append, List.length_singleton] at fits
  refine ⟨by omega, List.count_eq_zero.mpr fun inside => ?_⟩
  rw [Line.full, List.take_append] at inside
  rcases List.mem_append.mp inside with inBody | inEnding
  · exact absurd (unbroken '\n' (List.mem_of_mem_take inBody)) (by decide)
  -- The line feed is the whole ending, and the pattern would be the one that is added.
  have isEnding : line.ending = ['\n'] := by
    obtain ⟨c, rest, isEnding⟩ := List.exists_cons_of_ne_nil
      (List.ne_nil_of_mem (List.mem_of_mem_take inEnding))
    obtain rfl : rest = [] := by
      rw [isEnding, List.length_cons] at ends
      exact List.eq_nil_of_length_eq_zero (by omega)
    have isFeed := List.mem_of_mem_take inEnding
    rw [isEnding, List.mem_singleton] at isFeed
    rw [isEnding, isFeed]
  have later : line.body.length < column := by
    refine Nat.lt_of_not_le fun within => ?_
    rw [Nat.sub_eq_zero_of_le within, List.take_zero] at inEnding
    cases inEnding
  have full : line.full.length = line.body.length + 1 := by
    rw [Line.full, isEnding, List.length_append, List.length_singleton]
  have isLast : column = line.full.length := by
    have := patterned (by omega)
    omega
  rw [isLast, List.drop_left] at begins
  refine least line.body.length later (begins.trans ?_)
  rw [Line.full, isEnding, List.append_assoc, List.drop_left]
  exact ⟨['\n'], rfl⟩

theorem FoundAfter.row_eq (absent : '\r' ∉ text) (found : FoundAfter text pattern front column) :
    indexAfter front column ≤ text.length ∧
      front.length = (text.take (indexAfter front column)).count '\n' +
        strayBreaks (front.flatMap Line.full) := by
  obtain ⟨line, back, divided, located⟩ := found
  have isLine : line ∈ lines text := divided ▸ List.mem_append_right _ List.mem_cons_self
  obtain ⟨within, noFeed⟩ :=
    count_feed_before_found (unbroken_body isLine) (length_ending_le absent isLine) located
  have breaks := countP_isLineBreak_front absent divided
  rw [countP_isLineBreak] at breaks
  have whole := flatMap_full_lines text
  rw [divided, List.flatMap_append, List.flatMap_cons] at whole
  constructor
  · rw [← whole, indexAfter, List.length_append, List.length_append]
    omega
  · rw [← whole, indexAfter, List.take_length_add_append, List.take_append_of_le_length within,
      List.count_append, noFeed, ← breaks]
    omega

theorem exists_front_of_mem_zipIdx {α : Type} {items : List α} {item : α} {row : Nat}
    (member : (item, row) ∈ items.zipIdx) :
    ∃ front back, items = front ++ item :: back ∧ front.length = row := by
  have there : items[row]? = some item := List.mem_zipIdx_iff_getElem?.mp member
  obtain ⟨within, isItem⟩ := List.getElem?_eq_some_iff.mp there
  refine ⟨items.take row, items.drop (row + 1), ?_, List.length_take_of_le (Nat.le_of_lt within)⟩
  rw [← isItem, List.getElem_cons_drop, List.take_append_drop]

end Text

theorem Reference.foundAfter_of_mem_scan {markers : Value} {text : List Char} {reference : Reference}
    (member : reference ∈ (scan markers text).found) :
    ∃ front column, front.length = reference.row ∧
      Text.FoundAfter text reference.marker.toList front column ∧
      reference.startColumn = column + reference.marker.toList.length := by
  obtain ⟨line, marker, isLine, made⟩ := exists_inLine_of_mem_scan member
  obtain ⟨_, isMarker, column, located, starts, _⟩ := columns_of_inLine made
  obtain ⟨front, back, divided, isRow⟩ :=
    Text.exists_front_of_mem_zipIdx (List.mem_zipIdx_iff_getElem?.mpr isLine)
  rw [isMarker, String.toList_ofList]
  refine ⟨front, column, isRow, ⟨line, back, divided, ?_⟩, starts⟩
  rw [Text.Line.full, List.append_assoc]
  exact Text.find?_append_of_some located _

namespace Analysis

/-- A line in which needs are looked for is a line of the text, and a line feed may be added. -/
theorem exists_line_of_mem_markLines {text line : List Char} {row : Nat}
    (member : (line, row) ∈ (markLines text).zipIdx) :
    ∃ own tail, (own, row) ∈ (Text.lines text).zipIdx ∧ own.full ++ ['\n'] = line ++ tail := by
  unfold markLines at member
  split at member
  · rename_i only isOnly
    cases List.mem_singleton.mp member
    exact ⟨only, [], by rw [isOnly]; exact List.mem_cons_self, (List.append_nil _).symm⟩
  · rw [List.zipIdx_map] at member
    obtain ⟨⟨own, index⟩, isOwn, same⟩ := List.mem_map.mp member
    cases same
    exact ⟨own, ['\n'], isOwn, rfl⟩

def LineReading.row : LineReading → Nat
  | .warning row _ => row
  | .need row _ => row

theorem row_of_mem_readLine {style : OneLine.Style} {row : Nat} {line : List Char}
    {reading : LineReading} (member : reading ∈ (readLine style row line).found) :
    reading.row = row := by
  unfold readLine at member
  split at member
  · cases member
  · cases member
  · cases List.mem_singleton.mp member
    rfl
  · cases List.mem_singleton.mp member
    rfl

theorem foundAfter_of_mem_readNeeds {style : OneLine.Style} {text : List Char}
    {reading : LineReading} (member : reading ∈ (readNeeds style text).found) :
    ∃ sequence front column, style.startSequence.asText = .ok sequence ∧
      front.length = reading.row ∧ Text.FoundAfter text sequence front column ∧
      ∀ need, reading.reading = .need need → need.startColumn = column + sequence.length := by
  obtain ⟨⟨line, row⟩, isLine, found⟩ := Trail.mem_along member
  obtain ⟨own, tail, isOwn, extended⟩ := exists_line_of_mem_markLines isLine
  obtain ⟨front, back, divided, isRow⟩ := Text.exists_front_of_mem_zipIdx isOwn
  obtain ⟨sequence, column, stop, outcome, starts, located, _, isReading⟩ :=
    OneLine.exists_start_of_read (read_of_mem_readLine found) (by cases reading <;> exact nofun)
  refine ⟨sequence, front, column, starts, isRow.trans (row_of_mem_readLine found).symm,
    ⟨own, back, divided, ?_⟩, fun need isNeed => ?_⟩
  · rw [extended]
    exact Text.find?_append_of_some located tail
  · rw [isReading] at isNeed
    cases outcome with
    | error cause => cases isNeed
    | ok fields =>
        cases isNeed
        rfl

/-- The row of a mark in a file: as many line feeds stand before the mark, and one row is added
for each other line break at the end of a line of the comment before it. -/
structure IsRow (source : List Char) (start : Nat) (front : List Text.Line) (column row : Nat) :
    Prop where
  counted : row = (source.take (start + Text.indexAfter front column)).count '\n' +
    Text.strayBreaks (front.flatMap Text.Line.full)
  exact_iff : row = (source.take (start + Text.indexAfter front column)).count '\n' ↔
    Text.FeedsOnly (front.flatMap Text.Line.full)

theorem isRow_of_foundAfter {text pattern : List Char} {front : List Text.Line} {column : Nat}
    (absent : '\r' ∉ text) (found : Text.FoundAfter text pattern front column)
    (before after : List Char) :
    IsRow (before ++ text ++ after) before.length front column
      (before.count '\n' + front.length) := by
  obtain ⟨within, row⟩ := found.row_eq absent
  have feeds : ((before ++ text ++ after).take
        (before.length + Text.indexAfter front column)).count '\n' =
      before.count '\n' + (text.take (Text.indexAfter front column)).count '\n' := by
    rw [List.append_assoc, List.take_length_add_append, List.take_append_of_le_length within,
      List.count_append]
  constructor
  · rw [feeds, row]
    omega
  · rw [feeds, row, ← Text.strayBreaks_eq_zero_iff]
    omega

/-! ## Comments -/

variable {settings : Settings} {place : CommentPlace} {text : List Char}

theorem mem_readNeeds_of_mem_warnings [Libraries] {kind : Kind} {warning : Warning}
    (member : warning ∈ (place.gatherKind settings text kind).warnings) :
    ∃ row, .warning row warning.cause ∈ (readNeeds settings.style text).found ∧
      warning.line = place.startRow + row + 1 := by
  cases wanted : settings.wants kind with
  | false =>
      rw [CommentPlace.gatherKind_of_unwanted wanted] at member
      cases member
  | true =>
      simp only [CommentPlace.gatherKind, wanted, if_true] at member
      have found := CommentPlace.mem_warnings_gather member
      cases kind with
      | reference =>
          obtain ⟨reference, _, made⟩ := List.mem_map.mp found
          cases made
      | need =>
          obtain ⟨reading, isRead, made⟩ := List.mem_map.mp found
          cases reading with
          | need row need => cases made
          | warning row cause =>
              cases made
              exact ⟨row, isRead, rfl⟩
      | block =>
          simp only [Settings.findings, blockFindings] at found
          split at found
          · cases found
          · cases found
          · obtain ⟨block, _, made⟩ := List.mem_map.mp found
            cases made

section

variable {linkSource : LinkSource} {language : Language} {comment : Comment} {file : Path}

theorem foundAfter_of_reference [Libraries] (searched : comment.Searched file text) {entry : Entry}
    (member : entry ∈ (extractComment settings linkSource language comment).references) :
    ∃ ids marker front column, entry.payload = .reference ids marker ∧
      Text.FoundAfter text marker.toList front column ∧
      entry.startColumn = column + marker.toList.length ∧
      entry.row = comment.startRow + front.length := by
  obtain ⟨row, _, _, found, _, isEntry⟩ := CommentPlace.exists_finding_of_mem_gatherKind
    (@Comment.Searched.mem_ofKind_extractComment _ _ _ _ _ _ _ searched .reference _ member)
  obtain ⟨reference, scanned, made⟩ := List.mem_map.mp found
  obtain ⟨front, column, length, foundAfter, startColumn⟩ := Reference.foundAfter_of_mem_scan scanned
  simp only [Finding.piece.injEq] at made
  obtain ⟨rfl, isStart, _, isPayload⟩ := made
  refine ⟨reference.ids, reference.marker, front, column, isPayload.symm, foundAfter, ?_, ?_⟩
  · rw [← isStart, startColumn]
  · rw [isEntry, length]
    rfl

theorem foundAfter_of_need [Libraries] (searched : comment.Searched file text) {entry : Entry}
    (member : entry ∈ (extractComment settings linkSource language comment).needs) :
    ∃ sequence front column, settings.style.startSequence.asText = .ok sequence ∧
      Text.FoundAfter text sequence front column ∧
      entry.startColumn = column + sequence.length ∧
      entry.row = comment.startRow + front.length := by
  obtain ⟨row, _, _, found, _, isEntry⟩ := CommentPlace.exists_finding_of_mem_gatherKind
    (@Comment.Searched.mem_ofKind_extractComment _ _ _ _ _ _ _ searched .need _ member)
  obtain ⟨reading, isRead, made⟩ := List.mem_map.mp found
  obtain ⟨sequence, front, column, starts, length, foundAfter, columns⟩ :=
    foundAfter_of_mem_readNeeds isRead
  cases reading with
  | warning row cause => cases made
  | need row need =>
      simp only [Finding.piece.injEq] at made
      obtain ⟨rfl, isStart, _, _⟩ := made
      refine ⟨sequence, front, column, starts, foundAfter, ?_, ?_⟩
      · rw [← isStart, columns need rfl]
      · rw [isEntry, length]
        rfl

theorem foundAfter_of_warning [Libraries] (searched : comment.Searched file text)
    {warning : Warning}
    (member : warning ∈ (extractComment settings linkSource language comment).warnings) :
    ∃ sequence front column, settings.style.startSequence.asText = .ok sequence ∧
      Text.FoundAfter text sequence front column ∧
      warning.line = comment.startRow + front.length + 1 := by
  obtain ⟨kind, inKind⟩ := searched.mem_warnings_extractComment member
  obtain ⟨row, isRead, isLine⟩ := mem_readNeeds_of_mem_warnings inKind
  obtain ⟨sequence, front, column, starts, length, foundAfter, _⟩ :=
    foundAfter_of_mem_readNeeds isRead
  refine ⟨sequence, front, column, starts, foundAfter, ?_⟩
  rw [isLine, length]
  rfl

end

/-- The rows of references, needs and warnings of a comment, in a file with unified line
endings. They are those of the marks in the file exactly where no line of the comment before the
mark ends with another line break than a line feed. -/
theorem rows_of_comment [Libraries] {linkSource : LinkSource} {language : Language}
    {comment : Comment}
    {raw before after : List Char} (divided : Text.unifyNewlines raw = before ++ text ++ after)
    (isText : comment.text = .ok text) (starts : comment.startRow = before.count '\n') :
    let extraction := extractComment settings linkSource language comment
    (∀ entry ∈ extraction.references, ∃ ids marker front column,
      entry.payload = .reference ids marker ∧
      Text.FoundAfter text marker.toList front column ∧
      entry.startColumn = column + marker.toList.length ∧
      IsRow (Text.unifyNewlines raw) before.length front column entry.row) ∧
    (∀ entry ∈ extraction.needs, ∃ sequence front column,
      settings.style.startSequence.asText = .ok sequence ∧
      Text.FoundAfter text sequence front column ∧
      entry.startColumn = column + sequence.length ∧
      IsRow (Text.unifyNewlines raw) before.length front column entry.row) ∧
    ∀ warning ∈ extraction.warnings, ∃ sequence front column row,
      settings.style.startSequence.asText = .ok sequence ∧
      Text.FoundAfter text sequence front column ∧
      warning.line = row + 1 ∧
      IsRow (Text.unifyNewlines raw) before.length front column row := by
  intro extraction
  have absent : '\r' ∉ text := fun isReturn => by
    refine Text.return_not_mem_unifyNewlines raw ?_
    rw [divided]
    exact List.mem_append_left _ (List.mem_append_right _ isReturn)
  have rowOf {pattern : List Char} {front : List Text.Line} {column : Nat}
      (found : Text.FoundAfter text pattern front column) :
      IsRow (Text.unifyNewlines raw) before.length front column
        (comment.startRow + front.length) := by
    rw [divided, starts]
    exact isRow_of_foundAfter absent found before after
  rcases searched_or_empty_of_text isText with ⟨file, searched⟩ | empty
  · refine ⟨fun entry member => ?_, fun entry member => ?_, fun warning member => ?_⟩
    · obtain ⟨ids, marker, front, column, payload, found, startColumn, row⟩ :=
        foundAfter_of_reference searched member
      exact ⟨ids, marker, front, column, payload, found, startColumn, row ▸ rowOf found⟩
    · obtain ⟨sequence, front, column, isSequence, found, startColumn, row⟩ :=
        foundAfter_of_need searched member
      exact ⟨sequence, front, column, isSequence, found, startColumn, row ▸ rowOf found⟩
    · obtain ⟨sequence, front, column, isSequence, found, line⟩ :=
        foundAfter_of_warning searched member
      exact ⟨sequence, front, column, _, isSequence, found, line, rowOf found⟩
  · have nothing : extraction = {} := empty settings
    rw [nothing]
    exact ⟨nofun, nofun, nofun⟩

/-- A reference and a need after a form feed, in the second and the third line of a file. They
are put in the rows of the third and the fourth. -/
theorem rows_of_comment_after_form_feed :
    let raw := "\r\n/* a\x0c@need-ids: X\r@T, I1\n*/".toList
    let text := "/* a\x0c@need-ids: X\n@T, I1\n*/".toList
    let comment : Comment :=
      ⟨⟨.mk ⟨1, "comment", 1, 3, Utf8.encode text⟩ [], [], [], []⟩, some (.ofText "/a.c")⟩
    let extraction := extractComment { wantNeeds := .bool true }
      ⟨Path.here, none, none, Path.here⟩ .cpp comment
    let source := Text.unifyNewlines raw
    extraction.references.map Entry.row = [2] ∧ extraction.needs.map Entry.row = [3] ∧
      "@need-ids:".toList <+: source.drop 6 ∧ (source.take 6).count '\n' = 1 ∧
      "@T".toList <+: source.drop 19 ∧ (source.take 19).count '\n' = 2 ∧
      ∀ entry ∈ extraction.references ++ extraction.needs, ∃ pattern front column,
        Text.FoundAfter text pattern front column ∧ IsRow source 1 front column entry.row := by
  intro raw text comment extraction source
  have divided : Text.unifyNewlines raw = ['\n'] ++ text ++ [] := by decide +kernel
  have isText : comment.text = .ok text := rfl
  obtain ⟨references, needs, _⟩ := @rows_of_comment { wantNeeds := .bool true } text _
    ⟨Path.here, none, none, Path.here⟩ .cpp comment raw ['\n'] [] divided isText rfl
  refine ⟨by decide +kernel, by decide +kernel, by decide +kernel, by decide +kernel,
    by decide +kernel, by decide +kernel, List.forall_mem_append.mpr ⟨?_, ?_⟩⟩
  · intro entry member
    obtain ⟨_, marker, front, column, _, found, _, row⟩ := references entry member
    exact ⟨marker.toList, front, column, found, row⟩
  · intro entry member
    obtain ⟨sequence, front, column, _, found, _, row⟩ := needs entry member
    exact ⟨sequence, front, column, found, row⟩

end Analysis

end Tracemark
