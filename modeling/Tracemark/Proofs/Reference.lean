import Mathlib.Data.List.DropRight
import Tracemark.Proofs.Text.Lines
import Tracemark.Proofs.Text.Search
import Tracemark.Proofs.Text.Words
import Tracemark.Proofs.Trail
import Tracemark.Reference

/-!
# Ids and columns of references

The ids of a reference are what commas and blank space divide in the text after its marker.
Its columns begin directly after the marker but are as far apart as the text is long without
the blank space around it. So they are too far to the left by the blank space that follows
the marker, and lose as much at the end of the text.
-/

set_option autoImplicit false

namespace Tracemark.Reference

/-! ## Ids -/

/-- Ids are divided by commas and blank space. -/
def isDivider (c : Char) : Bool :=
  Text.isBlank c || c == ','

def dividedIds (text : List Char) : List String :=
  ((text.splitOnP isDivider).filter (!·.isEmpty)).map String.ofList

theorem splitOnP_replaceChar (text : List Char) :
    (Text.replaceChar ',' [' '] text).splitOnP Text.isBlank = text.splitOnP isDivider := by
  induction text with
  | nil => rfl
  | cons c rest ih =>
      have replaced : Text.replaceChar ',' [' '] (c :: rest) =
          (if c == ',' then ' ' else c) :: Text.replaceChar ',' [' '] rest := by
        rw [Text.replaceChar, List.flatMap_cons]
        split <;> rfl
      rw [replaced, List.splitOnP_cons_eq_if_modifyHead, List.splitOnP_cons_eq_if_modifyHead, ih]
      by_cases comma : c = ','
      · have blank : Text.isBlank ' ' = true := rfl
        simp [comma, isDivider, blank]
      · simp [comma, isDivider]

theorem idsIn_eq_runsOutside (text : List Char) :
    idsIn text = Text.runsOutside isDivider text := by
  rw [idsIn, Text.words, Text.runsOutside_eq_filter_splitOnP, splitOnP_replaceChar,
    Text.runsOutside_eq_filter_splitOnP]

theorem dividedIds_eq (text : List Char) :
    dividedIds text = (Text.runsOutside isDivider text).map String.ofList := by
  rw [dividedIds, Text.runsOutside_eq_filter_splitOnP]

theorem isDivider_of_isBlank (c : Char) (blank : Text.isBlank c = true) : isDivider c = true := by
  rw [isDivider, blank, Bool.true_or]

theorem idsIn_trim (text : List Char) : idsIn (Text.trim text) = idsIn text := by
  rw [idsIn_eq_runsOutside, idsIn_eq_runsOutside, Text.trim,
    Text.runsOutside_trimBy isDivider_of_isBlank]

theorem dividedIds_append_eq_left_iff {left right : List Char} :
    dividedIds (left ++ right) = dividedIds left ↔ ∀ c ∈ right, isDivider c = true := by
  rw [dividedIds_eq, dividedIds_eq, List.map_inj_right fun _ _ => String.ofList_injective,
    Text.runsOutside_append_eq_left_iff]

theorem dividedIds_append {right : List Char} (begins : ∀ c ∈ right.head?, isDivider c = true)
    (left : List Char) : dividedIds (left ++ right) = dividedIds left ++ dividedIds right := by
  rw [dividedIds_eq, dividedIds_eq, dividedIds_eq, Text.runsOutside_append begins, List.map_append]

theorem dividedIds_cons {c : Char} (divides : isDivider c = true) (text : List Char) :
    dividedIds (c :: text) = dividedIds text := by
  rw [dividedIds_eq, Text.runsOutside_cons divides, dividedIds_eq]

theorem dividedIds_separated (left right : List Char) :
    dividedIds (left ++ (", ".toList ++ right)) = dividedIds left ++ dividedIds right := by
  have begins : ∀ c ∈ (',' :: ' ' :: right).head?, isDivider c = true := by
    simp [isDivider]
  calc dividedIds (left ++ (", ".toList ++ right))
      = dividedIds left ++ dividedIds (',' :: ' ' :: right) := dividedIds_append begins left
    _ = dividedIds left ++ dividedIds right := by rw [dividedIds_cons rfl, dividedIds_cons rfl]

/-- An id is not empty and holds no divider. -/
def IsId (id : String) : Prop :=
  id.toList ≠ [] ∧ ∀ c ∈ id.toList, isDivider c = false

instance (id : String) : Decidable (IsId id) :=
  @instDecidableAnd _ _ inferInstance (List.decidableBAll _ _)

theorem dividedIds_of_isId {id : String} (isId : IsId id) : dividedIds id.toList = [id] := by
  rw [dividedIds_eq, Text.runsOutside_of_within isId.1 isId.2, List.map_singleton,
    String.ofList_toList]

/-- Ids are read as they were written. -/
theorem dividedIds_intercalate {ids : List String} (areIds : ∀ id ∈ ids, IsId id) :
    dividedIds (", ".intercalate ids).toList = ids := by
  rw [String.toList_intercalate]
  induction ids with
  | nil => rfl
  | cons id rest ih =>
      obtain ⟨first, others⟩ := List.forall_mem_cons.mp areIds
      cases rest with
      | nil => simpa using dividedIds_of_isId first
      | cons next rest =>
          rw [List.map_cons, List.map_cons, List.intercalate_cons_cons, List.append_assoc,
            ← List.map_cons, dividedIds_separated, dividedIds_of_isId first, ih others]
          rfl

/-! ## Columns -/

/-- The blank space between the marker of a reference and the text after it. -/
def gap (reference : Reference) (line : List Char) : Nat :=
  ((line.drop reference.startColumn).takeWhile Text.isBlank).length

def writtenIn (reference : Reference) (line : List Char) : List Char :=
  Text.trim (line.drop reference.startColumn)

theorem columns_of_inLine {marker : List Char} {row : Nat} {line : List Char}
    {reference : Reference} (made : inLine? marker row line = some reference) :
    reference.row = row ∧ reference.marker = String.ofList marker ∧
      ∃ column, Text.find? marker line = some column ∧
        reference.startColumn = column + marker.length ∧
        reference.endColumn = reference.startColumn + (reference.writtenIn line).length ∧
        reference.ids = (idsIn (reference.writtenIn line)).map String.ofList := by
  obtain ⟨column, located, rfl⟩ := Option.map_eq_some_iff.mp made
  exact ⟨rfl, rfl, column, located, rfl, rfl, rfl⟩

theorem ids_of_inLine {marker : List Char} {row : Nat} {line : List Char} {reference : Reference}
    (made : inLine? marker row line = some reference) :
    reference.ids = dividedIds (line.drop reference.startColumn) := by
  obtain ⟨_, _, _, _, _, _, ids⟩ := columns_of_inLine made
  rw [ids, writtenIn, idsIn_trim, dividedIds_eq, idsIn_eq_runsOutside]

theorem exists_inLine_of_mem_scan {markers : Value} {text : List Char} {reference : Reference}
    (member : reference ∈ (scan markers text).found) :
    ∃ line marker, (Text.lines text)[reference.row]? = some line ∧
      inLine? marker reference.row line.body = some reference := by
  obtain ⟨⟨line, row⟩, isLine, inLine⟩ := Trail.mem_along member
  simp only [ofLine] at inLine
  split at inLine
  · cases inLine
  obtain ⟨value, _, withValue⟩ := Trail.mem_along inLine
  simp only [withMarker] at withValue
  split at withValue
  · cases withValue
  rename_i marker _
  have made := Option.mem_toList.mp withValue
  obtain rfl := (columns_of_inLine made).1
  exact ⟨line, marker, List.mem_zipIdx_iff_getElem?.mp isLine, made⟩

/-- How a reference stands in its line: its marker ends where its columns begin, its text is
between the columns moved by the gap, and its ids are between the columns themselves exactly
where the text ends with as many dividers as the gap is wide. -/
structure IsPlaced (reference : Reference) (line : List Char) : Prop where
  marked : ∃ column, Text.find? reference.marker.toList line = some column ∧
    reference.startColumn = column + reference.marker.toList.length
  text : Text.slice (reference.startColumn + reference.gap line)
    (reference.endColumn + reference.gap line) line = reference.writtenIn line
  ids : reference.ids = dividedIds (reference.writtenIn line)
  exact_iff : dividedIds (Text.slice reference.startColumn reference.endColumn line) =
      reference.ids ↔
    ∀ c ∈ (reference.writtenIn line).rtake (reference.gap line), isDivider c = true

/-- A part as long as the inner one that begins with what stands before it loses as much of
the inner part at its end. -/
theorem forall_mem_drop_iff {lead inner tail : List Char} (before : ∀ c ∈ lead, isDivider c = true)
    (behind : ∀ c ∈ tail, isDivider c = true) :
    (∀ c ∈ (lead ++ (inner ++ tail)).drop inner.length, isDivider c = true) ↔
      ∀ c ∈ inner.rtake lead.length, isDivider c = true := by
  rw [List.drop_append, List.drop_append, List.rtake, List.forall_mem_append,
    List.forall_mem_append]
  constructor
  · intro divided
    exact divided.2.1
  · intro divided
    refine ⟨?_, divided, ?_⟩
    · intro c member
      exact before c (List.mem_of_mem_drop member)
    · intro c member
      exact behind c (List.mem_of_mem_drop member)

/-- Only blank space stands around the text of a reference in the rest of its line. -/
theorem exists_around (reference : Reference) (line : List Char) :
    ∃ lead tail, line.drop reference.startColumn = lead ++ (reference.writtenIn line ++ tail) ∧
      lead.length = reference.gap line ∧ (∀ c ∈ lead, isDivider c = true) ∧
      ∀ c ∈ tail, isDivider c = true := by
  obtain ⟨tail, divided, isTail⟩ :=
    Text.exists_tail_of_trimBy Text.isBlank (line.drop reference.startColumn)
  refine ⟨_, tail, divided, rfl, ?_, ?_⟩
  · intro c member
    exact isDivider_of_isBlank c (List.mem_takeWhile_imp member)
  · intro c member
    exact isDivider_of_isBlank c (isTail c member)

theorem isPlaced_of_inLine {marker : List Char} {row : Nat} {line : List Char}
    {reference : Reference} (made : inLine? marker row line = some reference) :
    reference.IsPlaced line := by
  obtain ⟨_, isMarker, column, located, starts, ends, ids⟩ := columns_of_inLine made
  obtain ⟨lead, tail, around, isGap, before, behind⟩ := exists_around reference line
  constructor
  · exact ⟨column, by rw [isMarker, String.toList_ofList, located],
      by rw [isMarker, String.toList_ofList, starts]⟩
  · rw [ends, Nat.add_right_comm, Text.slice_add, ← List.drop_drop, around, ← isGap,
      List.drop_left, List.take_left]
  · rw [ids, dividedIds_eq, idsIn_eq_runsOutside]
  · rw [ends, Text.slice_add, ids_of_inLine made, ← isGap, ← forall_mem_drop_iff before behind,
      ← around, ← dividedIds_append_eq_left_iff, List.take_append_drop, eq_comm]

theorem scan_of_unbroken {text : List Char} (unbroken : Text.Unbroken text) (some : text ≠ [])
    (marker : String) :
    scan (.list [.text marker]) text = { found := (inLine? marker.toList 0 text).toList } := by
  rw [scan, Text.lines_of_unbroken unbroken some, List.zipIdx_singleton, Trail.along_singleton]
  exact Trail.along_singleton _ _

/-- A marker with a line break is in no line. -/
theorem scan_of_broken {marker : String} (broken : ¬ Text.Unbroken marker.toList)
    (text : List Char) : scan (.list [.text marker]) text = {} := by
  apply Trail.along_eq_empty
  intro line member
  have unbroken := Text.unbroken_body (List.fst_mem_of_mem_zipIdx member)
  have absent : Text.find? marker.toList line.1.body = none := by
    apply Text.find?_eq_none_iff.mpr
    intro inside
    exact broken (unbroken.of_subset inside.subset)
  apply Trail.along_eq_empty
  intro value isValue
  rw [List.mem_singleton.mp isValue]
  simp [withMarker, Value.asText, inLine?, absent]

/-- Every reference that is found in a comment stands in the line of its row. -/
theorem ids_between_columns {markers : Value} {text : List Char} {reference : Reference}
    (member : reference ∈ (scan markers text).found) :
    ∃ line, (Text.lines text)[reference.row]? = some line ∧ reference.IsPlaced line.body := by
  obtain ⟨line, marker, isLine, made⟩ := exists_inLine_of_mem_scan member
  exact ⟨line, isLine, isPlaced_of_inLine made⟩

/-- After two blanks the columns lose the last id and the blank before it. -/
theorem ids_between_columns_after_blanks :
    let text := "/* a\n@need-ids:  A, B".toList
    let line := "@need-ids:  A, B".toList
    let reference : Reference := ⟨"@need-ids:", ["A", "B"], 1, 10, 14⟩
    reference ∈ (scan (.list [.text "@need-ids:"]) text).found ∧ reference.IsPlaced line ∧
      dividedIds (Text.slice 10 14 line) = ["A"] ∧
      dividedIds (Text.slice 12 16 line) = reference.ids := by
  intro text line reference
  have member : reference ∈ (scan (.list [.text "@need-ids:"]) text).found := by decide +kernel
  have isLine : (Text.lines text)[reference.row]? = some ⟨line, []⟩ := by decide +kernel
  obtain ⟨own, isOwn, placed⟩ := ids_between_columns member
  obtain rfl := Option.some.inj (isLine.symm.trans isOwn)
  exact ⟨member, placed, by decide +kernel, by decide +kernel⟩

end Tracemark.Reference
