import Tracemark.Libraries.Reference
import Tracemark.Proofs.Analysis.Extraction
import Tracemark.Proofs.OneLine.Unbroken
import Tracemark.Proofs.Trail

/-!
# Needs of a comment are without line breaks

A comment is read line by line, and line breaks stand at the ends of its lines only, also
where a line feed is added. So no value of a need that was given in the comment holds a
line break, and no mark is refused for holding one.
-/

set_option autoImplicit false

namespace Tracemark.Analysis

theorem breaksAtEnd_of_mem_markLines {text line : List Char} (member : line ∈ markLines text) :
    Text.BreaksAtEnd line := by
  unfold markLines at member
  split at member
  · rename_i only isOnly
    cases List.mem_singleton.mp member
    have isLine : only ∈ Text.lines text := isOnly ▸ List.mem_cons_self
    exact (Text.breaksAtEnd_full isLine).append (List.forall_mem_singleton.mpr rfl)
  · obtain ⟨own, isLine, rfl⟩ := List.mem_map.mp member
    exact Text.breaksAtEnd_full isLine

def LineReading.reading : LineReading → OneLine.Reading
  | .warning _ cause => .warning cause
  | .need _ found => .need found

theorem read_of_mem_readLine {style : OneLine.Style} {row : Nat} {line : List Char}
    {reading : LineReading} (member : reading ∈ (readLine style row line).found) :
    OneLine.read style line = .ok reading.reading := by
  unfold readLine at member
  split at member
  · cases member
  · cases member
  · rename_i isRead
    cases List.mem_singleton.mp member
    exact isRead
  · rename_i isRead
    cases List.mem_singleton.mp member
    exact isRead

theorem exists_line_of_mem_readNeeds {style : OneLine.Style} {text : List Char}
    {reading : LineReading} (member : reading ∈ (readNeeds style text).found) :
    ∃ line ∈ markLines text, OneLine.read style line = .ok reading.reading := by
  obtain ⟨⟨line, row⟩, isLine, found⟩ := Trail.mem_along member
  exact ⟨line, List.fst_mem_of_mem_zipIdx isLine, read_of_mem_readLine found⟩

theorem CommentPlace.mem_warnings_gather [Libraries] {place : CommentPlace} {ending : Option Fault}
    {findings : List Finding} {warning : Warning}
    (member : warning ∈ (place.gather ending findings).warnings) :
    .warning warning ∈ findings := by
  induction findings with
  | nil => cases member
  | cons finding rest ih =>
      cases finding with
      | warning first =>
          rcases List.mem_cons.mp member with rfl | later
          · exact List.mem_cons_self
          · exact List.mem_cons_of_mem _ (ih later)
      | piece row startColumn endColumn payload =>
          simp only [gather] at member
          split at member
          · cases member
          · exact List.mem_cons_of_mem _ (ih member)

theorem kind_of_mem_readNeeds {style : OneLine.Style} {text : List Char} {row : Nat}
    {cause : OneLine.Warning} (member : .warning row cause ∈ (readNeeds style text).found) :
    cause.kind ≠ "newline_in_field" := by
  obtain ⟨line, isLine, isRead⟩ := exists_line_of_mem_readNeeds member
  have other := OneLine.read_ne_newlineInField (breaksAtEnd_of_mem_markLines isLine) isRead
  cases cause with
  | newlineInField name => exact absurd rfl (other name)
  | _ => simp [OneLine.Warning.kind]

/-- The needs and warnings of a comment: no warning is on a line break in a field, and each
value of a need either holds no line break or is the default of a field after those that its
line gives. -/
theorem needs_without_breaks [Libraries] (style : OneLine.Style) (text : List Char)
    (place : CommentPlace) :
    let gathered := place.gatherTrail (needFindings style place.file place.startRow text)
    (∀ file startRow, ∀ warning ∈ warningsOf file startRow (readNeeds style text).found,
      warning.cause.kind ≠ "newline_in_field") ∧
    (∀ warning ∈ gathered.warnings, warning.cause.kind ≠ "newline_in_field") ∧
    ∀ entry ∈ gathered.entries, ∃ line ∈ markLines text, ∃ need objects,
      OneLine.read style line = .ok (.need need) ∧ entry.payload = .need need.fields ∧
      style.fieldMembers = .ok objects ∧
      let given := style.given objects (Text.slice need.startColumn need.endColumn line)
      ∀ value ∈ need.fields, value.2.Unbroken ∨
        ∃ field ∈ objects.drop given.length, OneLine.FallsBack field value := by
  intro gathered
  refine ⟨fun file startRow warning member => ?_, fun warning member => ?_, fun entry member => ?_⟩
  · cases file with
    | none => cases member
    | some path =>
        obtain ⟨reading, isRead, made⟩ := List.mem_filterMap.mp member
        cases reading with
        | need row need => cases made
        | warning row cause =>
            cases made
            exact kind_of_mem_readNeeds isRead
  · obtain ⟨reading, isRead, made⟩ := List.mem_map.mp (CommentPlace.mem_warnings_gather member)
    cases reading with
    | need row need => cases made
    | warning row cause =>
        cases made
        exact kind_of_mem_readNeeds isRead
  · obtain ⟨row, startColumn, endColumn, payload, log, inFindings, isEntry⟩ :=
      CommentPlace.mem_gather member
    obtain ⟨link, _, rfl⟩ := CommentPlace.entry_eq_ok isEntry
    obtain ⟨reading, isRead, made⟩ := List.mem_map.mp inFindings
    cases reading with
    | warning row cause => cases made
    | need row need =>
        cases made
        obtain ⟨line, isLine, readsLine⟩ := exists_line_of_mem_readNeeds isRead
        obtain ⟨objects, described, values⟩ :=
          OneLine.entries_of_read (breaksAtEnd_of_mem_markLines isLine) readsLine
        exact ⟨line, isLine, need, objects, readsLine, rfl, described, values⟩

/-- A mark before a form feed, after which a line feed is added. -/
theorem needs_without_breaks_before_form_feed :
    let text := "@A\\, b, ID_1, impl, [B\\,C, D]\x0c".toList
    let place : CommentPlace := ⟨⟨Path.here, none, none, Path.here⟩, Path.here, 0, none⟩
    let gathered :=
      place.gatherTrail (needFindings OneLine.Style.standard place.file place.startRow text)
    gathered.entries.length = 1 ∧
      ∀ entry ∈ gathered.entries, ∃ fields, entry.payload = .need fields ∧ fields.length = 4 ∧
        ∀ value ∈ fields, value.2.Unbroken := by
  intro text place gathered
  refine ⟨by decide +kernel, fun entry member => ?_⟩
  obtain ⟨line, isLine, need, objects, isRead, payload, described, values⟩ :=
    (needs_without_breaks OneLine.Style.standard text place).2.2 entry member
  have onlyLine : markLines text = [text ++ ['\n']] := by decide +kernel
  rw [onlyLine, List.mem_singleton] at isLine
  have evaluated : OneLine.read OneLine.Style.standard (text ++ ['\n']) =
      .ok (.need ⟨[(.text "title", .text "A, b"), (.text "id", .text "ID_1"),
        (.text "type", .text "impl"), (.text "links", .list [.text "B,C", .text "D"])], 1, 30⟩) := by
    rfl
  rw [isLine, evaluated] at isRead
  cases isRead
  cases described
  subst isLine
  refine ⟨_, payload, rfl, fun value isValue => (values value isValue).resolve_right ?_⟩
  -- All four fields are given, so that none is left to fall back.
  rintro ⟨field, isLeft, _⟩
  exact absurd isLeft List.not_mem_nil

end Tracemark.Analysis
