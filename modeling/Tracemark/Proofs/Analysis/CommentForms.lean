import Tracemark.Analysis.Extraction
import Tracemark.Libraries.Reference
import Tracemark.Proofs.Reference
import Tracemark.Proofs.Text.Lines

/-!
# References in line and block comments

Everything after a marker in its line is divided into ids. In a comment that runs to the end
of its line these are the ids that were written; the end of a block comment is one id more.
-/

set_option autoImplicit false

namespace Tracemark.Analysis

/-- How a comment within a line is opened and closed. What closes it stands apart from what
is before it. -/
structure CommentForm where
  opening : String
  closing : String
  unbroken : Text.Unbroken (opening ++ closing).toList
  apart : ∀ c ∈ closing.toList.head?, Reference.isDivider c = true

namespace CommentForm

def line : CommentForm :=
  ⟨"// ", "", by decide +kernel, by simp⟩

def block : CommentForm :=
  ⟨"/* ", " */", by decide +kernel, by simp [Reference.isDivider, Text.isBlank]⟩

def written (form : CommentForm) (marker : String) (ids : List String) : String :=
  form.opening ++ marker ++ (" " ++ ", ".intercalate ids ++ form.closing)

/-- The ids between the first occurrence of a marker in a comment and the place where it was
written. -/
def strayIds (form : CommentForm) (marker : String) : List String :=
  let opened := (form.opening ++ marker).toList
  (Text.find? marker.toList opened).elim [] fun column =>
    Reference.dividedIds (opened.drop (column + marker.toList.length))

variable {form : CommentForm} {marker : String} {ids : List String}

/-- A marker that begins with another character than those of the opening is found where it
was written. -/
theorem strayIds_of_fresh (fresh : ∃ c ∈ marker.toList.head?, c ∉ form.opening.toList) :
    form.strayIds marker = [] := by
  obtain ⟨first, isFirst, absent⟩ := fresh
  obtain ⟨rest, isMarker⟩ := List.head?_eq_some_iff.mp isFirst
  have opened : (form.opening ++ marker).toList = form.opening.toList ++ first :: rest := by
    rw [String.toList_append, isMarker]
  simp only [strayIds, opened, isMarker, Text.find?_append_cons absent, Option.elim_some]
  rw [← List.length_append, List.drop_length]
  rfl

theorem exists_find?_opened (form : CommentForm) (marker : String) :
    ∃ column, Text.find? marker.toList (form.opening ++ marker).toList = some column := by
  apply Option.ne_none_iff_exists'.mp
  intro absent
  apply Text.find?_eq_none_iff.mp absent
  rw [String.toList_append]
  exact (List.suffix_append _ _).isInfix

theorem unbroken_of_isId {id : String} (isId : Reference.IsId id) : Text.Unbroken id.toList := by
  intro c member
  rw [Bool.eq_false_iff]
  intro breaks
  have divides := Reference.isDivider_of_isBlank c (Text.isBlank_of_isLineBreak breaks)
  exact absurd divides (Bool.eq_false_iff.mp (isId.2 c member))

theorem unbroken_written (unbroken : Text.Unbroken marker.toList)
    (areIds : ∀ id ∈ ids, Reference.IsId id) : Text.Unbroken (form.written marker ids).toList := by
  have ofForm := form.unbroken
  have separators : Text.Unbroken ", ".toList := by decide +kernel
  have listed : Text.Unbroken (", ".intercalate ids).toList := by
    intro c member
    rw [String.toList_intercalate] at member
    rcases Text.mem_intercalate member with separates | ⟨part, isPart, inPart⟩
    · exact separators c separates
    · obtain ⟨id, isId, rfl⟩ := List.mem_map.mp isPart
      exact unbroken_of_isId (areIds id isId) c inPart
  have blank : Text.Unbroken " ".toList := by decide +kernel
  simp only [Text.Unbroken, written, String.toList_append, List.forall_mem_append] at ofForm ⊢
  exact ⟨⟨ofForm.1, unbroken⟩, ⟨blank, listed⟩, ofForm.2⟩

/-- What follows a marker where it was written. -/
theorem dividedIds_after (form : CommentForm) (areIds : ∀ id ∈ ids, Reference.IsId id)
    (before : List Char) :
    Reference.dividedIds (before ++ (" " ++ ", ".intercalate ids ++ form.closing).toList) =
      Reference.dividedIds before ++ ids ++ Reference.dividedIds form.closing.toList := by
  have blank : " ".toList = [' '] := rfl
  have begins : ∀ c ∈ (' ' :: (", ".intercalate ids).toList).head?, Reference.isDivider c = true := by
    simp [Reference.isDivider, Text.isBlank]
  rw [String.toList_append, String.toList_append, ← List.append_assoc,
    Reference.dividedIds_append form.apart, blank, List.singleton_append,
    Reference.dividedIds_append begins, Reference.dividedIds_cons rfl,
    Reference.dividedIds_intercalate areIds]

theorem exists_scan_written (form : CommentForm) (unbroken : Text.Unbroken marker.toList)
    (areIds : ∀ id ∈ ids, Reference.IsId id) :
    ∃ reference,
      Reference.scan (.list [.text marker]) (form.written marker ids).toList =
        { found := [reference] } ∧
      reference.row = 0 ∧ reference.marker = marker ∧
      reference.ids =
        form.strayIds marker ++ ids ++ Reference.dividedIds form.closing.toList := by
  obtain ⟨column, located⟩ := exists_find?_opened form marker
  have found : Text.find? marker.toList (form.written marker ids).toList = some column := by
    rw [written, String.toList_append]
    exact Text.find?_append_of_some located _
  obtain ⟨reference, made⟩ : ∃ reference,
      Reference.inLine? marker.toList 0 (form.written marker ids).toList = some reference :=
    ⟨_, Option.map_eq_some_iff.mpr ⟨column, found, rfl⟩⟩
  obtain ⟨isRow, isMarker, _, same, starts, _⟩ := Reference.columns_of_inLine made
  obtain rfl := Option.some.inj (found.symm.trans same)
  have some : (form.written marker ids).toList ≠ [] := by simp [written]
  refine ⟨reference, ?_, isRow, ?_, ?_⟩
  · rw [Reference.scan_of_unbroken (unbroken_written unbroken areIds) some, made]
    rfl
  · rw [isMarker, String.ofList_toList]
  · have within := Text.find?_add_length_le located
    rw [Reference.ids_of_inLine made, starts, written, String.toList_append,
      List.drop_append_of_le_length within, dividedIds_after form areIds, strayIds, located]
    rfl

end CommentForm

/-- A comment makes exactly one reference with a marker, and it refers to the ids. Wherever its
line can be linked, it becomes one entry. -/
structure Refers [Libraries] (marker : String) (text : String) (ids : List String) : Prop where
  scanned : ∃ reference,
    Reference.scan (.list [.text marker]) text.toList = { found := [reference] } ∧
      reference.marker = marker ∧ reference.ids = ids
  entered : ∀ (place : CommentPlace) (log : List Log.Record) (link : Option String),
    place.source.link place.file (place.startRow + 1) = (log, .ok link) →
      let gathered := place.gatherTrail (referenceFindings (.list [.text marker]) text.toList)
      gathered.fault = none ∧ gathered.entries.map Entry.payload = [.reference ids marker]

theorem refers_of_scan [Libraries] {marker text : String} {ids : List String}
    {reference : Reference}
    (scanned : Reference.scan (.list [.text marker]) text.toList = { found := [reference] })
    (isRow : reference.row = 0) (isMarker : reference.marker = marker)
    (areIds : reference.ids = ids) : Refers marker text ids := by
  refine ⟨⟨reference, scanned, isMarker, areIds⟩, ?_⟩
  intro place log link linked
  simp [CommentPlace.gatherTrail, referenceFindings, scanned, CommentPlace.gather,
    CommentPlace.entry, isRow, linked, isMarker, areIds, Except.map]

/-- A marker in one line refers to the written ids in a line comment, and in a block comment to
the end of the comment as well, each after what is left of a marker that is found in the opening
already. A marker with a line break is not found. -/
theorem references_of_comment_forms [Libraries] {marker : String} {ids : List String}
    (areIds : ∀ id ∈ ids, Reference.IsId id) :
    (Text.Unbroken marker.toList →
      Refers marker (CommentForm.line.written marker ids)
        (CommentForm.line.strayIds marker ++ ids) ∧
      Refers marker (CommentForm.block.written marker ids)
        (CommentForm.block.strayIds marker ++ ids ++ ["*/"])) ∧
    (∀ form : CommentForm, (∃ c ∈ marker.toList.head?, c ∉ form.opening.toList) →
      form.strayIds marker = []) ∧
    (¬ Text.Unbroken marker.toList → ∀ form : CommentForm,
      Reference.scan (.list [.text marker]) (form.written marker ids).toList = {}) := by
  have nothing : Reference.dividedIds CommentForm.line.closing.toList = [] := by decide +kernel
  have ending : Reference.dividedIds CommentForm.block.closing.toList = ["*/"] := by decide +kernel
  refine ⟨?_, fun form => CommentForm.strayIds_of_fresh, ?_⟩
  · intro unbroken
    constructor
    · obtain ⟨reference, scanned, isRow, isMarker, refersTo⟩ :=
        CommentForm.line.exists_scan_written unbroken areIds
      rw [nothing, List.append_nil] at refersTo
      exact refers_of_scan scanned isRow isMarker refersTo
    · obtain ⟨reference, scanned, isRow, isMarker, refersTo⟩ :=
        CommentForm.block.exists_scan_written unbroken areIds
      rw [ending] at refersTo
      exact refers_of_scan scanned isRow isMarker refersTo
  · intro broken form
    exact Reference.scan_of_broken broken _

/-- Two ids in both forms: the block comment refers to a third one. -/
theorem references_of_two_ids :
    let ids := ["REQ_1", "REQ-2"]
    (∀ id ∈ ids, Reference.IsId id) ∧ Text.Unbroken "@need-ids:".toList ∧
      Refers "@need-ids:" "// @need-ids: REQ_1, REQ-2" ids ∧
      Refers "@need-ids:" "/* @need-ids: REQ_1, REQ-2 */" ["REQ_1", "REQ-2", "*/"] := by
  intro ids
  have areIds : ∀ id ∈ ids, Reference.IsId id := by decide +kernel
  have unbroken : Text.Unbroken "@need-ids:".toList := by decide +kernel
  obtain ⟨refer, fresh, _⟩ := @references_of_comment_forms _ "@need-ids:" ids areIds
  have inLine := fresh CommentForm.line ⟨'@', rfl, by decide +kernel⟩
  have inBlock := fresh CommentForm.block ⟨'@', rfl, by decide +kernel⟩
  rw [inLine, inBlock] at refer
  have lineText : CommentForm.line.written "@need-ids:" ids = "// @need-ids: REQ_1, REQ-2" := by
    decide +kernel
  have blockText : CommentForm.block.written "@need-ids:" ids =
      "/* @need-ids: REQ_1, REQ-2 */" := by
    decide +kernel
  rw [lineText, blockText] at refer
  exact ⟨areIds, unbroken, refer unbroken⟩

end Tracemark.Analysis
