import Mathlib.Data.List.Basic
import Mathlib.Data.List.TakeDrop
import Mathlib.Order.Compare
import Tracemark.Path
import Tracemark.Proofs.Text.Search

/-!
# Laws of paths

Paths are put in order by their components, and absolute paths that come neither
before nor after one another are the same. A path that was read is read again from
the text that it is written as.
-/

set_option autoImplicit false

namespace Tracemark

namespace Path

/-! ## The order of paths -/

theorem compareParts_eq_compare (left right : List String) :
    compareParts left right = Ord.compare left right := by
  induction left generalizing right with
  | nil => cases right <;> rfl
  | cons first left ih =>
      cases right with
      | nil => rfl
      | cons second right =>
          rw [compareParts, ih, List.compare_eq_compareLex, List.compareLex_cons_cons]

theorem compare_eq (left right : Path) :
    left.compare right = Ord.compare left.sortKey right.sortKey :=
  compareParts_eq_compare _ _

theorem sortKey_inj {left right : Path} (leftAbsolute : left.isAbsolute = true)
    (rightAbsolute : right.isAbsolute = true) : left.sortKey = right.sortKey ↔ left = right := by
  constructor
  · intro same
    obtain ⟨leftAnchor, leftParts⟩ := left
    obtain ⟨rightAnchor, rightParts⟩ := right
    simp only [sortKey, leftAbsolute, rightAbsolute, if_true] at same
    obtain ⟨anchors, rfl⟩ := List.cons.inj same
    cases leftAnchor <;> cases rightAnchor <;>
      simp_all [isAbsolute, Anchor.text]
  · exact congrArg sortKey

theorem compare_eq_eq_iff {left right : Path} (leftAbsolute : left.isAbsolute = true)
    (rightAbsolute : right.isAbsolute = true) : left.compare right = .eq ↔ left = right := by
  rw [compare_eq, Std.LawfulEqCmp.compare_eq_iff_eq, sortKey_inj leftAbsolute rightAbsolute]

/-! ## Absolute paths -/

theorem isAbsolute_absolute (path : Path) {working : Path} (rooted : working.isAbsolute = true) :
    (path.absolute working).isAbsolute = true := by
  unfold absolute join
  split
  · assumption
  · exact rooted

theorem absolute_of_isAbsolute {path : Path} (rooted : path.isAbsolute = true) (working : Path) :
    path.absolute working = path := by
  simp [absolute, join, rooted]

/-! ## Paths below others -/

theorem stripParts?_eq_some_iff {base parts rest : List String} :
    stripParts? base parts = some rest ↔ parts = base ++ rest := by
  induction base generalizing parts with
  | nil => simp [stripParts?]
  | cons first base ih =>
      cases parts with
      | nil => simp [stripParts?]
      | cons part parts =>
          simp only [stripParts?, List.cons_append, List.cons.injEq]
          split
          · rename_i same
            simp [ih, beq_iff_eq.mp same]
          · rename_i different
            simp only [beq_iff_eq] at different
            simp [Ne.symm different]

theorem relativeTo_eq_ok_iff {path base relative : Path} :
    path.relativeTo base = .ok relative ↔
      relative.anchor = .relative ∧ path = ⟨base.anchor, base.parts ++ relative.parts⟩ := by
  obtain ⟨anchor, parts⟩ := path
  obtain ⟨relativeAnchor, relativeParts⟩ := relative
  simp only [relativeTo, mk.injEq]
  split
  · rename_i sameAnchor
    cases stripped : stripParts? base.parts parts with
    | none =>
        have notBelow : parts ≠ base.parts ++ relativeParts := by
          intro below
          simp [stripParts?_eq_some_iff.mpr below] at stripped
        simp [notBelow]
    | some rest =>
        rw [stripParts?_eq_some_iff] at stripped
        simp [stripped, beq_iff_eq.mp sameAnchor, eq_comm]
  · rename_i otherAnchor
    simp only [beq_iff_eq] at otherAnchor
    simp [otherAnchor]

theorem join_of_relative {base path : Path} (relative : path.anchor = .relative) :
    base.join path = ⟨base.anchor, base.parts ++ path.parts⟩ := by
  simp [join, isAbsolute, relative]

theorem relativeTo_join {base path : Path} (relative : path.anchor = .relative) :
    (base.join path).relativeTo base = .ok path :=
  relativeTo_eq_ok_iff.mpr ⟨relative, join_of_relative relative⟩

/-- A path is seen from above as it is seen from a directory that is seen from there. -/
theorem relativeTo_trans {path middle base upper lower : Path}
    (above : middle.relativeTo base = .ok upper) (below : path.relativeTo middle = .ok lower) :
    path.relativeTo base = .ok (upper.join lower) := by
  obtain ⟨upperRelative, rfl⟩ := relativeTo_eq_ok_iff.mp above
  obtain ⟨lowerRelative, rfl⟩ := relativeTo_eq_ok_iff.mp below
  rw [join_of_relative lowerRelative]
  exact relativeTo_eq_ok_iff.mpr ⟨upperRelative, by rw [List.append_assoc]⟩

/-! ## Reading and writing -/

/-- No component is empty, a dot or divided by a slash, as in every path that was
read. -/
def IsRead (path : Path) : Prop :=
  ∀ part ∈ path.parts, part ≠ "" ∧ part ≠ "." ∧ '/' ∉ part.toList

instance (path : Path) : Decidable path.IsRead :=
  List.decidableBAll _ path.parts

theorem isRead_ofText (text : String) : (ofText text).IsRead := by
  intro part member
  obtain ⟨inPieces, proper⟩ := List.mem_filter.mp member
  obtain ⟨piece, divided, rfl⟩ := List.mem_map.mp inPieces
  simp only [Bool.and_eq_true, bne_iff_ne] at proper
  exact ⟨proper.1, proper.2, by simpa using Text.not_mem_of_mem_pieces divided⟩

/-- The components of a path as characters, divided by slashes. -/
def body (path : Path) : List Char :=
  ['/'].intercalate (path.parts.map String.toList)

theorem IsRead.partsOf_body {path : Path} (read : path.IsRead) : partsOf path.body = path.parts := by
  cases parts : path.parts with
  | nil => simp [partsOf, body, parts, Text.pieces]
  | cons first rest =>
      have free : ∀ part ∈ path.parts.map String.toList, '/' ∉ part := by
        intro characters member
        obtain ⟨part, inParts, rfl⟩ := List.mem_map.mp member
        exact (read part inParts).2.2
      have proper : ∀ part ∈ path.parts, (part != "" && part != ".") = true := by
        intro part inParts
        simp [(read part inParts).1, (read part inParts).2.1]
      rw [partsOf, body, Text.pieces_intercalate (by simp [parts]) free, List.map_map, ← parts]
      simpa using proper

theorem partsOf_slash (text : List Char) : partsOf ('/' :: text) = partsOf text := by
  simp [partsOf, Text.pieces]

/-- What is written after the anchor does not begin with a slash. -/
theorem IsRead.takeWhile_body {path : Path} (read : path.IsRead) :
    path.body.takeWhile (· == '/') = [] := by
  unfold body
  cases parts : path.parts with
  | nil => rfl
  | cons first rest =>
      obtain ⟨some, _, free⟩ := read first (parts ▸ List.mem_cons_self)
      cases characters : first.toList with
      | nil => exact absurd (String.toList_eq_nil_iff.mp characters) some
      | cons c more =>
          have different : c ≠ '/' := by
            rintro rfl
            exact free (characters ▸ List.mem_cons_self)
          cases rest <;> simp [characters, different]

/-- Reading undoes writing. -/
theorem IsRead.ofText_text {path : Path} (read : path.IsRead) : ofText path.text = path := by
  have noSlash := read.takeWhile_body
  have parts := read.partsOf_body
  obtain ⟨anchor, components⟩ := path
  have written : (String.intercalate "/" components).toList = body ⟨anchor, components⟩ := by
    simp [body, String.toList_intercalate]
  cases anchor with
  | relative =>
      cases components with
      | nil => rfl
      | cons first rest => simp [ofText, text, Anchor.text, written, anchorOf, noSlash, parts]
  | absolute =>
      simp [ofText, text, Anchor.text, written, anchorOf, noSlash, parts, partsOf_slash]
  | doubled =>
      simp [ofText, text, Anchor.text, written, anchorOf, noSlash, parts, partsOf_slash]

theorem IsRead.absolute {path working : Path} (read : path.IsRead) (workingRead : working.IsRead) :
    (path.absolute working).IsRead := by
  unfold Path.absolute join
  split
  · exact read
  · intro part member
    rcases List.mem_append.mp member with above | below
    · exact workingRead part above
    · exact read part below

theorem IsRead.parent {path : Path} (read : path.IsRead) : path.parent.IsRead :=
  fun part member => read part ((List.dropLast_sublist _).subset member)

theorem mem_of_mem_collapse {parts : List String} {part : String} (member : part ∈ collapse parts) :
    part ∈ parts := by
  have kept : ∀ (rest done : List String) (other : String),
      other ∈ rest.foldl (fun done part => if part == ".." then done.tail else part :: done) done →
        other ∈ done ∨ other ∈ rest := by
    intro rest
    induction rest with
    | nil => exact fun _ _ inDone => .inl inDone
    | cons first rest ih =>
        intro done other folded
        rcases ih _ other folded with inDone | inRest
        · dsimp only at inDone
          split at inDone
          · exact .inl (List.mem_of_mem_tail inDone)
          · rcases List.mem_cons.mp inDone with isFirst | inDone
            · exact .inr (isFirst ▸ List.mem_cons_self)
            · exact .inl inDone
        · exact .inr (List.mem_cons_of_mem _ inRest)
  exact (kept parts [] part (List.mem_reverse.mp member)).resolve_left List.not_mem_nil

theorem IsRead.collapsed {path working : Path} (read : path.IsRead) (workingRead : working.IsRead) :
    (path.collapsed working).IsRead :=
  fun part member => read.absolute workingRead part (mem_of_mem_collapse member)

theorem resolve_eq_ok {path working resolved : Path} (resolves : path.resolve working = .ok resolved) :
    resolved = path.collapsed working := by
  unfold resolve at resolves
  split at resolves
  · cases resolves
  · exact (Except.ok.inj resolves).symm

theorem IsRead.relative {path base relative : Path} (read : path.IsRead)
    (below : path.relativeTo base = .ok relative) : relative.IsRead := by
  intro part member
  obtain ⟨_, rfl⟩ := relativeTo_eq_ok_iff.mp below
  exact read part (List.mem_append_right _ member)

/-! ## Names and suffixes -/

def stem (path : Path) : String :=
  let name := path.name.toList
  String.ofList (name.take (name.length - (suffixOf name).length))

def withoutSuffix (path : Path) : Path :=
  { path with parts := path.parts.dropLast ++ [path.stem] }

theorem name_eq_getLast {path : Path} (named : path.parts ≠ []) :
    path.name = path.parts.getLast named := by
  rw [name, List.getLast?_eq_some_getLast named, Option.getD_some]

theorem IsRead.withSuffix_empty {path : Path} (read : path.IsRead) (named : path.parts ≠ []) :
    path.withSuffix "" = .ok path.withoutSuffix := by
  have notEmpty : path.name ≠ "" := by
    rw [name_eq_getLast named]
    exact (read _ (List.getLast_mem named)).1
  simp [withSuffix, withoutSuffix, stem, String.isEmpty_iff, notEmpty]

theorem slash_not_mem_stem {path : Path} (read : path.IsRead) (named : path.parts ≠ []) :
    '/' ∉ path.stem.toList := by
  intro member
  rw [stem, String.toList_ofList] at member
  have inName := List.mem_of_mem_take member
  rw [name_eq_getLast named] at inName
  exact (read _ (List.getLast_mem named)).2.2 inName

/-- Relative paths that are written alike have the same components, unless one has none. -/
theorem parts_of_text_eq {left right : List String} (leftSome : left ≠ []) (rightSome : right ≠ [])
    (leftFree : ∀ part ∈ left, '/' ∉ part.toList) (rightFree : ∀ part ∈ right, '/' ∉ part.toList)
    (same : text ⟨.relative, left⟩ = text ⟨.relative, right⟩) : left = right := by
  have pieces : ∀ parts : List String, parts ≠ [] → (∀ part ∈ parts, '/' ∉ part.toList) →
      Text.pieces '/' (text ⟨.relative, parts⟩).toList = parts.map String.toList := by
    intro parts given free
    have written : (text ⟨.relative, parts⟩).toList = ['/'].intercalate (parts.map String.toList) := by
      simp [text, Anchor.text, given, String.toList_intercalate]
    rw [written, Text.pieces_intercalate (by simpa using given)]
    simpa using free
  have mapped : left.map String.toList = right.map String.toList := by
    rw [← pieces left leftSome leftFree, ← pieces right rightSome rightFree, same]
  exact List.map_injective_iff.mpr (fun _ _ => String.toList_inj.mp) mapped

theorem withoutSuffix_text_eq_iff {left right : Path} (leftRead : left.IsRead)
    (rightRead : right.IsRead) (leftNamed : left.parts ≠ []) (rightNamed : right.parts ≠ [])
    (leftRelative : left.anchor = .relative) (rightRelative : right.anchor = .relative) :
    left.withoutSuffix.text = right.withoutSuffix.text ↔
      left.parent = right.parent ∧ left.stem = right.stem := by
  obtain ⟨anchor, leftParts⟩ := left
  obtain ⟨other, rightParts⟩ := right
  obtain rfl : anchor = .relative := leftRelative
  obtain rfl : other = .relative := rightRelative
  have free : ∀ path : Path, path.IsRead → path.parts ≠ [] →
      ∀ part ∈ path.withoutSuffix.parts, '/' ∉ part.toList := by
    intro path read named part member
    rcases List.mem_append.mp member with above | last
    · exact (read part ((List.dropLast_sublist _).subset above)).2.2
    · rw [List.mem_singleton.mp last]
      exact slash_not_mem_stem read named
  constructor
  · intro same
    have parts := parts_of_text_eq (by simp [withoutSuffix]) (by simp [withoutSuffix])
      (free _ leftRead leftNamed) (free _ rightRead rightNamed) same
    obtain ⟨above, last⟩ := List.append_inj' parts rfl
    exact ⟨congrArg (Path.mk .relative) above, (List.cons.inj last).1⟩
  · rintro ⟨parents, stems⟩
    have above : leftParts.dropLast = rightParts.dropLast := congrArg Path.parts parents
    simp only [withoutSuffix, above, stems]

theorem ofText_name {path : Path} (read : path.IsRead) :
    ofText path.name = ⟨.relative, path.parts.drop (path.parts.length - 1)⟩ := by
  by_cases top : path.parts = []
  · simp [name, top]
    rfl
  · have last := List.drop_length_sub_one top
    have single : IsRead ⟨.relative, [path.parts.getLast top]⟩ := by
      intro part member
      rw [List.mem_singleton.mp member]
      exact read _ (List.getLast_mem top)
    have written : text ⟨.relative, [path.parts.getLast top]⟩ = path.name := by
      simp [text, Anchor.text, name_eq_getLast top]
    rw [last, ← written, single.ofText_text]

end Path

end Tracemark
