import Tracemark.Build.Link
import Tracemark.Proofs.Path
import Tracemark.Proofs.Result

/-!
# Paths between documents and files

The path from a document to a file of the output directory goes up as often as the document lies
deep, and then down to the file. The path back ends at the page of the document, unless the name of
the document has a suffix of its own.
-/

set_option autoImplicit false

namespace Tracemark

namespace Path

/-! ## Resolving pairs of dots -/

/-- The path with each pair of dots taken together with the component before it. -/
def lexical (path : Path) : Path :=
  { path with parts := collapse path.parts }

/-- One component of a path, after those that were resolved, the last of them first. -/
def resolveStep (done : List String) (part : String) : List String :=
  if part == ".." then done.tail else part :: done

theorem collapse_eq_foldl (parts : List String) : collapse parts = (parts.foldl resolveStep []).reverse :=
  rfl

theorem foldl_resolveStep {names : List String} (ordinary : ".." ∉ names) (done : List String) :
    names.foldl resolveStep done = names.reverse ++ done := by
  induction names generalizing done with
  | nil => rfl
  | cons name rest ih =>
      obtain ⟨different, others⟩ := not_or.mp (mt List.mem_cons.mpr ordinary)
      have step : resolveStep done name = name :: done := by
        simp [resolveStep, Ne.symm different]
      rw [List.foldl_cons, step, ih others, List.reverse_cons, List.append_assoc, List.singleton_append]

theorem foldl_resolveStep_up (names done : List String) :
    (List.replicate names.length "..").foldl resolveStep (names ++ done) = done := by
  induction names with
  | nil => rfl
  | cons name rest ih =>
      rw [List.length_cons, List.replicate_succ, List.foldl_cons]
      exact ih

theorem collapse_of_ordinary {parts : List String} (ordinary : ".." ∉ parts) : collapse parts = parts := by
  rw [collapse_eq_foldl, foldl_resolveStep ordinary, List.append_nil, List.reverse_reverse]

/-- Going down and as far up again leads nowhere else. -/
theorem collapse_detour {names : List String} (ordinary : ".." ∉ names) (front back : List String) :
    collapse (front ++ names ++ (List.replicate names.length ".." ++ back)) = collapse (front ++ back) := by
  simp only [collapse_eq_foldl, List.foldl_append, foldl_resolveStep ordinary]
  rw [← List.length_reverse, foldl_resolveStep_up]

theorem collapse_concat {name : String} (ordinary : name ≠ "..") (front : List String) :
    collapse (front ++ [name]) = collapse front ++ [name] := by
  simp [collapse_eq_foldl, List.foldl_append, resolveStep, ordinary]

/-- From a directory, the path leads to the place of the file. Where no pair of dots is in the file,
resolving those on the way gives the file itself. -/
structure LeadsTo (directory path file : Path) : Prop where
  place : ∀ working, (directory.join path).collapsed working = file.collapsed working
  resolved : ".." ∉ file.parts → (directory.join path).lexical = file

theorem leadsTo_of_detour {names : List String} (ordinary : ".." ∉ names) (anchor : Anchor)
    (front back : List String) :
    LeadsTo ⟨anchor, front ++ names⟩ ⟨.relative, List.replicate names.length ".." ++ back⟩
      ⟨anchor, front ++ back⟩ where
  place := by
    intro working
    simp only [collapsed, join, isAbsolute]
    cases anchor with
    | relative =>
        have detour := collapse_detour ordinary (working.parts ++ front) back
        simpa [List.append_assoc] using detour
    | absolute => simpa using collapse_detour ordinary front back
    | doubled => simpa using collapse_detour ordinary front back
  resolved := by
    intro plain
    simp only [lexical, join, isAbsolute]
    simpa [collapse_of_ordinary plain] using collapse_detour ordinary front back

theorem parts_collapsed_top (path : Path) :
    (path.collapsed ⟨.absolute, []⟩).parts = collapse path.parts := by
  unfold collapsed join
  split <;> rfl

/-- A path leads to one file of a directory. -/
theorem LeadsTo.name_unique {directory path : Path} {anchor : Anchor} {front : List String}
    {name other : String} (leads : LeadsTo directory path ⟨anchor, front ++ [name]⟩)
    (leadsToo : LeadsTo directory path ⟨anchor, front ++ [other]⟩)
    (ordinary : name ≠ "..") (otherOrdinary : other ≠ "..") : name = other := by
  have same := congrArg Path.parts
    ((leads.place ⟨.absolute, []⟩).symm.trans (leadsToo.place ⟨.absolute, []⟩))
  simp only [parts_collapsed_top, collapse_concat ordinary, collapse_concat otherOrdinary] at same
  exact (List.cons.inj (List.append_inj' same rfl).2).1

/-! ## Suffixes -/

/-- The name has a dot with something before it, and after it something without a dot. -/
def EndsInSuffix (name : List Char) : Prop :=
  ∃ front back, name = front ++ '.' :: back ∧ '.' ∉ back ∧ front ≠ [] ∧ back ≠ []

theorem suffixOf_append_cons {front back : List Char} (absent : '.' ∉ back) :
    suffixOf (front ++ '.' :: back) = if front ≠ [] ∧ back ≠ [] then '.' :: back else [] := by
  have found := Text.findLast?_singleton_append_cons absent front
  rw [suffixOf, found]
  cases front <;> cases back <;> simp

theorem suffixOf_eq_nil_iff {name : List Char} : suffixOf name = [] ↔ ¬ EndsInSuffix name := by
  constructor
  · rintro none ⟨front, back, rfl, absent, someFront, someBack⟩
    rw [suffixOf_append_cons absent, if_pos ⟨someFront, someBack⟩] at none
    cases none
  · intro plain
    cases found : Text.findLast? ['.'] name with
    | none => rw [suffixOf, found]
    | some index =>
        obtain ⟨front, back, rfl, absent⟩ := Text.exists_append_of_findLast?_singleton found
        rw [suffixOf_append_cons absent, if_neg]
        rintro ⟨someFront, someBack⟩
        exact plain ⟨front, back, rfl, absent, someFront, someBack⟩

theorem stem_eq_name_iff (path : Path) : path.stem = path.name ↔ ¬ EndsInSuffix path.name.toList := by
  rw [← suffixOf_eq_nil_iff]
  generalize isName : path.name.toList = name
  have named : path.name = String.ofList name := by rw [← isName, String.ofList_toList]
  rw [stem, isName, named, String.ofList_inj, List.take_eq_self_iff]
  constructor
  · intro whole
    cases name with
    | nil => rfl
    | cons c rest =>
        rw [List.length_cons] at whole
        exact List.length_eq_zero_iff.mp (by omega)
  · intro none
    simp [none]

/-- What is written after a path belongs to its last component. -/
theorem text_concat_append (front : List String) (last tail : String) :
    text ⟨.relative, front ++ [last ++ tail]⟩ = text ⟨.relative, front ++ [last]⟩ ++ tail := by
  have written : ∀ parts : List (List Char),
      ['/'].intercalate (parts ++ [last.toList ++ tail.toList]) =
        ['/'].intercalate (parts ++ [last.toList]) ++ tail.toList := by
    intro parts
    induction parts with
    | nil => simp
    | cons part rest ih =>
        cases rest with
        | nil => simp
        | cons next rest => simpa using ih
  refine String.toList_inj.mp ?_
  simp [text, Anchor.text, String.toList_intercalate, written]

end Path

namespace Build

/-! ## Documents -/

/-- A document is named by components, none of which is empty, a dot or a pair of dots. -/
structure IsDocument (document : Path) : Prop where
  relative : document.anchor = .relative
  named : document.parts ≠ []
  read : document.IsRead
  ordinary : ".." ∉ document.parts

/-- The page of a document: the file in the output directory that has the name of the document and
its own suffix. -/
def pageFile (output : Path) (document : String) : Path :=
  output.join (.ofText (document ++ ".html"))

variable {document : Path}

theorem html_ne {short : String} (name : String) (isShort : short.length < 5) :
    name ++ ".html" ≠ short := by
  rintro rfl
  rw [String.length_append] at isShort
  exact absurd isShort (Nat.not_lt.mpr (Nat.le_add_left 5 _))

theorem IsDocument.name_mem (isDocument : IsDocument document) : document.name ∈ document.parts := by
  rw [Path.name_eq_getLast isDocument.named]
  exact List.getLast_mem isDocument.named

theorem IsDocument.ofText_html (isDocument : IsDocument document) :
    Path.ofText (document.text ++ ".html") =
      ⟨.relative, document.parts.dropLast ++ [document.name ++ ".html"]⟩ := by
  have divided : document.parts = document.parts.dropLast ++ [document.name] := by
    rw [Path.name_eq_getLast isDocument.named, List.dropLast_concat_getLast]
  have isRead : Path.IsRead ⟨.relative, document.parts.dropLast ++ [document.name ++ ".html"]⟩ := by
    intro part member
    rcases List.mem_append.mp member with above | last
    · exact isDocument.read part ((List.dropLast_sublist _).subset above)
    · obtain rfl := List.mem_singleton.mp last
      refine ⟨html_ne _ (by decide), html_ne _ (by decide), ?_⟩
      simp [(isDocument.read _ isDocument.name_mem).2.2]
  have written : Path.text ⟨.relative, document.parts.dropLast ++ [document.name ++ ".html"]⟩ =
      document.text ++ ".html" := by
    obtain ⟨anchor, parts⟩ := document
    obtain rfl : anchor = .relative := isDocument.relative
    rw [Path.text_concat_append, ← divided]
  rw [← written, isRead.ofText_text]

theorem depth_eq (path : Path) : depth path = path.parts.length - 1 := by
  simp [depth, Path.parents]

/-- Both paths between a document and a file of the output directory. -/
theorem relativePaths_of_document (isDocument : IsDocument document) {target output below : Path}
    (isBelow : target.relativeTo output = .ok below) :
    relativePaths document target output =
      .ok (⟨.relative, List.replicate (document.parts.length - 1) ".." ++ below.parts⟩,
        ⟨.relative, List.replicate (below.parts.length - 1) ".." ++
          (document.parts.dropLast ++ [document.stem ++ ".html"])⟩) := by
  obtain ⟨relative, _⟩ := Path.relativeTo_eq_ok_iff.mp isBelow
  have toFile := @Path.join_of_relative (upward (depth document)) below relative
  have toDocument := @Path.join_of_relative (upward (depth below)) document isDocument.relative
  have name : Path.name ((upward (depth below)).join document) = document.name := by
    rw [toDocument, Path.name, List.getLast?_append_of_ne_nil _ isDocument.named, Path.name]
  have toPage : ((upward (depth below)).join document).withSuffix ".html" =
      .ok ⟨.relative, List.replicate (below.parts.length - 1) ".." ++
        (document.parts.dropLast ++ [document.stem ++ ".html"])⟩ := by
    have notEmpty : ¬ document.name.isEmpty = true := by
      rw [String.isEmpty_iff]
      exact (isDocument.read _ isDocument.name_mem).1
    rw [Path.withSuffix, name, if_neg notEmpty, toDocument, upward, depth_eq, ← List.append_assoc,
      List.dropLast_append_of_ne_nil isDocument.named]
    rfl
  refine Result.bind_eq_ok_iff.mpr ⟨below, isBelow, ?_⟩
  refine Result.bind_eq_ok_iff.mpr ⟨_, toPage, ?_⟩
  rw [toFile, upward, depth_eq]
  rfl

/-- From the page of a document the path leads to the file. -/
theorem IsDocument.leadsTo_file (isDocument : IsDocument document) {target output below : Path}
    (isBelow : target.relativeTo output = .ok below) :
    (output.join document.parent).LeadsTo
      ⟨.relative, List.replicate (document.parts.length - 1) ".." ++ below.parts⟩ target := by
  obtain ⟨_, rfl⟩ := Path.relativeTo_eq_ok_iff.mp isBelow
  have ordinary : ".." ∉ document.parts.dropLast :=
    fun member => isDocument.ordinary ((List.dropLast_sublist _).subset member)
  have leads := Path.leadsTo_of_detour ordinary output.anchor output.parts below.parts
  rw [List.length_dropLast] at leads
  rwa [@Path.join_of_relative output document.parent isDocument.relative]

/-- From a file below the output directory the second path leads to a page that is named by the
document without its suffix. This is the page of the document exactly if its name has no suffix,
which is a dot within the name and what follows the last one. -/
theorem pagePath_of_document (isDocument : IsDocument document) {target output below : Path}
    (isBelow : target.relativeTo output = .ok below) (named : below.parts ≠ [])
    (ordinary : ".." ∉ below.parts) :
    ∃ toFile toPage, relativePaths document target output = .ok (toFile, toPage) ∧
      target.parent.LeadsTo toPage
        (output.join ⟨.relative, document.parts.dropLast ++ [document.stem ++ ".html"]⟩) ∧
      (target.parent.LeadsTo toPage (pageFile output document.text) ↔
        ¬ Path.EndsInSuffix document.name.toList) := by
  refine ⟨_, _, relativePaths_of_document isDocument isBelow, ?_⟩
  obtain ⟨_, rfl⟩ := Path.relativeTo_eq_ok_iff.mp isBelow
  have ordinaryAbove : ".." ∉ below.parts.dropLast :=
    fun member => ordinary ((List.dropLast_sublist _).subset member)
  have leads := Path.leadsTo_of_detour ordinaryAbove output.anchor output.parts
    (document.parts.dropLast ++ [document.stem ++ ".html"])
  rw [List.length_dropLast] at leads
  have isParent : Path.parent ⟨output.anchor, output.parts ++ below.parts⟩ =
      ⟨output.anchor, output.parts ++ below.parts.dropLast⟩ := by
    rw [Path.parent, List.dropLast_append_of_ne_nil named]
  rw [isParent, pageFile, isDocument.ofText_html, Path.join_of_relative rfl, Path.join_of_relative rfl,
    ← Path.stem_eq_name_iff]
  refine ⟨leads, ?_, fun same => same ▸ leads⟩
  intro leadsToo
  simp only [← List.append_assoc] at leads leadsToo
  have same := leads.name_unique leadsToo (html_ne _ (by decide)) (html_ne _ (by decide))
  exact (String.append_left_inj _).mp same

/-- The page of a document with a version in its name is missed. -/
theorem pagePath_of_version :
    let document : Path := ⟨.relative, ["guide", "v1.2"]⟩
    let output : Path := ⟨.absolute, ["out"]⟩
    let target : Path := ⟨.absolute, ["out", "src", "lib", "a.c"]⟩
    ∃ toFile toPage, relativePaths document target output = .ok (toFile, toPage) ∧
      (target.parent.join toPage).lexical = ⟨.absolute, ["out", "guide", "v1.html"]⟩ ∧
      pageFile output document.text = ⟨.absolute, ["out", "guide", "v1.2.html"]⟩ ∧
      ¬ target.parent.LeadsTo toPage (pageFile output document.text) := by
  intro document output target
  have isDocument : IsDocument document := ⟨rfl, by decide, by decide, by decide⟩
  obtain ⟨toFile, toPage, related, leads, missed⟩ :=
    @pagePath_of_document document isDocument target output ⟨.relative, ["src", "lib", "a.c"]⟩ rfl
      (by decide) (by decide)
  have isPage : output.join ⟨.relative, document.parts.dropLast ++ [document.stem ++ ".html"]⟩ =
      ⟨.absolute, ["out", "guide", "v1.html"]⟩ := by
    decide +kernel
  rw [isPage] at leads
  refine ⟨toFile, toPage, related, leads.resolved (by decide), by decide +kernel, ?_⟩
  rw [missed, not_not]
  exact ⟨['v', '1'], ['2'], by decide +kernel, by decide, by decide, by decide⟩

end Build

end Tracemark
