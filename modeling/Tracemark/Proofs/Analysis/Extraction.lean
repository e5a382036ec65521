import Tracemark.Analysis.Extraction
import Tracemark.Proofs.Result

/-!
# What an extraction gathers

An extraction without a fault gathers, kind by kind and comment by comment, what
each comment holds for itself. An entry is of the kind under which it was gathered,
stands in the file of its comment, and is linked to its own line.
-/

set_option autoImplicit false

namespace Tracemark.Analysis

/-- The kinds of content, in the order in which a comment is searched for them. -/
inductive Kind where
  | reference
  | need
  | block
deriving Repr, DecidableEq

def Payload.kind : Payload → Kind
  | .reference .. => .reference
  | .need _ => .need
  | .block _ => .block

def Settings.wants (settings : Settings) : Kind → Bool
  | .reference => settings.wantReferences.truthy
  | .need => settings.wantNeeds.truthy
  | .block => settings.wantBlocks.truthy

def Settings.findings (settings : Settings) (file : Path) (startRow : Nat) (text : List Char) :
    Kind → Trail Finding
  | .reference => referenceFindings settings.references.markers text
  | .need => needFindings settings.style file startRow text
  | .block => blockFindings settings.blocks text

theorem Settings.kind_of_mem_findings {settings : Settings} {file : Path} {startRow : Nat}
    {text : List Char} {kind : Kind} {row startColumn endColumn : Nat} {payload : Payload}
    (member : .piece row startColumn endColumn payload ∈
      (settings.findings file startRow text kind).found) : payload.kind = kind := by
  cases kind with
  | reference =>
      obtain ⟨reference, _, made⟩ := List.mem_map.mp member
      cases made
      rfl
  | need =>
      obtain ⟨reading, _, made⟩ := List.mem_map.mp member
      cases reading with
      | warning row cause => cases made
      | need row need =>
          cases made
          rfl
  | block =>
      simp only [findings, blockFindings] at member
      split at member
      · cases member
      · cases member
      · obtain ⟨block, _, made⟩ := List.mem_map.mp member
        cases made
        rfl

/-! ## Entries of one comment -/

namespace CommentPlace

variable {place : CommentPlace}

theorem entry_eq_ok [Libraries] {row startColumn endColumn : Nat} {payload : Payload}
    {log : List Log.Record}
    {entry : Entry} (made : place.entry row startColumn endColumn payload = (log, .ok entry)) :
    ∃ link, place.source.link place.file (place.startRow + row + 1) = (log, .ok link) ∧
      entry = ⟨place.file, link, place.startRow + row, startColumn, endColumn, place.scope,
        payload⟩ := by
  obtain ⟨sameLog, mapped⟩ := Prod.mk.inj made
  obtain ⟨link, linked, rfl⟩ := Result.map_eq_ok_iff.mp mapped
  exact ⟨link, Prod.ext sameLog linked, rfl⟩

/-- Every entry comes of a finding. -/
theorem mem_gather [Libraries] {ending : Option Fault} {findings : List Finding} {entry : Entry}
    (member : entry ∈ (place.gather ending findings).entries) :
    ∃ row startColumn endColumn payload log,
      .piece row startColumn endColumn payload ∈ findings ∧
        place.entry row startColumn endColumn payload = (log, .ok entry) := by
  induction findings with
  | nil => cases member
  | cons finding rest ih =>
      cases finding with
      | warning warning =>
          obtain ⟨row, startColumn, endColumn, payload, log, inRest, made⟩ := ih member
          exact ⟨row, startColumn, endColumn, payload, log, List.mem_cons_of_mem _ inRest, made⟩
      | piece row startColumn endColumn payload =>
          simp only [gather] at member
          split at member
          · cases member
          · rename_i log first made
            rcases List.mem_cons.mp member with rfl | later
            · exact ⟨row, startColumn, endColumn, payload, log, List.mem_cons_self, made⟩
            · obtain ⟨row, startColumn, endColumn, payload, log, inRest, made⟩ := ih later
              exact ⟨row, startColumn, endColumn, payload, log, List.mem_cons_of_mem _ inRest, made⟩

def gatherKind [Libraries] (place : CommentPlace) (settings : Settings) (text : List Char)
    (kind : Kind) :
    Gathered :=
  place.gatherTrail
    (if settings.wants kind then settings.findings place.file place.startRow text kind else {})

theorem gatherKind_of_unwanted [Libraries] {settings : Settings} {kind : Kind}
    (unwanted : settings.wants kind = false) (text : List Char) :
    place.gatherKind settings text kind = {} := by
  simp [gatherKind, unwanted, gatherTrail, gather]

theorem exists_finding_of_mem_gatherKind [Libraries] {settings : Settings} {text : List Char}
    {kind : Kind} {entry : Entry} (member : entry ∈ (place.gatherKind settings text kind).entries) :
    ∃ row link log,
      .piece row entry.startColumn entry.endColumn entry.payload ∈
        (settings.findings place.file place.startRow text kind).found ∧
      place.source.link place.file (place.startRow + row + 1) = (log, .ok link) ∧
      entry = ⟨place.file, link, place.startRow + row, entry.startColumn, entry.endColumn, place.scope,
        entry.payload⟩ := by
  cases wanted : settings.wants kind with
  | false =>
      rw [gatherKind_of_unwanted wanted] at member
      cases member
  | true =>
      simp only [gatherKind, wanted, if_true] at member
      obtain ⟨row, startColumn, endColumn, payload, log, found, made⟩ := mem_gather member
      obtain ⟨link, linked, rfl⟩ := entry_eq_ok made
      exact ⟨row, link, log, found, linked, rfl⟩

theorem mem_gatherKind [Libraries] {settings : Settings} {text : List Char} {kind : Kind}
    {entry : Entry}
    (member : entry ∈ (place.gatherKind settings text kind).entries) :
    entry.payload.kind = kind ∧ entry.file = place.file ∧
      ∃ log, place.source.link place.file (entry.row + 1) = (log, .ok entry.link) := by
  obtain ⟨row, link, log, found, linked, isEntry⟩ := exists_finding_of_mem_gatherKind member
  rw [isEntry]
  exact ⟨Settings.kind_of_mem_findings found, rfl, log, linked⟩

end CommentPlace

/-! ## Extractions by kind -/

namespace Extraction

def ofKind (extraction : Extraction) : Kind → List Entry
  | .reference => extraction.references
  | .need => extraction.needs
  | .block => extraction.blocks

/-- The extraction of entries that are all of one kind. -/
def only : Kind → List Entry → Extraction
  | .reference, entries => { references := entries }
  | .need, entries => { needs := entries }
  | .block, entries => { blocks := entries }

theorem fault_followedBy_eq_none_iff {first : Extraction} {second : Unit → Extraction} :
    (first.followedBy second).fault = none ↔ first.fault = none ∧ (second ()).fault = none := by
  unfold followedBy
  split <;> simp_all

theorem mem_ofKind_followedBy {first : Extraction} {second : Unit → Extraction} {kind : Kind}
    {entry : Entry} (member : entry ∈ (first.followedBy second).ofKind kind) :
    entry ∈ first.ofKind kind ∨ entry ∈ (second ()).ofKind kind := by
  unfold followedBy at member
  split at member
  · exact .inl member
  · cases kind <;> exact List.mem_append.mp member

theorem mem_warnings_followedBy {first : Extraction} {second : Unit → Extraction}
    {warning : Warning} (member : warning ∈ (first.followedBy second).warnings) :
    warning ∈ first.warnings ∨ warning ∈ (second ()).warnings := by
  unfold followedBy at member
  split at member
  · exact .inl member
  · exact List.mem_append.mp member

theorem ofKind_followedBy {first : Extraction} (sound : first.fault = none)
    (second : Unit → Extraction) (kind : Kind) :
    (first.followedBy second).ofKind kind = first.ofKind kind ++ (second ()).ofKind kind := by
  cases kind <;> simp [followedBy, sound, ofKind]

end Extraction

theorem Gathered.ofKind_extraction {gathered : Gathered} (sound : gathered.fault = none)
    (kind other : Kind) :
    (gathered.extraction (Extraction.only kind)).ofKind other =
      if other = kind then gathered.entries else [] := by
  cases kind <;> cases other <;> simp [Gathered.extraction, sound, Extraction.only, Extraction.ofKind]

theorem Gathered.mem_ofKind_extraction {gathered : Gathered} {kind other : Kind} {entry : Entry}
    (member : entry ∈ (gathered.extraction (Extraction.only kind)).ofKind other) :
    other = kind ∧ entry ∈ gathered.entries := by
  cases failed : gathered.fault with
  | some fault =>
      simp only [Gathered.extraction, failed, Option.isSome_some, if_true] at member
      cases other <;> cases member
  | none =>
      rw [Gathered.ofKind_extraction failed] at member
      split at member
      · rename_i same
        exact ⟨same, member⟩
      · cases member

/-! ## One comment -/

/-- A comment in which content is looked for: it has a file, and a text that is not
empty. -/
structure Comment.Searched (comment : Comment) (file : Path) (text : List Char) : Prop where
  read : comment.text = .ok text
  notEmpty : text ≠ []
  located : comment.file = some file

section

variable {settings : Settings} {source : LinkSource} {language : Language} {comment : Comment}

def Comment.place (comment : Comment) (source : LinkSource) (language : Language) (file : Path) :
    CommentPlace :=
  ⟨source, file, comment.startRow, comment.cursor.scope language⟩

theorem Comment.Searched.extractComment_eq [Libraries] {file : Path} {text : List Char}
    (searched : comment.Searched file text) :
    extractComment settings source language comment =
      let part (kind : Kind) : Extraction :=
        ((comment.place source language file).gatherKind settings text kind).extraction
          (Extraction.only kind)
      (part .reference).followedBy fun _ => (part .need).followedBy fun _ => part .block := by
  cases text with
  | nil => exact absurd rfl searched.notEmpty
  | cons c rest =>
      simp only [extractComment, searched.read, searched.located]
      rfl

theorem Comment.Searched.fault_extractComment_eq_none_iff [Libraries] {file : Path}
    {text : List Char} (searched : comment.Searched file text) :
    (extractComment settings source language comment).fault = none ↔
      ∀ kind, ((comment.place source language file).gatherKind settings text kind).fault = none := by
  simp only [searched.extractComment_eq, Extraction.fault_followedBy_eq_none_iff]
  constructor
  · rintro ⟨references, needs, blocks⟩ kind
    cases kind
    · exact references
    · exact needs
    · exact blocks
  · intro each
    exact ⟨each .reference, each .need, each .block⟩

theorem Comment.Searched.ofKind_extractComment [Libraries] {file : Path} {text : List Char}
    (searched : comment.Searched file text)
    (sound : (extractComment settings source language comment).fault = none) (kind : Kind) :
    (extractComment settings source language comment).ofKind kind =
      ((comment.place source language file).gatherKind settings text kind).entries := by
  have each := searched.fault_extractComment_eq_none_iff.mp sound
  rw [searched.extractComment_eq]
  simp only
  rw [Extraction.ofKind_followedBy (each .reference), Extraction.ofKind_followedBy (each .need)]
  simp only [Gathered.ofKind_extraction (each _)]
  cases kind <;> simp

/-- Whether or not a fault ended the extraction, its entries are those of the comment. -/
theorem Comment.Searched.mem_ofKind_extractComment [Libraries] {file : Path} {text : List Char}
    (searched : comment.Searched file text) {kind : Kind} {entry : Entry}
    (member : entry ∈ (extractComment settings source language comment).ofKind kind) :
    entry ∈ ((comment.place source language file).gatherKind settings text kind).entries := by
  rw [searched.extractComment_eq] at member
  rcases Extraction.mem_ofKind_followedBy member with reference | member
  · obtain ⟨rfl, inGathered⟩ := Gathered.mem_ofKind_extraction reference
    exact inGathered
  rcases Extraction.mem_ofKind_followedBy member with need | block
  · obtain ⟨rfl, inGathered⟩ := Gathered.mem_ofKind_extraction need
    exact inGathered
  · obtain ⟨rfl, inGathered⟩ := Gathered.mem_ofKind_extraction block
    exact inGathered

theorem Comment.Searched.mem_warnings_extractComment [Libraries] {file : Path} {text : List Char}
    (searched : comment.Searched file text) {warning : Warning}
    (member : warning ∈ (extractComment settings source language comment).warnings) :
    ∃ kind, warning ∈
      ((comment.place source language file).gatherKind settings text kind).warnings := by
  rw [searched.extractComment_eq] at member
  rcases Extraction.mem_warnings_followedBy member with reference | member
  · exact ⟨.reference, reference⟩
  rcases Extraction.mem_warnings_followedBy member with need | block
  · exact ⟨.need, need⟩
  · exact ⟨.block, block⟩

/-- A comment with a text is one in which content is looked for, or holds nothing whatever the
settings ask for. -/
theorem searched_or_empty_of_text [Libraries] {text : List Char} (read : comment.text = .ok text) :
    (∃ file, comment.Searched file text) ∨
      ∀ others : Settings, extractComment others source language comment = {} := by
  cases text with
  | nil => exact .inr fun others => by simp [extractComment, read]
  | cons c rest =>
      cases located : comment.file with
      | none => exact .inr fun others => by simp [extractComment, read, located]
      | some file => exact .inl ⟨file, read, by simp, located⟩

/-- So it is with a comment that is extracted without a fault. -/
theorem searched_or_empty [Libraries]
    (sound : (extractComment settings source language comment).fault = none) :
    (∃ file text, comment.Searched file text) ∨
      ∀ others : Settings, extractComment others source language comment = {} := by
  cases read : comment.text with
  | error fault =>
      simp only [extractComment, read] at sound
      cases sound
  | ok text =>
      rcases searched_or_empty_of_text read with ⟨file, searched⟩ | empty
      · exact .inl ⟨file, text, searched⟩
      · exact .inr empty

/-- An entry of a comment: its kind, its file and its link. -/
structure FoundIn [Libraries] (source : LinkSource) (comment : Comment) (kind : Kind)
    (entry : Entry) :
    Prop where
  kind : entry.payload.kind = kind
  file : comment.file = some entry.file
  linked : ∃ log, source.link entry.file (entry.row + 1) = (log, .ok entry.link)

theorem foundIn_of_mem_extractComment [Libraries]
    (sound : (extractComment settings source language comment).fault = none) {kind : Kind}
    {entry : Entry}
    (member : entry ∈ (extractComment settings source language comment).ofKind kind) :
    FoundIn source comment kind entry := by
  rcases searched_or_empty sound with ⟨file, text, searched⟩ | empty
  · rw [searched.ofKind_extractComment sound] at member
    obtain ⟨ofKind, rfl, linked⟩ := CommentPlace.mem_gatherKind member
    exact ⟨ofKind, searched.located, linked⟩
  · rw [empty settings] at member
    cases kind <;> cases member

end

/-! ## All comments -/

section

variable {settings : Settings} {source : LinkSource} {language : Language}
  {comments : List Comment}

theorem fault_extractAll_eq_none_iff [Libraries] :
    (extractAll settings source language comments).fault = none ↔
      ∀ comment ∈ comments, (extractComment settings source language comment).fault = none := by
  induction comments with
  | nil => simp [extractAll]
  | cons comment rest ih =>
      simp [extractAll, Extraction.fault_followedBy_eq_none_iff, ih]

theorem ofKind_extractAll [Libraries]
    (sound : ∀ comment ∈ comments, (extractComment settings source language comment).fault = none)
    (kind : Kind) :
    (extractAll settings source language comments).ofKind kind =
      comments.flatMap fun comment =>
        (extractComment settings source language comment).ofKind kind := by
  induction comments with
  | nil => cases kind <;> rfl
  | cons comment rest ih =>
      obtain ⟨first, others⟩ := List.forall_mem_cons.mp sound
      rw [extractAll, Extraction.ofKind_followedBy first, ih others, List.flatMap_cons]

end

end Tracemark.Analysis
