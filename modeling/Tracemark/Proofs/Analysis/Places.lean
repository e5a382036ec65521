import Mathlib
import Tracemark.Proofs.Analysis.Merging
import Tracemark.Proofs.Git.WebLink

/-!
# Links and places

Where files have pages, the link of an entry tells the file and the row of the entry, so
that entries with the same link stand in the same place.
-/

set_option autoImplicit false

namespace Tracemark.Analysis

/-- With an address and a revision, links are those to pages of files. -/
theorem LinkSource.webLink_of_link [Libraries] {source : LinkSource} {address revision : String}
    {file : Path} {line : Nat} {log : List Log.Record} {link : Option String}
    (addressed : source.address = some address) (revised : source.revision = some revision)
    (notEmpty : address ≠ "" ∧ revision ≠ "") (linked : source.link file line = (log, .ok link)) :
    ∃ text, link = some text ∧
      Git.webLink source.working address revision source.project file (toString line) =
        (log, .ok text) := by
  simp only [LinkSource.link, addressed, revised, String.isEmpty_iff, Bool.or_eq_true, notEmpty, or_self,
    if_false] at linked
  obtain ⟨logs, made⟩ := Prod.mk.inj linked
  obtain ⟨text, succeeded, rfl⟩ := Result.map_eq_ok_iff.mp made
  exact ⟨text, rfl, Prod.ext logs succeeded⟩

namespace Entry

/-- The link of the entry is the base, the path of its file from the root, and its line. -/
def IsLinked (base : String) (root : Path) (entry : Entry) : Prop :=
  ∃ relative, entry.file.relativeTo root = .ok relative ∧
    entry.link = some (Git.linkTo base relative.text.toList (toString (entry.row + 1)))

theorem place_of_link {base : String} {root : Path} {left right : Entry}
    (leftRead : left.file.IsRead) (rightRead : right.file.IsRead)
    (leftLinked : left.IsLinked base root) (rightLinked : right.IsLinked base root)
    (same : left.link = right.link) : left.file = right.file ∧ left.row = right.row := by
  obtain ⟨leftRelative, leftBelow, leftLink⟩ := leftLinked
  obtain ⟨rightRelative, rightBelow, rightLink⟩ := rightLinked
  rw [leftLink, rightLink] at same
  obtain ⟨texts, lines⟩ := Git.linkTo_inj (Option.some.inj same)
  have relatives : leftRelative = rightRelative := by
    rw [← (leftRead.relative leftBelow).ofText_text, ← (rightRead.relative rightBelow).ofText_text,
      String.toList_inj.mp texts]
  have files : left.file = right.file := by
    rw [(Path.relativeTo_eq_ok_iff.mp leftBelow).2, (Path.relativeTo_eq_ok_iff.mp rightBelow).2,
      relatives]
  have rows : left.row + 1 = right.row + 1 := Nat.repr_injective lines
  exact ⟨files, Nat.succ.inj rows⟩

end Entry

namespace Run

variable {session : Session} {language : Language} {run : Run} {paths : List Path}
  {address revision base : String} {remote : Git.Remote} {root : Path}

theorem Proceeds.isLinked_of_mem_content [Libraries]
    (proceeds : run.Proceeds session language paths)
    (rooted : session.store.working.isAbsolute = true) (located : run.repository = some root)
    (addressed : run.address = some address)
    (known : Libraries.remote? address.toList = some remote)
    (pages : remote.HasPages) (revised : run.revision = some revision)
    (notEmpty : address ≠ "" ∧ revision ≠ "")
    (isBase : Git.linkBase? remote revision = some base) {files : List (Path × Nat)}
    {warnings : List Warning} {entry : Entry}
    (member : entry ∈ (filled session language run paths files warnings).content) :
    entry.IsLinked base root := by
  obtain ⟨path, _, inFile, log, linked⟩ := proceeds.taken_of_mem_content member
  obtain ⟨text, isText, made⟩ := LinkSource.webLink_of_link addressed revised notEmpty linked
  obtain ⟨relative, below, isLink⟩ := Git.webLink_eq_ok known pages isBase made
  have absolute : entry.file.isAbsolute = true := inFile ▸ path.isAbsolute_absolute rooted
  rw [Path.absolute_of_isAbsolute absolute] at below
  simp only [linkSource, located, Option.getD_some] at below
  exact ⟨relative, below, isLink ▸ isText⟩

/-- On a host with pages for files and at a revision, the link of an entry is what belongs to
the remote and the revision, the encoded path of the file from the root, and the line. Entries
with the same link stand in the same row of the same file. An empty address has to be of no
remote, as it counts for none. -/
theorem links_of_runProject [Libraries] {name : String} {settings : Settings} {after : Session}
    (emptyUnknown : Libraries.remote? "".toList = none)
    (rooted : session.store.working.isAbsolute = true)
    (workingRead : session.store.working.IsRead) (lists : settings.sources.asPaths = .ok paths)
    (read : ∀ path ∈ paths, path.IsRead)
    (ran : (Tracing.Analyses.runProject name settings).run.run session = (.ok run, after))
    (addressed : run.address = some address)
    (known : Libraries.remote? address.toList = some remote)
    (pages : remote.HasPages) (revised : run.revision = some revision) (notEmpty : revision ≠ "") :
    ∃ root base, run.repository = some root ∧ Git.linkBase? remote revision = some base ∧
      (∀ entry ∈ run.content, ∃ relative encoded,
        entry.file.relativeTo root = .ok relative ∧
          entry.link = some (base ++ String.ofList encoded ++ "#L" ++ toString (entry.row + 1)) ∧
          '#' ∉ encoded ∧
          Url.Percent.decode encoded = some (Utf8.encode relative.text.toList)) ∧
      ∀ left ∈ run.content, ∀ right ∈ run.content, left.link = right.link →
        left.file = right.file ∧ left.row = right.row := by
  obtain ⟨started, middle, language, listed, isStarted, sameStore, proceeds, files, warnings, rfl⟩ :=
    Tracing.Analyses.exists_filled_of_runProject ran
  have startedBy := startedBy_of_start isStarted
  obtain rfl := startedBy.settings
  obtain rfl : paths = listed := Except.ok.inj (lists.symm.trans proceeds.lists)
  rw [← sameStore] at rooted workingRead
  obtain ⟨root, located⟩ : ∃ root, started.repository = some root := by
    refine Option.ne_none_iff_exists'.mp fun unlocated => ?_
    cases (startedBy.unaddressed unlocated).symm.trans addressed
  obtain ⟨base, isBase⟩ := pages.exists_linkBase revision
  have someAddress : address ≠ "" := by
    rintro rfl
    cases emptyUnknown.symm.trans known
  have linked : ∀ entry ∈ (filled middle language started paths files warnings).content,
      entry.IsLinked base root := fun entry member =>
    proceeds.isLinked_of_mem_content rooted located addressed known pages revised
      ⟨someAddress, notEmpty⟩ isBase member
  have isRead : ∀ entry ∈ (filled middle language started paths files warnings).content,
      entry.file.IsRead := by
    intro entry member
    obtain ⟨path, isListed, inFile, _⟩ := proceeds.taken_of_mem_content member
    exact inFile ▸ (read path isListed).absolute workingRead
  refine ⟨root, base, located, isBase, fun entry member => ?_, fun left inLeft right inRight same => ?_⟩
  · obtain ⟨relative, below, link⟩ := linked entry member
    exact ⟨relative, Url.Percent.encode relative.text.toList, below, link,
      Url.Percent.hash_not_mem_encode _, Url.Percent.decode_encode _⟩
  · exact Entry.place_of_link (isRead left inLeft) (isRead right inRight) (linked left inLeft)
      (linked right inRight) same

/-- The session with a repository at the top directory: its remote and its revision. -/
def inRepository (address revision : String) (session : Session) : Session :=
  let config := s!"[remote \"origin\"]\n\turl = {address}\n"
  let own : List (List String × Tracemark.Entry) :=
    [([".git"], .directory), ([".git", "config"], .file (Utf8.encode config.toList)),
      ([".git", "HEAD"], .file (Utf8.encode revision.toList))]
  { session with store := { session.store with entries := session.store.entries ++ own } }

/-- Entries of all kinds, in files whose names are not plain. -/
theorem links_of_unusual_names :
    let session := inRepository "https://github.com/o/r.git" "4f2a"
      (sessionOf [("é #1.c", "/*\n@rst x @endrst @need-ids: N, M\n*/"), ("100%.c", "// @need-ids: N")])
    let settings := askingAll ["é #1.c", "100%.c"]
    ∃ run after,
      (Tracing.Analyses.runProject "p" settings).run.run session = (.ok run, after) ∧
        (run.references ++ run.needs ++ run.blocks).map (·.link) =
          [some "https://github.com/o/r/blob/4f2a/%C3%A9%20%231.c#L2",
            some "https://github.com/o/r/blob/4f2a/100%25.c#L1",
            some "https://github.com/o/r/blob/4f2a/%C3%A9%20%231.c#L2",
            some "https://github.com/o/r/blob/4f2a/%C3%A9%20%231.c#L2"] ∧
        ∀ left ∈ run.content, ∀ right ∈ run.content, left.link = right.link →
          left.file = right.file ∧ left.row = right.row := by
  intro session settings
  have evaluated : (((Tracing.Analyses.runProject "p" settings).run.run session).1.map fun run =>
      (run.address, run.revision, (run.references ++ run.needs ++ run.blocks).map (·.link))).toOption =
      some (some "https://github.com/o/r.git", some "4f2a",
        [some "https://github.com/o/r/blob/4f2a/%C3%A9%20%231.c#L2",
          some "https://github.com/o/r/blob/4f2a/100%25.c#L1",
          some "https://github.com/o/r/blob/4f2a/%C3%A9%20%231.c#L2",
          some "https://github.com/o/r/blob/4f2a/%C3%A9%20%231.c#L2"]) := by
    decide +kernel
  have known : Libraries.remote? "https://github.com/o/r.git".toList =
      some ⟨.github, "o".toList, "r".toList⟩ := by
    decide +kernel
  obtain ⟨run, after, outcome, seen⟩ := Result.exists_ok_of_view evaluated
  simp only [Prod.mk.injEq] at seen
  obtain ⟨addressed, revised, links⟩ := seen
  obtain ⟨_, _, _, _, _, sameLink⟩ := links_of_runProject (by decide +kernel) (by decide)
    (by decide) rfl (by decide) outcome addressed known (.inl rfl) revised (by decide)
  exact ⟨run, after, outcome, links, sameLink⟩

end Run

end Tracemark.Analysis
