import Mathlib.Data.List.Induction
import Tracemark.Proofs.Build.Pages
import Tracemark.Proofs.Build.Requests

/-!
# Links back to needs

The links back from source files are those of the needs that were rendered since the pages were
last collected. Where several needs come from one line, the last of them counts. Collecting the
pages gives one page for each file with links, and leaves no links.
-/

set_option autoImplicit false

namespace Tracemark.Build

/-! ## Looking up links -/

theorem LineLinks.get?_put (line other : Int) (link : String) (links : LineLinks) :
    LineLinks.get? (LineLinks.put line link links) other =
      if other = line then some link else links.get? other := by
  induction links with
  | nil =>
      by_cases same : other = line
      · simp [LineLinks.put, LineLinks.get?, same]
      · simp [LineLinks.put, LineLinks.get?, same, Ne.symm same]
  | cons current rest ih =>
      unfold LineLinks.put
      by_cases here : current.1 = line
      · by_cases same : other = line
        · simp [LineLinks.get?, here, same]
        · simp [LineLinks.get?, here, same, Ne.symm same]
      · by_cases there : current.1 = other
        · have elsewhere : other ≠ line := there ▸ here
          simp [LineLinks.get?, there, elsewhere]
        · simpa [LineLinks.get?, here, there] using ih

theorem BackLinks.get?_put (file other : String) (line : Int) (link : String) (links : BackLinks) :
    BackLinks.get? (BackLinks.put file line link links) other =
      if other = file then some (LineLinks.put line link ((links.get? file).getD []))
      else links.get? other := by
  induction links with
  | nil =>
      by_cases same : other = file
      · simp [BackLinks.put, BackLinks.get?, LineLinks.put, same]
      · simp [BackLinks.put, BackLinks.get?, same, Ne.symm same]
  | cons current rest ih =>
      unfold BackLinks.put
      by_cases here : current.1 = file
      · by_cases same : other = file
        · simp [BackLinks.get?, here, same]
        · simp [BackLinks.get?, here, same, Ne.symm same]
      · by_cases there : current.1 = other
        · have elsewhere : other ≠ file := there ▸ here
          simp [BackLinks.get?, there, elsewhere]
        · simpa [BackLinks.get?, here, there] using ih

def BackLinks.lookUp (links : BackLinks) (file : String) (line : Int) : Option String :=
  (links.get? file).bind fun fileLinks => LineLinks.get? fileLinks line

theorem BackLinks.lookUp_put (file other : String) (line place : Int) (link : String)
    (links : BackLinks) :
    BackLinks.lookUp (BackLinks.put file line link links) other place =
      if other = file ∧ place = line then some link else links.lookUp other place := by
  unfold lookUp
  rw [get?_put]
  by_cases same : other = file
  · subst same
    rw [if_pos rfl, Option.bind_some, LineLinks.get?_put]
    cases links.get? other <;> simp [LineLinks.get?]
  · rw [if_neg same, if_neg fun both => same both.1]

/-! ## Rendered needs -/

/-- A need that was rendered: what it has in common with others, the source file and the row
that it comes from, and its fields. -/
structure RenderedNeed where
  rendering : Rendering
  file : Path
  row : Nat
  fields : Table Value

def needOf? (rendering : Rendering) (entry : Analysis.Entry) : Option RenderedNeed :=
  match entry.payload with
  | .need (first :: others) => some ⟨rendering, entry.file, entry.row, first :: others⟩
  | _ => none

theorem needOf?_eq_some {rendering : Rendering} {entry : Analysis.Entry} {need : RenderedNeed}
    (isNeed : needOf? rendering entry = some need) :
    need.rendering = rendering ∧ need.file = entry.file := by
  unfold needOf? at isNeed
  split at isNeed
  · cases isNeed
    exact ⟨rfl, rfl⟩
  · cases isNeed

namespace RenderedNeed

def target (need : RenderedNeed) : Except Fault Path :=
  need.rendering.targetOf need.file

def link (need : RenderedNeed) : Except Fault String := do
  let target ← need.target
  let (_, toPage) ← relativePaths (.ofText need.rendering.document) target need.rendering.output
  let id ← requiredField need.fields "id"
  return s!"{toPage.text}#{id.shown}"

/-- The need comes from a line of a file. Lines count from one. -/
def StandsAt (need : RenderedNeed) (file : String) (line : Int) : Prop :=
  ∃ target, need.target = .ok target ∧ target.text = file ∧ (need.row : Int) + 1 = line

/-- The source file and its copy can be read. -/
def IsCopied (need : RenderedNeed) (store : Store) : Prop :=
  store.HoldsText (need.rendering.source.join need.file) ∧
    ∃ target, need.target = .ok target ∧ store.HoldsText target

/-- The need is the last one of a journal that comes from a line. -/
def LastAt (need : RenderedNeed) (journal : List RenderedNeed) (file : String) (line : Int) : Prop :=
  ∃ earlier later, journal = earlier ++ need :: later ∧ need.StandsAt file line ∧
    ∀ other ∈ later, ¬ other.StandsAt file line

theorem lastAt_concat {need new : RenderedNeed} {journal : List RenderedNeed} {file : String}
    {line : Int} :
    need.LastAt (journal ++ [new]) file line ↔
      new.StandsAt file line ∧ need = new ∨
        ¬ new.StandsAt file line ∧ need.LastAt journal file line := by
  constructor
  · rintro ⟨earlier, later, divided, stands, last⟩
    rcases List.eq_nil_or_concat later with rfl | ⟨others, final, rfl⟩
    · obtain ⟨_, same⟩ := List.append_inj' divided rfl
      cases same
      exact .inl ⟨stands, rfl⟩
    · rw [List.concat_eq_append] at divided last
      rw [← List.cons_append, ← List.append_assoc] at divided
      obtain ⟨isJournal, same⟩ := List.append_inj' divided rfl
      cases same
      refine .inr ⟨last new (by simp), earlier, others, isJournal, stands, fun other member => ?_⟩
      exact last other (List.mem_append_left _ member)
  · rintro (⟨stands, rfl⟩ | ⟨elsewhere, earlier, later, rfl, stands, last⟩)
    · exact ⟨journal, [], rfl, stands, fun other member => absurd member List.not_mem_nil⟩
    · refine ⟨earlier, later ++ [new], by simp, stands, ?_⟩
      exact List.forall_mem_append.mpr ⟨last, List.forall_mem_singleton.mpr elsewhere⟩

theorem exists_lastAt {need : RenderedNeed} {journal : List RenderedNeed} {file : String} {line : Int}
    (member : need ∈ journal) (stands : need.StandsAt file line) :
    ∃ last : RenderedNeed, last.LastAt journal file line := by
  induction journal using List.reverseRecOn with
  | nil => cases member
  | append_singleton journal new ih =>
      by_cases here : new.StandsAt file line
      · exact ⟨new, lastAt_concat.mpr (.inl ⟨here, rfl⟩)⟩
      · have inJournal : need ∈ journal := by
          rcases List.mem_append.mp member with inJournal | isNew
          · exact inJournal
          · exact absurd (List.mem_singleton.mp isNew ▸ stands) here
        obtain ⟨last, isLast⟩ := ih inJournal
        exact ⟨last, lastAt_concat.mpr (.inr ⟨here, isLast⟩)⟩

end RenderedNeed

/-! ## Rendering -/

section

variable {state after : State} {journal : List RenderedNeed} {rendering : Rendering}
  {entry : Analysis.Entry}

/-- The links of a build are those of the needs of a journal, the last one for each line. -/
structure Tracks (state : State) (journal : List RenderedNeed) : Prop where
  copied : ∀ need ∈ journal, need.IsCopied state.session.store
  linked : ∀ need ∈ journal, ∃ link, need.link = .ok link
  lookUp : ∀ file line link, state.backLinks.lookUp file line = some link ↔
    ∃ need : RenderedNeed, need.LastAt journal file line ∧ need.link = .ok link
  files : ∀ file ∈ linkedFiles state.backLinks, ∃ need ∈ journal, ∃ target,
    need.target = .ok target ∧ target.text = file
  distinct : (linkedFiles state.backLinks).Nodup

namespace Tracks

theorem start (fresh : state.backLinks = []) : Tracks state [] where
  copied := by simp
  linked := by simp
  lookUp := by
    intro file line link
    simp [fresh, BackLinks.lookUp, BackLinks.get?, RenderedNeed.LastAt]
  files := by simp [fresh, linkedFiles]
  distinct := by simp [fresh, linkedFiles]

/-- What keeps the links and the texts keeps the journal. -/
theorem keep (tracks : Tracks state journal) (links : after.backLinks = state.backLinks)
    (store : state.session.store.Grows after.session.store) : Tracks after journal where
  copied := by
    intro need member
    obtain ⟨source, target, isTarget, holds⟩ := tracks.copied need member
    exact ⟨store.holdsText source, target, isTarget, store.holdsText holds⟩
  linked := tracks.linked
  lookUp := links ▸ tracks.lookUp
  files := links ▸ tracks.files
  distinct := links ▸ tracks.distinct

/-- A link to a rendered need takes the place of an earlier link of the same line. -/
theorem put (tracks : Tracks state journal) {need : RenderedNeed} {target : Path} {link : String}
    (isTarget : need.target = .ok target) (isLink : need.link = .ok link)
    (copied : need.IsCopied state.session.store)
    (links : after.backLinks = state.backLinks.put target.text (need.row + 1) link)
    (store : after.session.store = state.session.store) : Tracks after (journal ++ [need]) where
  copied := by
    rw [store]
    exact List.forall_mem_append.mpr ⟨tracks.copied, List.forall_mem_singleton.mpr copied⟩
  linked := List.forall_mem_append.mpr ⟨tracks.linked, List.forall_mem_singleton.mpr ⟨link, isLink⟩⟩
  lookUp := by
    intro file line other
    have stands : need.StandsAt file line ↔ file = target.text ∧ line = need.row + 1 := by
      simp only [RenderedNeed.StandsAt, isTarget, Except.ok.injEq, exists_eq_left']
      exact and_congr eq_comm eq_comm
    rw [links, BackLinks.lookUp_put]
    simp only [RenderedNeed.lastAt_concat]
    by_cases here : need.StandsAt file line
    · simp [if_pos (stands.mp here), here, isLink]
    · simp [if_neg (mt stands.mpr here), here, tracks.lookUp]
  files := by
    intro file member
    rw [links, mem_linkedFiles_put] at member
    rcases member with known | rfl
    · obtain ⟨other, inJournal, stands⟩ := tracks.files file known
      exact ⟨other, List.mem_append_left _ inJournal, stands⟩
    · exact ⟨need, by simp, target, isTarget, rfl⟩
  distinct := links ▸ nodup_linkedFiles_put _ _ _ tracks.distinct

theorem renderNeed (tracks : Tracks state journal) (linked : rendering.localField.truthy = true)
    {number : Option Nat} (ran : (renderNeed rendering entry).run.run state = (.ok number, after)) :
    Tracks after (journal ++ (needOf? rendering entry).toList) := by
  simp only [Build.renderNeed, Result.run_bind_eq_ok_iff, Step.run_ofExcept_eq_ok_iff] at ran
  obtain ⟨target, state, ⟨isTarget, rfl⟩, links, _, isLinked, remote, _, ⟨_, rfl⟩, ran⟩ := ran
  obtain ⟨toFile, toPage, store, isRelative, rfl, rfl, grows, source, holds⟩ :=
    localLinks_eq_ok linked isLinked
  have copies : Tracks { state with session := { state.session with store := store } } journal :=
    tracks.keep rfl grows
  unfold needOf?
  split at ran
  · rename_i payload
    rw [payload]
    cases ran
    simpa using copies
  · rename_i fields some payload
    obtain ⟨first, others, rfl⟩ := List.exists_cons_of_ne_nil some
    rw [payload]
    simp only [Result.run_bind_eq_ok_iff, Step.run_ofExcept_eq_ok_iff, Step.requestNeeds,
      Step.run_modify_eq_ok_iff, Step.run_get_eq_ok_iff, Step.run_pure_eq_ok_iff] at ran
    obtain ⟨request, _, ⟨_, rfl⟩, _, _, rfl, _, _, ⟨rfl, rfl⟩, id, _, ⟨isId, rfl⟩, _, _, rfl, rfl, rfl⟩ :=
      ran
    have isLink : RenderedNeed.link ⟨rendering, entry.file, entry.row, first :: others⟩ =
        .ok s!"{toPage.text}#{id.shown}" :=
      Result.bind_eq_ok_iff.mpr ⟨target, isTarget, Result.bind_eq_ok_iff.mpr ⟨_, isRelative,
        Result.bind_eq_ok_iff.mpr ⟨id, isId, rfl⟩⟩⟩
    exact copies.put isTarget isLink ⟨source, target, isTarget, holds⟩ rfl rfl
  · rename_i notNeed
    cases ran
    split
    · rename_i payload
      exact absurd payload (notNeed _)
    · simpa using copies

theorem renderNeeds (tracks : Tracks state journal) (linked : rendering.localField.truthy = true)
    {entries : List Analysis.Entry} {numbers : List Nat}
    (ran : (renderNeeds rendering entries).run.run state = (.ok numbers, after)) :
    Tracks after (journal ++ entries.filterMap (needOf? rendering)) := by
  induction entries generalizing state journal numbers with
  | nil =>
      cases ran
      simpa using tracks
  | cons entry rest ih =>
      simp only [Build.renderNeeds, Result.run_bind_eq_ok_iff] at ran
      obtain ⟨first, middle, ranFirst, others, _, ranRest, finished⟩ := ran
      cases finished
      have later := ih (tracks.renderNeed linked ranFirst) ranRest
      rw [List.append_assoc] at later
      cases isNeed : needOf? rendering entry with
      | none => simpa [isNeed] using later
      | some need => simpa [isNeed] using later

end Tracks

/-! ## Builds -/

/-- A build in which needs were rendered with local links, any number of times and between other
steps, and pages were collected. The journal has the needs that were rendered since. -/
inductive Reached : State → List RenderedNeed → Prop where
  | start {state : State} : state.backLinks = [] → Reached state []
  | render {state after : State} {journal : List RenderedNeed} {rendering : Rendering}
      {entries : List Analysis.Entry} {numbers : List Nat} :
      Reached state journal → rendering.localField.truthy = true →
      (renderNeeds rendering entries).run.run state = (.ok numbers, after) →
      Reached after (journal ++ entries.filterMap (needOf? rendering))
  | collect {state after : State} {journal : List RenderedNeed} {pages : List Page} :
      Reached state journal → collectPages.run.run state = (.ok pages, after) → Reached after []
  | other {state after : State} {journal : List RenderedNeed} :
      Reached state journal → after.backLinks = state.backLinks →
      state.session.store.Grows after.session.store → Reached after journal

theorem collectPages_eq_ok {pages : List Page}
    (ran : collectPages.run.run state = (.ok pages, after)) :
    after = { state with backLinks := [] } ∧
      state.backLinks.mapM (fun (file, links) =>
        pageOf state.session.store state.output file links) = .ok pages := by
  simp only [collectPages, Result.run_bind_eq_ok_iff, Step.run_get_eq_ok_iff,
    Step.run_ofExcept_eq_ok_iff, Step.run_modify_eq_ok_iff, Step.run_pure_eq_ok_iff] at ran
  obtain ⟨_, _, ⟨rfl, rfl⟩, _, _, ⟨collected, rfl⟩, _, _, rfl, rfl, rfl⟩ := ran
  exact ⟨rfl, collected⟩

theorem Reached.tracks (reached : Reached state journal) : Tracks state journal := by
  induction reached with
  | start fresh => exact .start fresh
  | render _ linked ran ih => exact ih.renderNeeds linked ran
  | collect _ ran ih =>
      obtain ⟨rfl, _⟩ := collectPages_eq_ok ran
      exact .start rfl
  | other _ links store ih => exact ih.keep links store

/-- The copies of files that directives render have pages. -/
theorem Tracks.exists_pages (tracks : Tracks state journal) (outputRead : state.output.IsRead)
    (fits : ∀ need ∈ journal, need.rendering.Fits state.output ∧ need.file.IsRead) :
    ∃ pages, state.backLinks.mapM (fun (file, links) =>
        pageOf state.session.store state.output file links) = .ok pages ∧
      pages.map Page.name = state.backLinks.map fun linked =>
        (seenOfCopy state.output linked.1).withoutSuffix.text := by
  refine Result.exists_mapM ?_
  rintro ⟨text, links⟩ member
  obtain ⟨need, inJournal, target, isTarget, rfl⟩ := tracks.files text (List.mem_map_of_mem member)
  obtain ⟨needFits, fileRead⟩ := fits need inJournal
  obtain ⟨rfl, below⟩ := copy_of_targetOf needFits isTarget
  obtain ⟨source, _, again, holds⟩ := tracks.copied need inJournal
  obtain rfl := Except.ok.inj (isTarget.symm.trans again)
  have isBelow := isBelow_of_holdsText needFits fileRead below source
  dsimp only
  rw [seenOfCopy_copy outputRead isBelow]
  exact exists_pageOf outputRead isBelow holds links

/-- The links back at any time of a build. A line of a file has a link exactly if a need that was
rendered since the last collection comes from it, and the link is that to the last such need.
Collecting pages gives one for each file with links and leaves no links. It comes to its end where
the needs are rendered as directives do it, and each page is then named as the file is seen. -/
theorem backLinks_of_reached (reached : Reached state journal) :
    (∀ file line, (state.backLinks.lookUp file line).isSome = true ↔
      ∃ need ∈ journal, need.StandsAt file line) ∧
    (∀ file line link, state.backLinks.lookUp file line = some link ↔
      ∃ need : RenderedNeed, need.LastAt journal file line ∧ need.link = .ok link) ∧
    (linkedFiles state.backLinks).Nodup ∧
    (∀ pages after, collectPages.run.run state = (.ok pages, after) →
      List.Forall₂ (fun linked page =>
        pageOf state.session.store state.output linked.1 linked.2 = .ok page) state.backLinks pages ∧
      after = { state with backLinks := [] }) ∧
    (state.output.IsRead →
      (∀ need ∈ journal, need.rendering.Fits state.output ∧ need.file.IsRead) →
      ∃ pages after, collectPages.run.run state = (.ok pages, after) ∧
        pages.map Page.name = state.backLinks.map fun linked =>
          (seenOfCopy state.output linked.1).withoutSuffix.text) := by
  have tracks := reached.tracks
  refine ⟨fun file line => ⟨fun isSome => ?_, ?_⟩, tracks.lookUp, tracks.distinct,
    fun pages after ran => ?_, fun outputRead fits => ?_⟩
  · obtain ⟨link, isLink⟩ := Option.isSome_iff_exists.mp isSome
    obtain ⟨need, ⟨earlier, later, rfl, stands, _⟩, _⟩ := (tracks.lookUp file line link).mp isLink
    exact ⟨need, by simp, stands⟩
  · rintro ⟨need, member, stands⟩
    obtain ⟨last, isLast⟩ := RenderedNeed.exists_lastAt member stands
    have inJournal : last ∈ journal := by
      obtain ⟨earlier, later, rfl, _⟩ := isLast
      simp
    obtain ⟨link, isLink⟩ := tracks.linked last inJournal
    exact Option.isSome_iff_exists.mpr ⟨link, (tracks.lookUp file line link).mpr ⟨last, isLast, isLink⟩⟩
  · obtain ⟨rfl, collected⟩ := collectPages_eq_ok ran
    exact ⟨Result.forall₂_of_mapM collected, rfl⟩
  · obtain ⟨pages, collected, names⟩ := tracks.exists_pages outputRead fits
    exact ⟨pages, _, collectPages_of_mapM collected, names⟩

/-! ## Directives -/

theorem addsStringLinks_prepareRendering [Libraries] (document : String) (line : Value)
    (traced : Traced) :
    (prepareRendering document line traced).AddsStringLinks := by
  refine Step.AddsStringLinks.bind (fun state => ⟨state.stringLinks, rfl⟩) fun current => ?_
  exact (addsStringLinks_prepareLocal _).bind fun _ =>
    (addsStringLinks_prepareRemote _ _ _).bind fun _ => Step.addsStringLinks_pure _

def Call.rendered [Libraries] (state : State) (call : Call) : List RenderedNeed :=
  match (call.prepare.run.run state).1 with
  | .ok (traced, rendering) => traced.run.needs.filterMap (needOf? rendering)
  | .error _ => []

/-- A directive that makes local links is a step of a build. -/
theorem Reached.call [Libraries] (reached : Reached state journal) (read : state.PathsRead)
    (links : state.linksLocally = true) {call : Call} {numbers : List Nat}
    (ran : call.run.run.run state = (.ok numbers, after)) :
    Reached after (journal ++ call.rendered state) ∧
      ∀ need ∈ call.rendered state, need.rendering.Fits state.output ∧ need.file.IsRead := by
  simp only [Call.run, directive, Result.run_bind_eq_ok_iff, Step.requestNeeds,
    Step.run_modify_eq_ok_iff] at ran
  obtain ⟨traced, found, isTraced, rendering, prepared, isPrepared, _, rendered, isRendered, _, _, rfl,
    finished⟩ := ran
  cases finished
  have isFound := isFound_of_traceProject read isTraced
  have traces := advances_of_traceProject isTraced
  obtain ⟨_, fits, prepares⟩ :=
    fits_of_prepareRendering (traces.linksLocally.trans links) isFound isPrepared
  have sameLinks : prepared.backLinks = state.backLinks := by
    obtain ⟨more, added⟩ := addsStringLinks_prepareRendering call.document call.line traced found
    rw [isPrepared] at added
    obtain rfl : prepared = { found with stringLinks := more } := added
    obtain ⟨_, _, _, _, _, _, _, _, _, _, _, _, _, _, _, _, _, _, _, rfl⟩ := traceProject_eq_ok isTraced
    rfl
  have isList : call.rendered state = traced.run.needs.filterMap (needOf? rendering) := by
    rw [Call.rendered, Call.prepare_eq_ok_iff.mpr ⟨found, isTraced, isPrepared⟩]
  rw [isList]
  constructor
  · have before := reached.other sameLinks (traces.store.trans prepares.store)
    exact .other (.render before fits.linked isRendered) rfl (.refl _)
  · intro need member
    obtain ⟨entry, inNeeds, isNeed⟩ := List.mem_filterMap.mp member
    obtain ⟨isRendering, isFile⟩ := needOf?_eq_some isNeed
    rw [isRendering, isFile, ← traces.output]
    exact ⟨fits, isFound.needs entry inNeeds⟩

/-- Two documents with the same need. The link goes to the later of them. -/
theorem backLinks_of_reached_twice :
    let state := buildOf [("p", ["s"])] [(["s", "a.c"], "// @T, I1")]
    let options : Value := .object [("project", .text "p"), ("file", .text "a.c")]
    let early : Call := ⟨options, "index", .int 1⟩
    let late : Call := ⟨options, "sub/other", .int 1⟩
    let middle := (early.run.run.run state).2
    let final := (late.run.run.run middle).2
    middle.backLinks.lookUp "/out/s/a.c" 1 = some "../index.html#I1" ∧
      final.backLinks.lookUp "/out/s/a.c" 1 = some "../sub/other.html#I1" ∧
      (∃ need : RenderedNeed, need.LastAt (early.rendered state ++ late.rendered middle) "/out/s/a.c" 1 ∧
        need.link = .ok "../sub/other.html#I1") ∧
      ∃ pages after, collectPages.run.run final = (.ok pages, after) ∧
        pages.map Page.name = ["s/a"] ∧ after.backLinks = [] := by
  intro state options early late middle final
  have first : (early.run.run.run state).1.toOption = some [1] := by decide +kernel
  have second : (late.run.run.run middle).1.toOption = some [3] := by decide +kernel
  have earlier : middle.backLinks.lookUp "/out/s/a.c" 1 = some "../index.html#I1" := by decide +kernel
  have later : final.backLinks.lookUp "/out/s/a.c" 1 = some "../sub/other.html#I1" := by
    decide +kernel
  have names : (final.backLinks.map fun linked =>
      (seenOfCopy final.output linked.1).withoutSuffix.text) = ["s/a"] := by
    decide +kernel
  have read : state.PathsRead :=
    ⟨by decide, by decide, by decide, yieldsRead_buildOf _ _, by decide +kernel⟩
  have ranFirst : early.run.run.run state = (.ok [1], middle) :=
    Result.eq_of_toOption_fst first
  have ranSecond : late.run.run.run middle = (.ok [3], final) :=
    Result.eq_of_toOption_fst second
  have linksLocally : state.linksLocally = true := by decide
  have fresh : state.backLinks = [] := rfl
  -- From here on the states are not evaluated any more.
  clear_value final middle state
  have advances := advances_of_directive read linksLocally ranFirst
  have middleRead := advances.pathsRead read
  have middleLinks := advances.linksLocally.trans linksLocally
  have finalOutput := (advances_of_directive middleRead middleLinks ranSecond).output
  obtain ⟨reachedFirst, fitsFirst⟩ := (Reached.start fresh).call read linksLocally ranFirst
  obtain ⟨reachedSecond, fitsSecond⟩ := reachedFirst.call middleRead middleLinks ranSecond
  obtain ⟨_, links, _, collected, ends⟩ := backLinks_of_reached reachedSecond
  obtain ⟨pages, after, isCollected, isNamed⟩ := ends (finalOutput ▸ middleRead.output) <| by
    rw [finalOutput]
    refine List.forall_mem_append.mpr ⟨fun need member => ?_, fitsSecond⟩
    rw [advances.output]
    exact fitsFirst need member
  obtain ⟨_, rfl⟩ := collected pages after isCollected
  exact ⟨earlier, later, (links _ _ _).mp later, pages, _, isCollected, isNamed.trans names, rfl⟩

end

end Tracemark.Build
