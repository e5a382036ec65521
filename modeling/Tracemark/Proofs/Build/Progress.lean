import Mathlib.Data.List.Nodup
import Tracemark.Proofs.Build.Traced
import Tracemark.Proofs.Store

/-!
# What directives add to a build

A directive copies the source files of its needs and links them, and keeps all that was
copied and linked before.
-/

set_option autoImplicit false

namespace Tracemark

namespace Action

variable {session after : Session} {result : Except Fault Unit}

/-- What a change did before a fault stays. -/
theorem run_changeStep {change : Store → Store × Option Fault}
    (ran : (changeStep change).run.run session = (result, after)) :
    after = { session with store := (change session.store).1 } := by
  rcases Result.run_bind_cases ran with ⟨_, failed, _⟩ | ⟨current, _, isCurrent, ran⟩
  · cases failed
  · cases isCurrent
    rcases Result.run_bind_cases ran with ⟨_, failed, _⟩ | ⟨_, middle, isSet, ran⟩
    · cases failed
    · cases isSet
      split at ran
      · cases ran
        rfl
      · cases ran
        rfl

theorem run_changeStore {change : Store → Except Fault Store}
    (ran : (changeStore change).run.run session = (result, after)) :
    (∃ fault, result = .error fault ∧ after = session) ∨
      ∃ store, change session.store = .ok store ∧ after = { session with store := store } := by
  rcases Result.run_bind_cases ran with ⟨_, failed, _⟩ | ⟨current, _, isCurrent, ran⟩
  · cases failed
  · cases isCurrent
    rcases Result.run_bind_cases ran with ⟨fault, failed, rfl⟩ | ⟨store, middle, isChanged, ran⟩
    · exact .inl ⟨fault, rfl, (congrArg Prod.snd failed).symm⟩
    · obtain ⟨changed, rfl⟩ := Prod.mk.inj isChanged
      cases ran
      exact .inr ⟨store, changed, rfl⟩

end Action

namespace Build

/-! ## Files with links -/

def linkedFiles (links : BackLinks) : List String :=
  links.map (·.1)

theorem linkedFiles_put (file : String) (line : Int) (link : String) (links : BackLinks) :
    linkedFiles (links.put file line link) =
      if file ∈ linkedFiles links then linkedFiles links else linkedFiles links ++ [file] := by
  induction links with
  | nil => simp [linkedFiles, BackLinks.put]
  | cons current rest ih =>
      simp only [linkedFiles, List.map_cons, List.mem_cons] at ih ⊢
      unfold BackLinks.put
      split
      · rename_i here
        simp [beq_iff_eq.mp here]
      · rename_i notHere
        have elsewhere : file ≠ current.1 := fun same => notHere (by simp [same])
        by_cases known : file ∈ rest.map (·.1)
        · simp [ih, elsewhere, known]
        · simp [ih, elsewhere, known]

theorem mem_linkedFiles_put {file other : String} {line : Int} {link : String} {links : BackLinks} :
    other ∈ linkedFiles (links.put file line link) ↔ other ∈ linkedFiles links ∨ other = file := by
  rw [linkedFiles_put]
  split
  · rename_i known
    exact ⟨.inl, fun either => either.elim id fun same => same ▸ known⟩
  · rw [List.mem_append, List.mem_singleton]

theorem nodup_linkedFiles_put (file : String) (line : Int) (link : String) {links : BackLinks}
    (distinct : (linkedFiles links).Nodup) : (linkedFiles (links.put file line link)).Nodup := by
  rw [linkedFiles_put]
  split
  · exact distinct
  · rename_i unknown
    refine List.nodup_append.mpr ⟨distinct, List.nodup_singleton _, fun known member new isNew same => ?_⟩
    exact unknown (List.mem_singleton.mp isNew ▸ same ▸ member)

/-! ## Progress of a build -/

/-- The state after a step is that before it with more directories, texts and links. The
files are those that the step copies and links. -/
structure Advances (before after : State) (files : List SourceFile) : Prop where
  settings : after.settings = before.settings
  output : after.output = before.output
  listing : after.listing = before.listing
  configuration : after.configurationDirectory = before.configurationDirectory
  store : before.session.store.Grows after.session.store
  copied : ∀ file ∈ files,
    file.IsBelow ∧ after.session.store.HoldsText (file.copy before.output)
  linked : ∀ text, text ∈ linkedFiles after.backLinks ↔
    text ∈ linkedFiles before.backLinks ∨ ∃ file ∈ files, (file.copy before.output).text = text
  distinct : (linkedFiles before.backLinks).Nodup → (linkedFiles after.backLinks).Nodup

/-- Local links are made: they are wanted, and there is a field for them. -/
def State.linksLocally (state : State) : Bool :=
  ["set_local_url", "local_url_field"].all fun name =>
    match Tracing.Settings.get { host := some state.settings } name with
    | .ok setting => setting.value.truthy
    | .error _ => false

namespace Advances

variable {before middle after : State} {early late : List SourceFile}

/-- Nothing is linked where the links stay the same. -/
theorem of_links (settings : after.settings = before.settings) (output : after.output = before.output)
    (listing : after.listing = before.listing)
    (configuration : after.configurationDirectory = before.configurationDirectory)
    (links : after.backLinks = before.backLinks)
    (store : before.session.store.Grows after.session.store) : Advances before after [] where
  settings := settings
  output := output
  listing := listing
  configuration := configuration
  store := store
  copied := by simp
  linked := by simp [links]
  distinct := links ▸ id

theorem refl (state : State) : Advances state state [] :=
  of_links rfl rfl rfl rfl rfl (.refl _)

theorem trans (first : Advances before middle early) (second : Advances middle after late) :
    Advances before after (early ++ late) where
  settings := second.settings.trans first.settings
  output := second.output.trans first.output
  listing := second.listing.trans first.listing
  configuration := second.configuration.trans first.configuration
  store := first.store.trans second.store
  copied := by
    intro file member
    rcases List.mem_append.mp member with inEarly | inLate
    · obtain ⟨isBelow, holds⟩ := first.copied file inEarly
      exact ⟨isBelow, second.store.holdsText holds⟩
    · exact first.output ▸ second.copied file inLate
  linked := by
    intro text
    rw [second.linked, first.linked, first.output, or_assoc]
    simp only [List.mem_append, or_and_right, exists_or]
  distinct := second.distinct ∘ first.distinct

theorem pathsRead (advances : Advances before after early) (read : before.PathsRead) :
    after.PathsRead where
  working := advances.store.working ▸ read.working
  configuration := advances.configuration ▸ read.configuration
  output := advances.output ▸ read.output
  listing := advances.listing ▸ read.listing
  locations := by
    have same : after.locations = before.locations := by
      simp only [State.locations, advances.settings]
    exact same ▸ read.locations

theorem linksLocally (advances : Advances before after early) :
    after.linksLocally = before.linksLocally := by
  simp only [State.linksLocally, advances.settings]

end Advances

/-! ## Preparing -/

namespace Step

variable {α β : Type}

/-- Only links of fields of needs are added. -/
def AddsStringLinks (step : Step α) : Prop :=
  ∀ state, ∃ links, (step.run.run state).2 = { state with stringLinks := links }

theorem addsStringLinks_pure (value : α) : AddsStringLinks (pure value : Step α) :=
  fun state => ⟨state.stringLinks, rfl⟩

theorem addsStringLinks_ofExcept (result : Except Fault α) : AddsStringLinks (ofExcept result) :=
  fun state => ⟨state.stringLinks, rfl⟩

theorem addsStringLinks_setting (name : String) : AddsStringLinks (setting name) :=
  fun state => ⟨state.stringLinks, rfl⟩

theorem AddsStringLinks.bind {first : Step α} {second : α → Step β}
    (firstAdds : first.AddsStringLinks) (secondAdds : ∀ value, (second value).AddsStringLinks) :
    (first >>= second).AddsStringLinks := by
  intro state
  obtain ⟨links, added⟩ := firstAdds state
  rw [ExceptT.run_bind, StateT.run_bind]
  rcases outcome : first.run.run state with ⟨result, middle⟩
  rw [outcome] at added
  cases result with
  | error fault => exact ⟨links, added⟩
  | ok value =>
      obtain ⟨more, isMore⟩ := secondAdds value middle
      exact ⟨more, isMore.trans (by rw [show middle = _ from added])⟩

theorem addsStringLinks_isSet (name : String) : AddsStringLinks (isSet name) :=
  (addsStringLinks_setting name).bind fun _ => addsStringLinks_pure _

theorem AddsStringLinks.advances {step : Step α} (adds : step.AddsStringLinks) {state after : State}
    {result : Except Fault α} (ran : step.run.run state = (result, after)) :
    Advances state after [] := by
  obtain ⟨links, isAfter⟩ := adds state
  rw [ran] at isAfter
  obtain rfl : after = { state with stringLinks := links } := isAfter
  exact .of_links rfl rfl rfl rfl rfl (.refl _)

end Step

section Preparing

open Step

theorem addsStringLinks_addStringLink (field : Value) (link : StringLink) :
    (addStringLink field link).AddsStringLinks :=
  (addsStringLinks_ofExcept _).bind fun _ _ => ⟨_, rfl⟩

theorem addsStringLinks_prepareLocal (output : Path) : (prepareLocal output).AddsStringLinks := by
  refine (addsStringLinks_isSet _).bind fun wanted => ?_
  cases wanted with
  | false => exact addsStringLinks_pure _
  | true =>
      exact (addsStringLinks_setting _).bind fun _ =>
        (addsStringLinks_addStringLink _ _).bind fun _ => addsStringLinks_pure _

theorem addsStringLinks_prepareRemote [Libraries] (members : Tracing.ProjectMembers) (source : Path)
    (run : Analysis.Run) : (prepareRemote members source run).AddsStringLinks := by
  refine (addsStringLinks_isSet _).bind fun wanted => ?_
  cases wanted with
  | false => exact addsStringLinks_pure _
  | true =>
      refine (addsStringLinks_ofExcept _).bind fun pattern => ?_
      dsimp only [if_true]
      split
      · refine (addsStringLinks_setting _).bind fun _ => ?_
        split
        · exact (addsStringLinks_ofExcept _).bind fun _ => (addsStringLinks_ofExcept _).bind fun _ =>
            (addsStringLinks_addStringLink _ _).bind fun _ => addsStringLinks_pure _
        · exact (addsStringLinks_pure _).bind fun _ => (addsStringLinks_ofExcept _).bind fun _ =>
            (addsStringLinks_addStringLink _ _).bind fun _ => addsStringLinks_pure _
      · exact addsStringLinks_pure _

variable {state after : State}

theorem exists_setting_of_linksLocally (links : state.linksLocally = true) {name : String}
    (member : name ∈ ["set_local_url", "local_url_field"]) :
    ∃ setting, Tracing.Settings.get { host := some state.settings } name = .ok setting ∧
      setting.value.truthy = true := by
  have wanted := List.all_eq_true.mp links name member
  split at wanted
  · rename_i setting found
    exact ⟨setting, found, wanted⟩
  · cases wanted

theorem truthy_prepareLocal (links : state.linksLocally = true) {output : Path} {field : Value}
    (ran : (prepareLocal output).run.run state = (.ok field, after)) : field.truthy = true := by
  obtain ⟨wanted, isWanted, wantedTrue⟩ :=
    exists_setting_of_linksLocally links List.mem_cons_self
  obtain ⟨given, isGiven, givenTrue⟩ :=
    exists_setting_of_linksLocally links (List.mem_cons_of_mem _ List.mem_cons_self)
  simp only [prepareLocal, isSet, Result.run_bind_eq_ok_iff, run_setting_eq_ok_iff,
    run_pure_eq_ok_iff] at ran
  obtain ⟨_, _, ⟨setting, _, ⟨isSetting, rfl⟩, rfl, rfl⟩, ran⟩ := ran
  obtain rfl : wanted = setting := Except.ok.inj (isWanted.symm.trans isSetting)
  rw [if_pos wantedTrue] at ran
  simp only [Result.run_bind_eq_ok_iff, run_setting_eq_ok_iff, run_pure_eq_ok_iff] at ran
  obtain ⟨_, _, ⟨isField, rfl⟩, _, _, _, rfl, _⟩ := ran
  obtain rfl := Except.ok.inj (isGiven.symm.trans isField)
  exact givenTrue

/-- What the needs of a directive have in common where local links are made. -/
structure Rendering.Fits (rendering : Rendering) (output : Path) : Prop where
  rooted : rendering.source.isAbsolute = true
  read : rendering.source.IsRead
  target : rendering.target = output.join (.ofText rendering.source.name)
  linked : rendering.localField.truthy = true

theorem fits_of_prepareRendering [Libraries] (links : state.linksLocally = true) {document : String}
    {line : Value} {traced : Traced} (found : traced.IsFound) {rendering : Rendering}
    (ran : (prepareRendering document line traced).run.run state = (.ok rendering, after)) :
    rendering.source = traced.source ∧ rendering.Fits state.output ∧ Advances state after [] := by
  simp only [prepareRendering, Result.run_bind_eq_ok_iff, run_get_eq_ok_iff] at ran
  obtain ⟨_, _, ⟨rfl, rfl⟩, field, prepared, isLocal, remote, finished, isRemote, ran⟩ := ran
  cases ran
  have localAdvances := (addsStringLinks_prepareLocal _).advances isLocal
  have remoteAdvances := (addsStringLinks_prepareRemote _ _ _).advances isRemote
  exact ⟨rfl, ⟨found.rooted, found.read, rfl, truthy_prepareLocal links isLocal⟩,
    localAdvances.trans remoteAdvances⟩

end Preparing

/-! ## Rendering -/

/-- The source file that an entry of a source directory contributes to the pages: that of a
need that has fields. -/
def contribution (source : Path) (entry : Analysis.Entry) : List SourceFile :=
  match entry.payload with
  | .need (_ :: _) => [⟨source, source.join entry.file⟩]
  | _ => []

section Rendering

variable {state after : State} {rendering : Rendering} {entry : Analysis.Entry}

theorem copy_of_targetOf {output file target : Path} (fits : rendering.Fits output)
    (found : rendering.targetOf file = .ok target) :
    target = SourceFile.copy output ⟨rendering.source, rendering.source.join file⟩ ∧
      ∃ rest, rendering.source.join file =
        ⟨rendering.source.anchor, rendering.source.parts ++ rest⟩ := by
  obtain ⟨relative, below, isTarget⟩ := Result.bind_eq_ok_iff.mp found
  cases isTarget
  obtain ⟨isRelative, isFile⟩ := Path.relativeTo_eq_ok_iff.mp below
  refine ⟨?_, relative.parts, isFile⟩
  rw [SourceFile.copy_eq, SourceFile.seen, isFile, fits.target, Path.ofText_name fits.read,
    List.drop_append_of_le_length (Nat.sub_le _ _)]
  simp [Path.join, Path.isAbsolute, isRelative]

theorem copyFile_eq_ok {file target : Path} {value : Unit}
    (ran : (copyFile file target).run.run state = (.ok value, after)) :
    ∃ store, after = { state with session := { state.session with store := store } } ∧
      state.session.store.Grows store ∧ store.HoldsText file ∧ store.HoldsText target := by
  simp only [copyFile, Result.run_bind_eq_ok_iff, Step.run_inSession_eq_ok_iff,
    Step.run_get_eq_ok_iff, Step.run_ofExcept_eq_ok_iff] at ran
  obtain ⟨_, _, ⟨made, isMade, rfl⟩, _, _, ⟨rfl, rfl⟩, text, _, ⟨isText, rfl⟩, written, isWritten,
    rfl⟩ := ran
  obtain rfl := Action.run_changeStep isMade
  rcases Action.run_changeStore isWritten with ⟨_, failed, _⟩ | ⟨store, writes, rfl⟩
  · cases failed
  · obtain ⟨grows, isWritten⟩ := Store.readText_of_write writes
    exact ⟨store, rfl, (Store.grows_makeDirectories _ _ _).trans grows,
      grows.holdsText ⟨text, isText⟩, _, isWritten⟩

/-- Local links come with the copy of the source file. -/
theorem localLinks_eq_ok (linked : rendering.localField.truthy = true) {target : Path}
    {links : Option (String × Path)}
    (ran : (localLinks rendering entry target).run.run state = (.ok links, after)) :
    ∃ toFile toPage store,
      relativePaths (.ofText rendering.document) target rendering.output = .ok (toFile, toPage) ∧
      links = some (linkName (linesPart entry.row entry.row) toFile, toPage) ∧
      after = { state with session := { state.session with store := store } } ∧
      state.session.store.Grows store ∧ store.HoldsText (rendering.source.join entry.file) ∧
      store.HoldsText target := by
  rw [localLinks, if_pos linked] at ran
  simp only [Result.run_bind_eq_ok_iff, Step.run_ofExcept_eq_ok_iff] at ran
  obtain ⟨_, _, copied, ⟨toFile, toPage⟩, _, ⟨isRelative, rfl⟩, finished⟩ := ran
  cases finished
  obtain ⟨store, rfl, grows, source, holds⟩ := copyFile_eq_ok copied
  exact ⟨toFile, toPage, store, isRelative, rfl, rfl, grows, source, holds⟩

theorem advances_of_localLinks (linked : rendering.localField.truthy = true) {target : Path}
    {links : Option (String × Path)}
    (ran : (localLinks rendering entry target).run.run state = (.ok links, after)) :
    links ≠ none ∧ Advances state after [] ∧
      after.session.store.HoldsText (rendering.source.join entry.file) ∧
      after.session.store.HoldsText target := by
  obtain ⟨_, _, store, _, rfl, rfl, grows, source, holds⟩ := localLinks_eq_ok linked ran
  exact ⟨Option.some_ne_none _, .of_links rfl rfl rfl rfl rfl grows, source, holds⟩

/-- A link to a source file whose copy is there. -/
theorem advances_of_put {file : SourceFile} (isBelow : file.IsBelow)
    (holds : state.session.store.HoldsText (file.copy state.output)) (needs : List NeedsRequest)
    (line : Int) (link : String) :
    Advances state
      { state with
        needs := needs
        backLinks := state.backLinks.put (file.copy state.output).text line link }
      [file] := by
  refine ⟨rfl, rfl, rfl, rfl, .refl _, ?_, fun text => ?_, nodup_linkedFiles_put _ _ _⟩
  · intro other member
    rw [List.mem_singleton.mp member]
    exact ⟨isBelow, holds⟩
  · simp only [mem_linkedFiles_put, List.mem_singleton, exists_eq_left]
    exact or_congr_right eq_comm

/-- A source file that holds a text has a name: the top directory does not. -/
theorem isBelow_of_holdsText {output file : Path} (fits : rendering.Fits output)
    (read : file.IsRead)
    (below : ∃ rest, rendering.source.join file =
      ⟨rendering.source.anchor, rendering.source.parts ++ rest⟩)
    {store : Store} (holds : store.HoldsText (rendering.source.join file)) :
    SourceFile.IsBelow ⟨rendering.source, rendering.source.join file⟩ := by
  refine ⟨read.absolute fits.read, below, fun unnamed => ?_⟩
  -- A file without a name would be the top directory, both as the source directory and as the file.
  obtain ⟨rest, isFile⟩ := below
  have short := List.drop_eq_nil_iff.mp unnamed
  have top : (rendering.source.join file).parts = [] := by
    simp only [isFile, List.length_append] at short ⊢
    have source : rendering.source.parts.length = 0 := by omega
    have others : rest.length = 0 := by omega
    rw [List.length_eq_zero_iff.mp source, List.length_eq_zero_iff.mp others, List.append_nil]
  have rooted : (rendering.source.join file).isAbsolute = true := by
    rw [isFile]
    exact fits.rooted
  exact Store.not_holdsText_top rooted top holds

theorem advances_of_renderNeed (fits : rendering.Fits state.output) (read : entry.file.IsRead)
    {number : Option Nat} (ran : (renderNeed rendering entry).run.run state = (.ok number, after)) :
    Advances state after (contribution rendering.source entry) := by
  simp only [renderNeed, Result.run_bind_eq_ok_iff, Step.run_ofExcept_eq_ok_iff] at ran
  obtain ⟨target, state, ⟨isTarget, rfl⟩, links, linked, isLinked, remote, linked, ⟨_, rfl⟩, ran⟩ := ran
  obtain ⟨isCopy, below⟩ := copy_of_targetOf fits isTarget
  obtain ⟨given, copies, source, holds⟩ := advances_of_localLinks fits.linked isLinked
  obtain ⟨address, rfl⟩ := Option.ne_none_iff_exists'.mp given
  unfold contribution
  split at ran
  · rename_i payload
    rw [payload]
    cases ran
    exact copies
  · rename_i fields some payload
    obtain ⟨first, others, rfl⟩ := List.exists_cons_of_ne_nil some
    rw [payload]
    simp only [Result.run_bind_eq_ok_iff, Step.run_ofExcept_eq_ok_iff, Step.requestNeeds,
      Step.run_modify_eq_ok_iff, Step.run_get_eq_ok_iff, Step.run_pure_eq_ok_iff] at ran
    obtain ⟨request, linked, ⟨_, rfl⟩, _, _, rfl, _, _, ⟨rfl, rfl⟩, id, _, ⟨_, rfl⟩, _, _, rfl, rfl, rfl⟩ :=
      ran
    have isBelow := isBelow_of_holdsText fits read below source
    rw [isCopy, ← copies.output] at holds ⊢
    exact copies.trans (advances_of_put isBelow holds _ _ _)
  · rename_i notNeed
    cases ran
    split
    · rename_i payload
      exact absurd payload (notNeed _)
    · exact copies

theorem advances_of_renderNeeds {entries : List Analysis.Entry} (fits : rendering.Fits state.output)
    (read : ∀ entry ∈ entries, entry.file.IsRead) {numbers : List Nat}
    (ran : (renderNeeds rendering entries).run.run state = (.ok numbers, after)) :
    Advances state after (entries.flatMap (contribution rendering.source)) := by
  induction entries generalizing state numbers with
  | nil =>
      cases ran
      exact .refl _
  | cons entry rest ih =>
      simp only [renderNeeds, Result.run_bind_eq_ok_iff] at ran
      obtain ⟨first, middle, ranFirst, others, _, ranRest, finished⟩ := ran
      cases finished
      obtain ⟨entryRead, restRead⟩ := List.forall_mem_cons.mp read
      have advances := advances_of_renderNeed fits entryRead ranFirst
      exact advances.trans (ih (advances.output.symm ▸ fits) restRead ranRest)

end Rendering

/-! ## Directives -/

structure Call where
  options : Value
  document : String
  line : Value

def Call.run [Libraries] (call : Call) : Step (List Nat) :=
  directive call.options call.document call.line

def Call.contributions [Libraries] (state : State) (call : Call) : List SourceFile :=
  match ((traceProject call.options).run.run state).1 with
  | .ok traced => traced.run.needs.flatMap (contribution traced.source)
  | .error _ => []

def contributed [Libraries] : State → List Call → List SourceFile
  | _, [] => []
  | state, call :: rest => call.contributions state ++ contributed (call.run.run.run state).2 rest

variable {state after : State}

theorem advances_of_traceProject [Libraries] {options : Value} {traced : Traced}
    (ran : (traceProject options).run.run state = (.ok traced, after)) : Advances state after [] := by
  obtain ⟨_, _, _, _, _, _, _, _, session, _, _, _, _, _, _, _, _, _, sameStore, rfl⟩ :=
    traceProject_eq_ok ran
  exact .of_links rfl rfl rfl rfl rfl (sameStore ▸ .refl _)

theorem advances_of_directive [Libraries] (read : state.PathsRead)
    (links : state.linksLocally = true)
    {call : Call} {numbers : List Nat} (ran : call.run.run.run state = (.ok numbers, after)) :
    Advances state after (call.contributions state) := by
  simp only [Call.run, directive, Result.run_bind_eq_ok_iff, Step.requestNeeds,
    Step.run_modify_eq_ok_iff] at ran
  obtain ⟨traced, found, isTraced, rendering, prepared, isPrepared, _, rendered, isRendered, _, _, rfl,
    finished⟩ := ran
  cases finished
  have isFound := isFound_of_traceProject read isTraced
  have traces := advances_of_traceProject isTraced
  obtain ⟨isSource, fits, prepares⟩ :=
    fits_of_prepareRendering (traces.linksLocally.trans links) isFound isPrepared
  have renders := advances_of_renderNeeds (prepares.output.symm ▸ fits) isFound.needs isRendered
  have contributions : call.contributions state =
      traced.run.needs.flatMap (contribution rendering.source) := by
    simp only [Call.contributions, isTraced, isSource]
  have notes : Advances rendered
      { rendered with needs := rendered.needs ++ [.document call.document] } [] :=
    .of_links rfl rfl rfl rfl rfl (.refl _)
  rw [contributions]
  simpa using (traces.trans prepares).trans (renders.trans notes)

theorem advances_of_calls [Libraries] (read : state.PathsRead) (links : state.linksLocally = true)
    {calls : List Call} {numbers : List (List Nat)}
    (ran : (calls.mapM Call.run).run.run state = (.ok numbers, after)) :
    Advances state after (contributed state calls) := by
  induction calls generalizing state numbers with
  | nil =>
      cases ran
      exact .refl _
  | cons call rest ih =>
      simp only [List.mapM_cons, Result.run_bind_eq_ok_iff] at ran
      obtain ⟨first, middle, ranFirst, others, _, ranRest, finished⟩ := ran
      cases finished
      have advances := advances_of_directive read links ranFirst
      -- What a directive needs of the state does not depend on what the one before it has added.
      have later := ih (advances.pathsRead read) (advances.linksLocally.trans links) ranRest
      rw [contributed, ranFirst]
      exact advances.trans later

end Build

end Tracemark
