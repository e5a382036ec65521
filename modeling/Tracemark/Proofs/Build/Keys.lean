import Tracemark.Proofs.Build.Requests
import Tracemark.Proofs.Tracing.Acceptance
import Tracemark.Proofs.Value.Filled

/-!
# Keys that a directive looks up

Before it renders, a directive on a project that is ready to be traced finds all keys, except
those that the pattern of remote links asks for beyond the known ones.
-/

set_option autoImplicit false

namespace Tracemark

open Result (FindsKeys RunFindsKeys findsKeys_ok findsKeys_error runFindsKeys_pure
  findsKeys_run_bind)

/-! ## Discovery -/

theorem Discovery.findsKeys_patterns (settings : Settings) : FindsKeys (patterns settings) := by
  have finds : ∀ (value : Value) (next : List Value → Except Fault (List Value)),
      (∀ items, FindsKeys (next items)) →
        FindsKeys (if value.truthy then value.items >>= next else .ok [] >>= next) := by
    intro value next nextFinds
    split
    · exact value.findsKeys_items.bind fun items _ => nextFinds items
    · exact nextFinds []
  exact finds _ _ fun included => finds _ _ fun excluded => findsKeys_ok _

theorem Discovery.findsKeys_run {settings : Settings}
    (spoken : ∃ language, Language.ofSetting? settings.language = some language) (store : Store)
    (listing : Listing) : FindsKeys (run store listing settings).2 := by
  obtain ⟨language, isLanguage⟩ := spoken
  have known : Language.lookUp settings.language = .ok language := by
    rw [Language.lookUp, isLanguage]
  simp only [run, known]
  split
  · rename_i refused
    refine findsKeys_error ?_
    unfold Place.asPath at refused
    split at refused
    · cases refused
    · cases refused
      rfl
  · split
    · rename_i refused
      exact findsKeys_error (store.findsKeys_isDirectory _ _ refused)
    · exact findsKeys_ok _
    · split
      · rename_i refused
        refine findsKeys_error ?_
        exact findsKeys_patterns settings _ refused
      · refine FindsKeys.map (FindsKeys.bind (FindsKeys.filterM fun path _ => ?_) fun _ _ =>
          findsKeys_ok _) _
        exact (store.findsKeys_isFile path).bind fun _ _ => findsKeys_ok _

namespace Build

open Step

variable {state after : State}

/-! ## Tracing -/

theorem run_ofExcept_error {α : Type} (fault : Fault) :
    (Step.ofExcept (.error fault) : Step α).run.run state = (.error fault, state) := rfl

theorem findsKeys_ofExcept_bind {α β : Type} {result : Except Fault α} {second : α → Step β}
    (finds : FindsKeys result)
    (secondFinds : ∀ value, result = .ok value → FindsKeys ((second value).run.run state).1) :
    FindsKeys ((ofExcept result >>= second).run.run state).1 := by
  refine findsKeys_run_bind finds fun value middle ran => ?_
  obtain ⟨isValue, rfl⟩ := run_ofExcept_eq_ok_iff.mp ran
  exact secondFinds value isValue

theorem findsKeys_holds (value : Value) (word : String) : FindsKeys (value.holds word) := by
  cases value <;> first | exact findsKeys_ok _ | exact findsKeys_error rfl

theorem findsKeys_checkOptions (options : Value) : FindsKeys (checkOptions options) := by
  refine (findsKeys_holds _ _).bind fun named _ => ?_
  dsimp only
  split
  · exact findsKeys_error rfl
  · refine (findsKeys_holds _ _).bind fun _ _ => (findsKeys_holds _ _).bind fun _ _ => ?_
    split
    · exact findsKeys_error rfl
    · exact findsKeys_ok _

theorem findsKeys_membersOf (value : Value) : FindsKeys value.membersOf := by
  cases value <;> first | exact findsKeys_ok _ | exact findsKeys_error rfl

theorem runFindsKeys_setting (name : String) : RunFindsKeys (setting name) := by
  intro state fault failed
  have unknown : Tracing.Settings.get { host := some state.settings } name = .error fault := failed
  unfold Tracing.Settings.get at unknown
  dsimp only at unknown
  split at unknown
  · cases unknown
  · cases unknown
    rfl

theorem runFindsKeys_settingsDirectory : RunFindsKeys settingsDirectory := by
  refine runFindsKeys_get.bind fun _ => (runFindsKeys_setting _).bind fun setting => ?_
  split
  · exact runFindsKeys_pure _
  · split
    · exact fun _ => findsKeys_error rfl
    · exact runFindsKeys_pure _

theorem findsKeys_sourceDirectory (working base : Path) (settings : Discovery.Settings) :
    FindsKeys (sourceDirectory working base settings) := by
  unfold sourceDirectory
  split
  · exact Path.findsKeys_resolve _ _
  · exact findsKeys_error rfl

theorem findsKeys_optionPath (base : Path) (value : Value) : FindsKeys (optionPath base value) := by
  unfold optionPath
  split
  · exact findsKeys_ok _
  · exact findsKeys_error rfl

theorem findsKeys_sourceFiles {settings : Discovery.Settings}
    (spoken : ∃ language, Language.ofSetting? settings.language = some language) (store : Store)
    (listing : Discovery.Listing) (options : Members) (source : Path) :
    FindsKeys (sourceFiles store listing options source settings) := by
  unfold sourceFiles
  split
  · exact (findsKeys_optionPath _ _).bind fun path _ =>
      (path.findsKeys_resolve _).bind fun _ _ => findsKeys_ok _
  · have discovers : ∀ directory : Path, FindsKeys (do
        return (← (Discovery.run store listing { settings with directory := .path directory }).2).paths) := by
      intro directory
      exact (@Discovery.findsKeys_run { settings with directory := .path directory } spoken store
        listing).bind fun _ _ => findsKeys_ok _
    split
    · exact discovers source
    · exact discovers source
    · exact (findsKeys_optionPath _ _).bind fun directory _ => discovers directory

theorem findsKeys_repositoryPlace (working base : Path) (place : Place) :
    FindsKeys (repositoryPlace working base place) := by
  unfold repositoryPlace
  split
  · exact (Path.findsKeys_resolve _ _).bind fun _ _ => findsKeys_ok _
  · split
    · exact findsKeys_error rfl
    · exact findsKeys_ok _

theorem findsKeys_assignment {options project : Value} {setting : Tracing.Setting}
    {members : Tracing.ProjectMembers} {discovery : Discovery.Settings}
    {analysis : Analysis.Settings} {layout : OneLine.Layout} {objects : List Members}
    {wantRemote : Bool}
    (isSetting : Tracing.Settings.get { host := some state.settings } "projects" = .ok setting)
    (isProject : options.index "project" = .ok project)
    (found : projectMembers setting project = .ok members)
    (ready : Tracing.Project.Ready wantRemote members discovery analysis layout objects) :
    FindsKeys ((assignment options).run.run state).1 := by
  have isDiscovery : projectMember members "source_discover_config" = .ok (.discovery discovery) := by
    rw [projectMember, ready.discovered]
  have isAnalysis : projectMember members "analyse_config" = .ok (.analysis analysis) := by
    rw [projectMember, ready.analysed]
  unfold assignment
  refine findsKeys_ofExcept_bind (findsKeys_checkOptions options) fun _ _ => ?_
  refine findsKeys_ofExcept_bind (isProject ▸ findsKeys_ok _) fun _ again => ?_
  cases isProject.symm.trans again
  refine findsKeys_ofExcept_bind (findsKeys_membersOf options) fun named _ => ?_
  refine findsKeys_run_bind (runFindsKeys_setting "projects" _) fun _ _ looked => ?_
  obtain ⟨again, rfl⟩ := run_setting_eq_ok_iff.mp looked
  cases isSetting.symm.trans again
  refine findsKeys_ofExcept_bind (found ▸ findsKeys_ok _) fun _ again => ?_
  cases found.symm.trans again
  refine findsKeys_ofExcept_bind (isDiscovery ▸ findsKeys_ok _) fun _ again => ?_
  cases isDiscovery.symm.trans again
  -- The keys that remain are those of the members, so the state no longer matters.
  refine RunFindsKeys.bind runFindsKeys_settingsDirectory (fun base => ?_) _
  intro state
  refine findsKeys_ofExcept_bind (findsKeys_ok discovery) fun _ same => ?_
  cases same
  refine RunFindsKeys.bind runFindsKeys_get (fun current => ?_) _
  intro state
  refine findsKeys_ofExcept_bind (findsKeys_sourceDirectory _ _ _) fun source _ => ?_
  refine findsKeys_ofExcept_bind (findsKeys_sourceFiles ready.spoken _ _ _ _) fun files _ => ?_
  refine findsKeys_run_bind (findsKeys_ok ()) fun _ _ _ => ?_
  refine findsKeys_ofExcept_bind (isAnalysis ▸ findsKeys_ok _) fun _ again => ?_
  cases isAnalysis.symm.trans again
  refine findsKeys_ofExcept_bind (findsKeys_ok analysis) fun _ same => ?_
  cases same
  exact findsKeys_ofExcept_bind (findsKeys_repositoryPlace _ _ _) fun _ _ => findsKeys_ok _

/-! ## Preparing -/

/-- With accepted settings nothing is in the way of local links. -/
theorem exists_prepareLocal [Libraries]
    (accepted : Tracing.Settings.check { host := some state.settings } = .ok []) (output : Path) :
    ∃ field after, (prepareLocal output).run.run state = (.ok field, after) ∧
      field.truthy = state.linksLocally := by
  have schema := (Tracing.Settings.parts_of_check accepted).1
  obtain ⟨wanted, isWanted, _⟩ := Tracing.Settings.satisfies_of_checkSchema schema
    (show ("set_local_url", [.types [.boolean]]) ∈ Tracing.Settings.schemas by
      simp [Tracing.Settings.schemas])
  obtain ⟨given, isGiven, satisfied⟩ := Tracing.Settings.satisfies_of_checkSchema schema
    (show ("local_url_field", [.types [.string]]) ∈ Tracing.Settings.schemas by
      simp [Tracing.Settings.schemas])
  obtain ⟨name, isText⟩ := Schema.satisfies_string_iff.mp satisfied
  have links : state.linksLocally = (wanted.value.truthy && given.value.truthy) := by
    simp [State.linksLocally, isWanted, isGiven]
  have asked : (isSet "set_local_url").run.run state = (.ok wanted.value.truthy, state) :=
    Result.run_bind_of_ok (run_setting_eq_ok_iff.mpr ⟨isWanted, rfl⟩) _
  have prepared : (prepareLocal output).run.run state =
      (if wanted.value.truthy then do
        let field := (← setting "local_url_field").value
        addStringLink field (localStringLink output field)
        return field
      else return .null : Step Value).run.run state := Result.run_bind_of_ok asked _
  rw [prepared, links]
  cases wanted.value.truthy with
  | false => exact ⟨_, _, rfl, rfl⟩
  | true =>
      rw [if_pos rfl, Result.run_bind_of_ok (run_setting_eq_ok_iff.mpr ⟨isGiven, rfl⟩), isText]
      exact ⟨_, _, rfl, rfl⟩

/-- Remote links are wanted, and the pattern for them cannot be filled in for want of a key. -/
structure Traced.Lacks [Libraries] (traced : Traced) (settings : Tracing.SettingTable)
    (template : String) (key : Value) : Prop where
  wanted : ∃ setting, Tracing.Settings.get { host := some settings } "set_remote_url" =
    .ok setting ∧ setting.value.truthy = true
  pattern : traced.members.get? "remote_url_pattern" = some (.plain (.text template))
  notEmpty : template ≠ ""
  below : ∀ root, traced.run.repository = some root →
    ∃ place, traced.source.relativeTo root = .ok place
  unfilled : remoteAddress (.text template) traced.run.revision = .error (.missingKey key)

theorem not_mem_of_remoteValues {revision : Option String} {word : String}
    (unknown : (remoteValues revision).get? word = none) : word ∉ ["commit", "path", "line"] := by
  intro known
  simp only [List.mem_cons, List.not_mem_nil, or_false] at known
  rcases known with rfl | rfl | rfl <;> cases unknown

theorem runFindsKeys_addStringLink (field : Value) (link : StringLink) :
    RunFindsKeys (addStringLink field link) :=
  (runFindsKeys_ofExcept field.findsKeys_asKey).bind fun _ _ => findsKeys_ok ()

theorem linkRemote_misses_iff [Libraries] {template : String} {revision : Option String}
    {field : Value} {place : Path} {key : Value} :
    ((do
      let address ← Step.ofExcept (remoteAddress (.text template) revision)
      addStringLink field (remoteStringLink address field)
      return (field, some place) : Step (Value × Option Path)).run.run state).1 =
        .error (.missingKey key) ↔
      remoteAddress (.text template) revision = .error (.missingKey key) := by
  cases address : remoteAddress (.text template) revision with
  | error fault =>
      rw [Result.run_bind_of_error (run_ofExcept_error fault)]
      simp only [Except.error.injEq]
  | ok text =>
      constructor
      · intro failed
        have finds := (runFindsKeys_addStringLink field (remoteStringLink text field)).bind
          (fun _ => runFindsKeys_pure (field, some place)) state
        cases finds (.missingKey key) failed
      · intro failed
        cases failed

theorem exists_lacks_iff [Libraries] {traced : Traced} {settings : Tracing.SettingTable}
    {remote : Tracing.Setting}
    (isRemote : Tracing.Settings.get { host := some settings } "set_remote_url" = .ok remote)
    (wanted : remote.value.truthy = true) {template : String}
    (isPattern : traced.members.get? "remote_url_pattern" = some (.plain (.text template)))
    {key : Value} :
    (∃ other, traced.Lacks settings other key) ↔
      template ≠ "" ∧
        (∀ root, traced.run.repository = some root →
          ∃ place, traced.source.relativeTo root = .ok place) ∧
        remoteAddress (.text template) traced.run.revision = .error (.missingKey key) := by
  constructor
  · rintro ⟨other, lacks⟩
    cases isPattern.symm.trans lacks.pattern
    exact ⟨lacks.notEmpty, lacks.below, lacks.unfilled⟩
  · rintro ⟨notEmpty, below, unfilled⟩
    exact ⟨template, ⟨remote, isRemote, wanted⟩, isPattern, notEmpty, below, unfilled⟩

theorem prepareRemote_misses_iff [Libraries] {traced : Traced} {remote given : Tracing.Setting}
    (isRemote : Tracing.Settings.get { host := some state.settings } "set_remote_url" = .ok remote)
    (isGiven : Tracing.Settings.get { host := some state.settings } "remote_url_field" = .ok given)
    (hasPattern : remote.value.truthy = true →
      ∃ template, traced.members.get? "remote_url_pattern" = some (.plain (.text template)))
    {key : Value} :
    ((prepareRemote traced.members traced.source traced.run).run.run state).1 =
        .error (.missingKey key) ↔
      ∃ template, traced.Lacks state.settings template key := by
  have asked : (isSet "set_remote_url").run.run state = (.ok remote.value.truthy, state) :=
    Result.run_bind_of_ok (run_setting_eq_ok_iff.mpr ⟨isRemote, rfl⟩) _
  rw [prepareRemote, Result.run_bind_of_ok asked]
  cases wanted : remote.value.truthy with
  | false =>
      constructor
      · intro failed
        cases failed
      · rintro ⟨template, lacks⟩
        obtain ⟨setting, again, isTrue⟩ := lacks.wanted
        cases isRemote.symm.trans again
        rw [wanted] at isTrue
        cases isTrue
  | true =>
      obtain ⟨template, isPattern⟩ := hasPattern wanted
      have isMember : projectMember traced.members "remote_url_pattern" =
          .ok (.plain (.text template)) := by
        rw [projectMember, isPattern]
      rw [exists_lacks_iff isRemote wanted isPattern, if_pos rfl, isMember,
        Result.run_bind_of_ok (run_ofExcept_eq_ok_iff.mpr ⟨rfl, rfl⟩)]
      by_cases empty : template = ""
      · -- An empty pattern passes the check, but counts as none.
        subst empty
        constructor
        · intro failed
          cases failed
        · intro lacks
          exact absurd rfl lacks.1
      · have isTrue : (Tracing.ProjectMember.plain (.text template)).truthy = true := by
          simp [Tracing.ProjectMember.truthy, Value.truthy, empty]
        rw [if_pos isTrue, Result.run_bind_of_ok (run_setting_eq_ok_iff.mpr ⟨isGiven, rfl⟩)]
        cases located : traced.run.repository with
        | none =>
            refine linkRemote_misses_iff.trans ?_
            simp [empty]
        | some root =>
            dsimp only
            cases seen : traced.source.relativeTo root with
            | error fault =>
                -- The directive ends before the pattern is filled in.
                rw [Result.run_bind_of_error (run_ofExcept_error fault)]
                constructor
                · intro failed
                  cases failed
                  cases Path.findsKeys_relativeTo _ _ (.missingKey key) seen
                · rintro ⟨_, below, _⟩
                  obtain ⟨place, isPlace⟩ := below root rfl
                  cases seen.symm.trans isPlace
            | ok place =>
                rw [Result.run_bind_of_ok (run_ofExcept_eq_ok_iff.mpr ⟨rfl, rfl⟩)]
                refine linkRemote_misses_iff.trans ?_
                simp [empty, seen]

theorem prepareRendering_misses_iff [Libraries] {document : String} {line : Value} {traced : Traced}
    (accepted : Tracing.Settings.check { host := some state.settings } = .ok [])
    (hasPattern : ∀ remote,
      Tracing.Settings.get { host := some state.settings } "set_remote_url" = .ok remote →
      remote.value.truthy = true →
      ∃ template, traced.members.get? "remote_url_pattern" = some (.plain (.text template)))
    {key : Value} :
    ((prepareRendering document line traced).run.run state).1 = .error (.missingKey key) ↔
      ∃ template, traced.Lacks state.settings template key := by
  have schema := (Tracing.Settings.parts_of_check accepted).1
  obtain ⟨remote, isRemote, _⟩ := Tracing.Settings.satisfies_of_checkSchema schema
    (show ("set_remote_url", [.types [.boolean]]) ∈ Tracing.Settings.schemas by
      simp [Tracing.Settings.schemas])
  obtain ⟨given, isGiven, _⟩ := Tracing.Settings.satisfies_of_checkSchema schema
    (show ("remote_url_field", [.types [.string]]) ∈ Tracing.Settings.schemas by
      simp [Tracing.Settings.schemas])
  obtain ⟨field, prepared, isLocal, _⟩ := exists_prepareLocal accepted state.output
  obtain ⟨links, added⟩ := addsStringLinks_prepareLocal state.output state
  rw [isLocal] at added
  obtain rfl : prepared = { state with stringLinks := links } := added
  have misses := @prepareRemote_misses_iff { state with stringLinks := links } _ traced remote given
    isRemote isGiven (hasPattern remote isRemote) key
  rw [prepareRendering, Result.run_bind_of_ok (run_get_eq_ok_iff.mpr ⟨rfl, rfl⟩),
    Result.run_bind_of_ok isLocal, ← misses]
  rcases ran : (prepareRemote traced.members traced.source traced.run).run.run
    { state with stringLinks := links } with ⟨fault | remote, after⟩
  · rw [Result.run_bind_of_error ran]
    simp only [Except.error.injEq]
  · rw [Result.run_bind_of_ok ran]
    constructor <;> (intro failed; cases failed)

theorem localField_of_prepareRendering [Libraries]
    (accepted : Tracing.Settings.check { host := some state.settings } = .ok []) {document : String}
    {line : Value} {traced : Traced} {rendering : Rendering}
    (ran : (prepareRendering document line traced).run.run state = (.ok rendering, after)) :
    rendering.localField.truthy = state.linksLocally := by
  obtain ⟨field, prepared, isLocal, links⟩ := exists_prepareLocal accepted state.output
  rw [prepareRendering, Result.run_bind_of_ok (run_get_eq_ok_iff.mpr ⟨rfl, rfl⟩),
    Result.run_bind_of_ok isLocal] at ran
  obtain ⟨remote, _, _, finished⟩ := Result.run_bind_eq_ok_iff.mp ran
  cases finished
  exact links

end Build

end Tracemark
