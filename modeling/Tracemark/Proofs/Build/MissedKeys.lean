import Tracemark.Proofs.Analysis.Keys
import Tracemark.Proofs.Analysis.Places
import Tracemark.Proofs.Build.Keys
import Tracemark.Proofs.Build.Pages

/-!
# Keys that a directive misses

Where the configuration is accepted, a directive on a configured project finds all keys but
four: the protocols of a remote without a known host, the value of an unknown placeholder in
the pattern of remote links, what a placeholder there looks up by way of a member of its value,
and the identifier of a need that a page is linked back to.
-/

set_option autoImplicit false

namespace Tracemark.Build

open Step

variable {state after : State}

/-! ## Rendering -/

section Rendering

variable {rendering : Rendering} {entries : List Analysis.Entry}

theorem Rendering.Asks.isNeed {entry : Analysis.Entry} {request : NeedsRequest}
    (asks : rendering.Asks entry request) :
    ∃ type title fields, request = .need rendering.document rendering.line type title fields := by
  obtain ⟨fields, _, localLink, remote, _, _, _, _, made⟩ := asks
  simp only [needRequest, Result.bind_eq_ok_iff] at made
  obtain ⟨type, _, title, _, own, _, linked, _, members, _, finished⟩ := made
  cases finished
  exact ⟨_, _, members, rfl⟩

/-- Where all that rendering looks up is there, only an identifier can be missing. -/
theorem anonymous_of_renderNeeds (complete : ∀ entry ∈ entries, ¬ rendering.Lacks entry) {key : Value}
    (ran : (renderNeeds rendering entries).run.run state = (.error (.missingKey key), after)) :
    key = .text "id" ∧ rendering.localField.truthy = true ∧
      ∃ entry ∈ entries, fieldOf? entry "id" = none := by
  induction entries generalizing state with
  | nil => cases ran
  | cons entry rest ih =>
      obtain ⟨first, others⟩ := List.forall_mem_cons.mp complete
      rcases renderNeeds_cons_cases ran with
        ⟨fault, failed, same⟩ | ⟨number, middle, later, _, ranRest, same⟩
      · cases same
        cases ends_of_renderNeed failed with
        | failed kept lacks => exact absurd (lacks rfl) first
        | unlinked asks added linked unknown =>
            exact ⟨rfl, linked, entry, List.mem_cons_self, unknown⟩
      · have failed := Result.map_eq_error_iff.mp same.symm
        rw [failed] at ranRest
        obtain ⟨isKey, linked, other, member, unknown⟩ := ih others ranRest
        exact ⟨isKey, linked, other, List.mem_cons_of_mem _ member, unknown⟩

/-- Where no need has an identifier to link back to, rendering ends at the first need that is
asked for. -/
theorem asked_of_renderNeeds (complete : ∀ entry ∈ entries, ¬ rendering.Lacks entry)
    (linked : rendering.localField.truthy = true)
    (anonymous : ∀ entry ∈ entries, fieldOf? entry "id" = none) {result : Except Fault (List Nat)}
    (ran : (renderNeeds rendering entries).run.run state = (result, after)) :
    (after.needs = state.needs ∧ ∀ key, result ≠ .error (.missingKey key)) ∨
      ∃ type title fields,
        after.needs =
          state.needs ++ [.need rendering.document rendering.line type title fields] ∧
        result = .error (.missingKey (.text "id")) := by
  induction entries generalizing state result with
  | nil =>
      cases ran
      exact .inl ⟨rfl, nofun⟩
  | cons entry rest ih =>
      obtain ⟨first, others⟩ := List.forall_mem_cons.mp complete
      obtain ⟨noId, noIds⟩ := List.forall_mem_cons.mp anonymous
      rcases renderNeeds_cons_cases ran with
        ⟨fault, failed, rfl⟩ | ⟨number, middle, later, rendered, ranRest, rfl⟩
      · cases ends_of_renderNeed failed with
        | failed kept lacks =>
            refine .inl ⟨kept, ?_⟩
            intro key same
            cases same
            exact first (lacks rfl)
        | unlinked asks added =>
            obtain ⟨type, title, fields, rfl⟩ := asks.isNeed
            exact .inr ⟨type, title, fields, added, rfl⟩
      · cases ends_of_renderNeed rendered with
        | skipped empty kept =>
            rcases ih others noIds ranRest with ⟨keptRest, finds⟩ | ⟨type, title, fields, added, rfl⟩
            · refine .inl ⟨keptRest.trans kept, ?_⟩
              intro key same
              exact finds key (Result.map_eq_error_iff.mp same)
            · exact .inr ⟨type, title, fields, by rw [added, kept], rfl⟩
        | asked asks added known => exact absurd noId (known linked)

end Rendering

/-! ## Directives -/

/-- The ways in which a directive misses a key that the checks of a configuration do not ask
for. -/
inductive Call.Misses [Libraries] (call : Call) (state after : State) : Value → Prop where
  /-- The analysis comes to a link to a remote without a known host. -/
  | host {assigned : Assignment} {middle : State} {started : Analysis.Run}
      {failed session : Session} {address revision : String} {remote : Git.Remote}
      (assigns : (assignment call.options).run.run state = (.ok assigned, middle))
      (stopped : (Tracing.Analyses.runProject assigned.name assigned.settings).run.run state.session =
        (.error (.missingKey (.text "protocols")), failed))
      (starts : (Analysis.Run.start assigned.name assigned.settings).run.run state.session =
        (.ok started, session))
      (unhosted : (started.linkSource state.session.store.working).IsUnhosted address revision remote) :
      Misses call state after (.text "protocols")
  /-- The pattern of remote links has a placeholder without a value. -/
  | word {traced : Traced} {found : State} {template word : String}
      (traces : (traceProject call.options).run.run state = (.ok traced, found))
      (lacks : traced.Lacks state.settings template (.text word))
      (unknown : word ∉ ["commit", "path", "line"]) : Misses call state after (.text word)
  /-- A placeholder of the pattern has a value and goes on to a member, and the way from there ends
  at a missing key. -/
  | member {traced : Traced} {found : State} {template word : String} {value key : Value}
      {path : List Text.Template.Access} {specification : List Char}
      (traces : (traceProject call.options).run.run state = (.ok traced, found))
      (lacks : traced.Lacks state.settings template key)
      (known : (remoteValues traced.run.revision).get? word = some value)
      (goesOn : ∃ name, .member name ∈ path)
      (fails : (value.reach path >>= fun reached => reached.laidOut specification) =
        .error (.missingKey key)) : Misses call state after key
  /-- A need is asked for, and its page cannot be linked back to it. -/
  | identifier {traced : Traced} {rendering : Rendering} {prepared : State}
      {layout : OneLine.Layout} {objects : List Members} {type title : String} {fields : Members}
      (prepares : call.prepare.run.run state = (.ok (traced, rendering), prepared))
      (links : state.linksLocally = true)
      (styled : traced.run.settings.style.HasLayout layout objects)
      (anonymous : "id" ∉ layout.names)
      (asked : after.needs = state.needs ++ [.need call.document call.line type title fields]) :
      Misses call state after (.text "id")

theorem fieldOf?_eq_none_iff [Libraries] {options : Value} {traced : Traced}
    (traces : (traceProject options).run.run state = (.ok traced, after)) {layout : OneLine.Layout}
    {objects : List Members} (styled : traced.run.settings.style.HasLayout layout objects)
    {entry : Analysis.Entry} (member : entry ∈ traced.run.needs) {name : String}
    (notStart : name ≠ "start_column") (notEnd : name ≠ "end_column") :
    fieldOf? entry name = none ↔ name ∉ layout.names := by
  obtain ⟨assigned, _, session, _, ranProject, _⟩ := traceProject_eq_ok_iff.mp traces
  rw [Tracing.Analyses.settings_of_runProject ranProject] at styled
  obtain ⟨fields, payload, absent⟩ :=
    Tracing.Analyses.exists_fields_of_mem_needs styled ranProject member
  rw [fieldOf?, payload]
  exact absent name notStart notEnd

theorem traceProject_of_stopped [Libraries] {options : Value} {assigned : Assignment}
    {middle : State} {failed : Session} {fault : Fault}
    (assigns : (assignment options).run.run state = (.ok assigned, middle))
    (stopped : (Tracing.Analyses.runProject assigned.name assigned.settings).run.run middle.session =
      (.error fault, failed)) :
    (traceProject options).run.run state = (.error fault, { middle with session := failed }) := by
  rw [traceProject_eq, Result.run_bind_of_ok assigns]
  refine Result.run_bind_of_error ?_ _
  rw [run_inSession, stopped]

theorem run_of_untraced [Libraries] {call : Call} {fault : Fault}
    (untraced : (traceProject call.options).run.run state = (.error fault, after)) :
    call.run.run.run state = (.error fault, after) :=
  Result.run_bind_of_error untraced _

theorem run_of_unprepared [Libraries] {call : Call} {traced : Traced} {found : State}
    {fault : Fault} (traces : (traceProject call.options).run.run state = (.ok traced, found))
    (unprepared : (prepareRendering call.document call.line traced).run.run found =
      (.error fault, after)) : call.run.run.run state = (.error fault, after) := by
  rw [Call.run, directive, Result.run_bind_of_ok traces, Result.run_bind_of_error unprepared]

/-! ## Accepted configurations -/

/-- The directive is on a project that is ready to be traced, and the settings are accepted. -/
structure Call.IsReady [Libraries] (call : Call) (state : State) (members : Tracing.ProjectMembers)
    (discovery : Discovery.Settings) (analysis : Analysis.Settings) (layout : OneLine.Layout)
    (objects : List Members) : Prop where
  accepted : Tracing.Settings.check { host := some state.settings } = .ok []
  named : ∃ setting project,
    Tracing.Settings.get { host := some state.settings } "projects" = .ok setting ∧
      call.options.index "project" = .ok project ∧ projectMembers setting project = .ok members
  ready : ∃ remote,
    Tracing.Settings.get { host := some state.settings } "set_remote_url" = .ok remote ∧
      Tracing.Project.Ready remote.value.truthy members discovery analysis layout objects

namespace Call.IsReady

variable {call : Call} {members : Tracing.ProjectMembers} {discovery : Discovery.Settings}
  {analysis : Analysis.Settings} {layout : OneLine.Layout} {objects : List Members}
  {traced : Traced} {found prepared : State} {rendering : Rendering} {key : Value}

theorem of_assignment [Libraries]
    (isReady : call.IsReady state members discovery analysis layout objects)
    {assigned : Assignment} {middle : State}
    (assigns : (assignment call.options).run.run state = (.ok assigned, middle)) :
    assigned.members = members ∧ assigned.settings.style.HasLayout layout objects ∧
      (∃ files, assigned.settings.sources = .paths files) ∧
      ∃ dependencies, middle = { state with dependencies := dependencies } := by
  obtain ⟨setting, project, isSetting, isProject, isMembers⟩ := isReady.named
  obtain ⟨_, _, ready⟩ := isReady.ready
  obtain ⟨_, _, _, _, _, files, _, dependencies, sameSetting, sameProject, sameMembers, _, _, _, _,
    analysed, sources, style, isMiddle⟩ := assignment_eq_ok assigns
  cases isSetting.symm.trans sameSetting
  cases isProject.symm.trans sameProject
  cases isMembers.symm.trans sameMembers
  cases ready.analysed.symm.trans analysed
  exact ⟨rfl, style ▸ ready.style, ⟨files, sources⟩, dependencies, isMiddle⟩

theorem misses_of_traceProject [Libraries]
    (isReady : call.IsReady state members discovery analysis layout objects) {failed : State}
    (ran : (traceProject call.options).run.run state = (.error (.missingKey key), failed)) :
    call.Misses state after key := by
  obtain ⟨setting, project, isSetting, isProject, isMembers⟩ := isReady.named
  obtain ⟨_, _, ready⟩ := isReady.ready
  have finds := findsKeys_assignment isSetting isProject isMembers ready
  rw [traceProject_eq] at ran
  rcases Result.run_bind_cases ran with ⟨fault, unassigned, same⟩ | ⟨assigned, middle, assigns, ran⟩
  · cases same
    cases finds _ (congrArg Prod.fst unassigned)
  obtain ⟨_, styled, ⟨files, sources⟩, dependencies, rfl⟩ := isReady.of_assignment assigns
  rcases Result.run_bind_cases ran with ⟨fault, unrun, same⟩ | ⟨run, _, _, finished⟩
  · cases same
    rw [run_inSession] at unrun
    have stopped : (Tracing.Analyses.runProject assigned.name assigned.settings).run.run
        state.session = (.error (.missingKey key), _) := Prod.ext (Prod.mk.inj unrun).1 rfl
    obtain ⟨rfl, started, session, address, revision, remote, starts, unhosted⟩ :=
      Tracing.Analyses.isUnhosted_of_runProject (by rw [sources]; rfl) styled stopped
    exact .host assigns stopped starts unhosted
  · cases finished

theorem of_traceProject [Libraries]
    (isReady : call.IsReady state members discovery analysis layout objects)
    (traces : (traceProject call.options).run.run state = (.ok traced, found)) :
    traced.members = members ∧ found.settings = state.settings ∧
      traced.run.settings.style.HasLayout layout objects := by
  obtain ⟨assigned, _, session, assigns, ranProject, sameMembers, _, rfl⟩ :=
    traceProject_eq_ok_iff.mp traces
  obtain ⟨isMembers, styled, _, _, rfl⟩ := isReady.of_assignment assigns
  refine ⟨sameMembers.trans isMembers, rfl, ?_⟩
  rw [Tracing.Analyses.settings_of_runProject ranProject]
  exact styled

theorem unprepared_iff [Libraries]
    (isReady : call.IsReady state members discovery analysis layout objects)
    (traces : (traceProject call.options).run.run state = (.ok traced, found)) :
    ((prepareRendering call.document call.line traced).run.run found).1 = .error (.missingKey key) ↔
      ∃ template, traced.Lacks state.settings template key := by
  obtain ⟨remote, isRemote, ready⟩ := isReady.ready
  obtain ⟨isMembers, sameSettings, _⟩ := isReady.of_traceProject traces
  rw [← sameSettings]
  refine prepareRendering_misses_iff (sameSettings ▸ isReady.accepted) ?_
  intro other isOther wanted
  rw [sameSettings] at isOther
  cases isRemote.symm.trans isOther
  exact isMembers ▸ ready.pattern wanted

theorem linked_iff [Libraries]
    (isReady : call.IsReady state members discovery analysis layout objects)
    (prepares : call.prepare.run.run state = (.ok (traced, rendering), prepared)) :
    rendering.localField.truthy = true ↔ state.linksLocally = true := by
  obtain ⟨found, traces, isPrepared⟩ := Call.prepare_eq_ok_iff.mp prepares
  obtain ⟨_, sameSettings, _⟩ := isReady.of_traceProject traces
  rw [localField_of_prepareRendering (sameSettings ▸ isReady.accepted) isPrepared,
    State.linksLocally, State.linksLocally, sameSettings]

/-- Rendering finds the type and the title of every need, and the directory on the remote
side. -/
theorem not_lacks [Libraries]
    (isReady : call.IsReady state members discovery analysis layout objects)
    (prepares : call.prepare.run.run state = (.ok (traced, rendering), prepared)) :
    ∀ entry ∈ traced.run.needs, ¬ rendering.Lacks entry := by
  intro entry member
  obtain ⟨_, _, ready⟩ := isReady.ready
  obtain ⟨found, traces, isPrepared⟩ := Call.prepare_eq_ok_iff.mp prepares
  obtain ⟨_, _, styled⟩ := isReady.of_traceProject traces
  obtain ⟨_, _, _, remoteSource⟩ := remoteSource_of_prepareRendering isPrepared
  have present : ∀ name ∈ OneLine.Style.requiredNames, fieldOf? entry name ≠ none := by
    intro name required absent
    have notColumn : name ≠ "start_column" ∧ name ≠ "end_column" := by
      simp only [OneLine.Style.requiredNames, List.mem_cons, List.not_mem_nil, or_false] at required
      rcases required with rfl | rfl <;> decide
    rw [fieldOf?_eq_none_iff traces styled member notColumn.1 notColumn.2] at absent
    exact absent (ready.required name required)
  rintro (⟨wanted, unknown⟩ | ⟨_, noType | noTitle⟩)
  · obtain ⟨place, isPlace, _⟩ := remoteSource wanted
    cases unknown.symm.trans isPlace
  · exact present "type" (by decide) noType
  · exact present "title" (by decide) noTitle

theorem misses_of_renderNeeds [Libraries]
    (isReady : call.IsReady state members discovery analysis layout objects)
    (prepares : call.prepare.run.run state = (.ok (traced, rendering), prepared))
    (ran : call.run.run.run state = (.error (.missingKey key), after)) :
    call.Misses state after key := by
  obtain ⟨found, traces, isPrepared⟩ := Call.prepare_eq_ok_iff.mp prepares
  obtain ⟨_, _, styled⟩ := isReady.of_traceProject traces
  obtain ⟨isDocument, isLine, _, _⟩ := remoteSource_of_prepareRendering isPrepared
  obtain ⟨kept, rendered, isRendered, isAfter⟩ := renderNeeds_of_call prepares ran
  have complete := isReady.not_lacks prepares
  obtain ⟨rfl, linked, entry, member, noId⟩ := anonymous_of_renderNeeds complete isRendered
  -- All needs are read by one layout: if one has no identifier, none has.
  have absent : ∀ entry ∈ traced.run.needs, (fieldOf? entry "id" = none ↔ "id" ∉ layout.names) := by
    intro entry member
    exact fieldOf?_eq_none_iff traces styled member (by decide) (by decide)
  have anonymous := (absent entry member).mp noId
  rcases asked_of_renderNeeds complete linked (fun other isOther => (absent other isOther).mpr anonymous)
    isRendered with ⟨_, finds⟩ | ⟨type, title, fields, added, _⟩
  · exact absurd rfl (finds _)
  · have asked : after.needs = state.needs ++ [.need call.document call.line type title fields] := by
      rw [isAfter, added, kept, isDocument, isLine]
      exact List.append_nil _
    exact .identifier prepares ((isReady.linked_iff prepares).mp linked) styled anonymous asked

theorem misses_of_run [Libraries]
    (isReady : call.IsReady state members discovery analysis layout objects)
    (ran : call.run.run.run state = (.error (.missingKey key), after)) :
    call.Misses state after key := by
  rcases Result.run_bind_cases ran with ⟨fault, untraced, same⟩ | ⟨traced, found, traces, ranPrepare⟩
  · cases same
    exact isReady.misses_of_traceProject untraced
  rcases Result.run_bind_cases ranPrepare with
    ⟨fault, unprepared, same⟩ | ⟨rendering, prepared, isPrepared, _⟩
  · cases same
    obtain ⟨template, lacks⟩ := (isReady.unprepared_iff traces).mp (congrArg Prod.fst unprepared)
    cases Value.missesOnly_fill template key lacks.unfilled with
    | word unknown => exact .word traces lacks (not_mem_of_remoteValues unknown)
    | member known goesOn fails => exact .member traces lacks known goesOn fails
  · exact isReady.misses_of_renderNeeds (Call.prepare_eq_ok_iff.mpr ⟨found, traces, isPrepared⟩) ran

theorem missingKey_of_misses [Libraries]
    (isReady : call.IsReady state members discovery analysis layout objects)
    {result : Except Fault (List Nat)} (ran : call.run.run.run state = (result, after))
    (misses : call.Misses state after key) : result = .error (.missingKey key) := by
  cases misses with
  | host assigns stopped starts unhosted =>
      obtain ⟨_, _, _, _, rfl⟩ := isReady.of_assignment assigns
      cases ran.symm.trans (run_of_untraced (traceProject_of_stopped assigns stopped))
      rfl
  | word traces lacks =>
      have unprepared := (isReady.unprepared_iff traces).mpr ⟨_, lacks⟩
      cases ran.symm.trans (run_of_unprepared traces (Prod.ext unprepared rfl))
      rfl
  | member traces lacks =>
      have unprepared := (isReady.unprepared_iff traces).mpr ⟨_, lacks⟩
      cases ran.symm.trans (run_of_unprepared traces (Prod.ext unprepared rfl))
      rfl
  | identifier prepares links styled anonymous asked =>
      obtain ⟨found, traces, _⟩ := Call.prepare_eq_ok_iff.mp prepares
      obtain ⟨kept, rendered, isRendered, isAfter⟩ := renderNeeds_of_call prepares ran
      have noIds := fun entry (member : entry ∈ _) =>
        (fieldOf?_eq_none_iff traces styled member (by decide) (by decide)).mpr anonymous
      rcases asked_of_renderNeeds (isReady.not_lacks prepares) ((isReady.linked_iff prepares).mpr links)
        noIds isRendered with ⟨keptNeeds, _⟩ | ⟨_, _, _, _, rfl⟩
      · -- Without a need, at most the document is asked for.
        rw [isAfter, keptNeeds, kept, List.append_cancel_left_eq] at asked
        split at asked <;> cases asked
      · rfl

end Call.IsReady

/-- A configured project is found by its name. -/
theorem exists_projectMembers {entries : List (String × Tracing.Project)} {name : String}
    (configured : name ∈ entries.map (·.1))
    (areMembers : ∀ project, (name, project) ∈ entries → ∃ members, project = .members members) :
    ∃ members, (name, .members members) ∈ entries ∧
      projectMembers (.projects (.named entries)) (.text name) = .ok members := by
  obtain ⟨entry, member, rfl⟩ := List.mem_map.mp configured
  have isFound : (entries.find? fun other => (Value.text entry.1).same (.text other.1)).isSome = true :=
    List.find?_isSome.mpr ⟨entry, member, Value.same_text_iff.mpr rfl⟩
  obtain ⟨⟨name, project⟩, found⟩ := Option.isSome_iff_exists.mp isFound
  have sameName : entry.1 = name :=
    Value.text.inj (Value.same_text_iff.mp (by simpa using List.find?_some found))
  rw [sameName] at areMembers found ⊢
  have inEntries := List.mem_of_find?_eq_some found
  obtain ⟨members, rfl⟩ := areMembers project inEntries
  refine ⟨members, inEntries, ?_⟩
  simp only [projectMembers, Tracing.Setting.asProjects, found]

theorem Call.exists_isReady [Libraries] {call : Call} {given : Tracing.Projects}
    {entries : List (String × Tracing.Project)} {name : String}
    (accepted : Tracing.Settings.check { host := some state.settings } = .ok [])
    (isSetting : Tracing.Settings.get { host := some state.settings } "projects" =
      .ok (.projects (.named entries)))
    (generates : given.generate = (.named entries, none))
    (isProject : call.options.index "project" = .ok (.text name))
    (configured : name ∈ entries.map (·.1)) :
    ∃ members discovery analysis layout objects,
      call.IsReady state members discovery analysis layout objects := by
  have areReady := fun project (member : (name, project) ∈ entries) =>
    Tracing.Settings.exists_ready accepted isSetting generates member
  obtain ⟨members, member, isMembers⟩ := exists_projectMembers configured fun project member => by
    obtain ⟨members, _, _, _, _, _, isMembers, _⟩ := areReady project member
    exact ⟨members, isMembers⟩
  obtain ⟨_, discovery, analysis, layout, objects, remote, ⟨⟩, isRemote, ready⟩ := areReady _ member
  exact ⟨members, discovery, analysis, layout, objects, accepted,
    ⟨_, _, isSetting, isProject, isMembers⟩, remote, isRemote, ready⟩

/-- Where the configuration is accepted and a directive names a configured project, the keys that
the directive misses are those of a remote without a known host, of a placeholder without a
value, of what a placeholder looks up by way of a member, and of a need without an identifier. -/
theorem missingKey_iff_misses [Libraries] {call : Call} {given : Tracing.Projects}
    {entries : List (String × Tracing.Project)} {name : String} {result : Except Fault (List Nat)}
    (accepted : Tracing.Settings.check { host := some state.settings } = .ok [])
    (isSetting : Tracing.Settings.get { host := some state.settings } "projects" =
      .ok (.projects (.named entries)))
    (generates : given.generate = (.named entries, none))
    (isProject : call.options.index "project" = .ok (.text name))
    (configured : name ∈ entries.map (·.1))
    (ran : call.run.run.run state = (result, after)) (key : Value) :
    result = .error (.missingKey key) ↔ call.Misses state after key := by
  obtain ⟨members, discovery, analysis, layout, objects, isReady⟩ :=
    Call.exists_isReady accepted isSetting generates isProject configured
  constructor
  · intro missed
    rw [missed] at ran
    exact isReady.misses_of_run ran
  · intro misses
    exact isReady.missingKey_of_misses ran misses

def missedText? {α : Type} : Except Fault α → Option String
  | .error (.missingKey (.text word)) => some word
  | _ => none

theorem missedText?_eq_some {α : Type} {result : Except Fault α} {word : String}
    (missed : missedText? result = some word) : result = .error (.missingKey (.text word)) := by
  unfold missedText? at missed
  split at missed
  · cases missed
    rfl
  · cases missed

def projectOf (members : Members) : Tracing.Projects :=
  .ofValue (.object [("p",
    .object (("source_discover", .object [("src_dir", .text "src")]) :: members))])

/-- A build with one file and one project in a repository, where local and remote links are
made. -/
def configuredBuild (address : String) (members : Members) : State :=
  let build := buildOf [] [(["src", "a.c"], "// @T, I")]
  { build with
    session := Analysis.Run.inRepository address "4f2a" build.session
    settings :=
      [("src_trace_config_from_toml", .plain .null), ("src_trace_set_local_url", .plain (.bool true)),
        ("src_trace_local_url_field", .plain (.text "local-url")),
        ("src_trace_set_remote_url", .plain (.bool true)),
        ("src_trace_remote_url_field", .plain (.text "remote-url")),
        ("src_trace_outdir", .plain (.text "output")),
        ("src_trace_projects", .projects (projectOf members).generate.1)] }

/-- Each of the four causes occurs: a style with a title and a type only, a pattern with another
word, a pattern that looks up a member that texts do not have, and a remote at a host of one's
own. -/
theorem missed_keys_of_accepted_builds :
    let path : String × Value := ("remote_url_pattern", .text "\x7bpath\x7d")
    let style : Value := .object [("needs_fields",
      .list [.object [("name", .text "title")],
        .object [("name", .text "type"), ("default", .text "impl")]])]
    ∀ missed ∈
      [(configuredBuild "https://github.com/o/r.git"
          [path, ("analyse", .object [("oneline_comment_style", style)])], "id"),
        (configuredBuild "https://github.com/o/r.git"
          [("remote_url_pattern", .text "\x7bbranch\x7d/\x7bpath\x7d")], "branch"),
        (configuredBuild "https://github.com/o/r.git"
          [("remote_url_pattern", .text "\x7bpath.__class__.__dict__[foo]\x7d")], "foo"),
        (configuredBuild "http://example.org/o/r.git" [path], "protocols")],
      Tracing.Settings.check { host := some missed.1.settings } = .ok [] ∧
        ∃ after, (callOn "p" "a.c").run.run.run missed.1 =
            (.error (.missingKey (.text missed.2)), after) ∧
          (callOn "p" "a.c").Misses missed.1 after (.text missed.2) := by
  have applies : ∀ (address : String) (members : Members) (word : String),
      (Tracing.Settings.check { host := some (configuredBuild address members).settings }).toOption =
        some [] →
      (projectOf members).generate.2.isNone = true →
      missedText? ((callOn "p" "a.c").run.run.run (configuredBuild address members)).1 = some word →
      Tracing.Settings.check { host := some (configuredBuild address members).settings } = .ok [] ∧
        ∃ after, (callOn "p" "a.c").run.run.run (configuredBuild address members) =
            (.error (.missingKey (.text word)), after) ∧
          (callOn "p" "a.c").Misses (configuredBuild address members) after (.text word) := by
    intro address members word checked generated missed
    have accepted := Result.eq_ok_of_toOption checked
    rcases generates : (projectOf members).generate with ⟨projects, fault⟩
    rw [generates] at generated
    obtain rfl := Option.isNone_iff_eq_none.mp generated
    obtain ⟨own, entries, isOwn, rfl, related⟩ := Tracing.Projects.exists_named_of_generate generates
    have isSetting : Tracing.Settings.get { host := some (configuredBuild address members).settings }
        "projects" = .ok (.projects (.named entries)) := by
      have given : Tracing.Settings.get { host := some (configuredBuild address members).settings }
          "projects" = .ok (.projects (projectOf members).generate.1) := rfl
      rw [given, generates]
    have configured : "p" ∈ entries.map (·.1) := by
      cases isOwn
      cases related with
      | cons first _ => simp [first.1]
    have failed := missedText?_eq_some missed
    exact ⟨accepted, _, Prod.ext failed rfl,
      (missingKey_iff_misses accepted isSetting generates rfl configured rfl _).mp failed⟩
  intro path style missed member
  simp only [List.mem_cons, List.not_mem_nil, or_false] at member
  rcases member with rfl | rfl | rfl | rfl
  · exact applies _ _ _ (by decide +kernel) (by decide +kernel) (by decide +kernel)
  · exact applies _ _ _ (by decide +kernel) (by decide +kernel) (by decide +kernel)
  · exact applies _ _ _ (by decide +kernel) (by decide +kernel) (by decide +kernel)
  · exact applies _ _ _ (by decide +kernel) (by decide +kernel) (by decide +kernel)

end Tracemark.Build
