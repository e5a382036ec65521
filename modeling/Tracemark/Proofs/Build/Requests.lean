import Tracemark.Proofs.Build.Progress
import Tracemark.Proofs.Keys
import Tracemark.Proofs.Value

/-!
# What directives ask for

A directive asks for its needs one after the other, up to the first that cannot be rendered.
-/

set_option autoImplicit false

namespace Tracemark

open Result (FindsKeys RunFindsKeys findsKeys_ok findsKeys_error)

namespace Build

/-! ## Steps that ask for nothing -/

namespace Step

variable {α β : Type}

/-- Nothing is asked of the extension for needs. -/
def KeepsNeeds (step : Step α) : Prop :=
  ∀ state, (step.run.run state).2.needs = state.needs

theorem keepsNeeds_pure (value : α) : KeepsNeeds (pure value : Step α) :=
  fun _ => rfl

theorem keepsNeeds_get : KeepsNeeds (get : Step State) :=
  fun _ => rfl

theorem keepsNeeds_ofExcept (result : Except Fault α) : KeepsNeeds (ofExcept result) :=
  fun _ => rfl

theorem keepsNeeds_inSession (action : Action α) : KeepsNeeds (inSession action) :=
  fun _ => rfl

theorem KeepsNeeds.bind {first : Step α} {second : α → Step β} (firstKeeps : first.KeepsNeeds)
    (secondKeeps : ∀ value, (second value).KeepsNeeds) : (first >>= second).KeepsNeeds := by
  intro state
  rcases ran : (first >>= second).run.run state with ⟨result, after⟩
  rcases Result.run_bind_cases ran with ⟨fault, failed, _⟩ | ⟨value, middle, isFirst, later⟩
  · have kept := firstKeeps state
    rwa [failed] at kept
  · have kept := secondKeeps value middle
    rw [later] at kept
    have keptFirst := firstKeeps state
    rw [isFirst] at keptFirst
    exact kept.trans keptFirst

theorem keepsNeeds_modify {change : State → State}
    (keeps : ∀ state, (change state).needs = state.needs) : KeepsNeeds (modify change : Step Unit) :=
  keeps

theorem needs_of_requestNeeds {wanted : NeedsRequest} {rest : Unit → Step α} {state after : State}
    {result : Except Fault α} (keeps : (rest ()).KeepsNeeds)
    (ran : (requestNeeds wanted >>= rest).run.run state = (result, after)) :
    after.needs = state.needs ++ [wanted] := by
  have asked : (requestNeeds wanted).run.run state =
      (.ok (), { state with needs := state.needs ++ [wanted] }) := rfl
  rw [Result.run_bind_of_ok asked] at ran
  have kept := keeps { state with needs := state.needs ++ [wanted] }
  rwa [ran] at kept

theorem AddsStringLinks.keepsNeeds {step : Step α} (adds : step.AddsStringLinks) :
    step.KeepsNeeds := by
  intro state
  obtain ⟨links, added⟩ := adds state
  rw [added]

theorem runFindsKeys_ofExcept {result : Except Fault α} (finds : FindsKeys result) :
    RunFindsKeys (ofExcept result) :=
  fun _ => finds

theorem runFindsKeys_get : RunFindsKeys (get : Step State) :=
  fun state => findsKeys_ok state

theorem runFindsKeys_inSession {action : Action α} (finds : RunFindsKeys action) :
    RunFindsKeys (inSession action) :=
  fun state => finds state.session

end Step

open Step

theorem keepsNeeds_copyFile (file target : Path) : (copyFile file target).KeepsNeeds :=
  (keepsNeeds_inSession _).bind fun _ => keepsNeeds_get.bind fun _ =>
    (keepsNeeds_ofExcept _).bind fun _ => keepsNeeds_inSession _

theorem keepsNeeds_localLinks (rendering : Rendering) (entry : Analysis.Entry) (target : Path) :
    (localLinks rendering entry target).KeepsNeeds := by
  unfold localLinks
  split
  · exact (keepsNeeds_copyFile _ _).bind fun _ =>
      (keepsNeeds_ofExcept _).bind fun _ => keepsNeeds_pure _
  · exact keepsNeeds_pure _

/-! ## Rendering without missing keys -/

theorem runFindsKeys_copyFile (file target : Path) : RunFindsKeys (copyFile file target) := by
  refine (runFindsKeys_inSession (Action.runFindsKeys_changeStep fun store _ failed => ?_)).bind
    fun _ => runFindsKeys_get.bind fun state => ?_
  · exact Store.fault_makeAbove failed
  · refine (runFindsKeys_ofExcept (Store.findsKeys_readText _ _)).bind fun text => ?_
    exact runFindsKeys_inSession (Action.runFindsKeys_changeStore fun store => store.findsKeys_write _ _)

theorem runFindsKeys_localLinks (rendering : Rendering) (entry : Analysis.Entry) (target : Path) :
    RunFindsKeys (localLinks rendering entry target) := by
  unfold localLinks
  split
  · refine (runFindsKeys_copyFile _ _).bind fun _ =>
      (runFindsKeys_ofExcept ?_).bind fun _ => Result.runFindsKeys_pure _
    refine (Path.findsKeys_relativeTo _ _).bind fun _ _ => ?_
    exact (Path.findsKeys_withSuffix _ _).bind fun _ _ => findsKeys_ok _
  · exact Result.runFindsKeys_pure _

theorem findsKeys_remoteLink {rendering : Rendering}
    (known : rendering.remoteField.truthy = true → rendering.remoteSource ≠ none)
    (entry : Analysis.Entry) (target : Path) : FindsKeys (remoteLink rendering entry target) := by
  unfold remoteLink
  split
  · rename_i wanted
    obtain ⟨remote, isRemote⟩ := Option.ne_none_iff_exists'.mp (known wanted)
    rw [isRemote]
    refine FindsKeys.bind ?_ fun _ _ => findsKeys_ok _
    exact (Path.findsKeys_relativeTo _ _).bind fun _ _ => findsKeys_ok _
  · exact findsKeys_ok _

theorem findsKeys_requiredField {fields : Table Value} {name : String}
    (present : fields.get? name ≠ none) : FindsKeys (requiredField fields name) := by
  obtain ⟨value, isValue⟩ := Option.ne_none_iff_exists'.mp present
  rw [requiredField, isValue]
  exact findsKeys_ok value

theorem findsKeys_putLink (field : Value) (link : Option String) (fields : Table Value) :
    FindsKeys (putLink field link fields) := by
  cases link with
  | none => exact findsKeys_ok _
  | some address => exact field.findsKeys_asKey.bind fun _ _ => findsKeys_ok _

theorem findsKeys_requestMember (field : Key × Value) : FindsKeys (requestMember field) := by
  unfold requestMember
  split
  · split
    · exact findsKeys_error rfl
    · exact findsKeys_ok _
  · exact findsKeys_error rfl

theorem findsKeys_needRequest (rendering : Rendering) {fields : Table Value}
    (typed : fields.get? "type" ≠ none) (titled : fields.get? "title" ≠ none)
    (localLink remoteLink : Option String) :
    FindsKeys (needRequest rendering fields localLink remoteLink) :=
  (findsKeys_requiredField typed).bind fun _ _ => (findsKeys_requiredField titled).bind fun _ _ =>
    (findsKeys_putLink _ _ _).bind fun _ _ => (findsKeys_putLink _ _ _).bind fun _ _ =>
      (FindsKeys.mapM fun field _ => findsKeys_requestMember field).bind fun _ _ => findsKeys_ok _

/-! ## Rendering a need -/

def fieldOf? (entry : Analysis.Entry) (name : String) : Option Value :=
  match entry.payload with
  | .need fields => fields.get? name
  | _ => none

def holdsFields (entry : Analysis.Entry) : Bool :=
  match entry.payload with
  | .need (_ :: _) => true
  | _ => false

namespace Rendering

/-- The request is the one for the need that the entry holds. -/
def Asks (rendering : Rendering) (entry : Analysis.Entry) (request : NeedsRequest) : Prop :=
  ∃ fields target localLink remote,
    entry.payload = .need fields ∧ fields ≠ [] ∧
      rendering.targetOf entry.file = .ok target ∧
      remoteLink rendering entry target = .ok remote ∧
      needRequest rendering fields localLink remote = .ok request

theorem Asks.holdsFields {rendering : Rendering} {entry : Analysis.Entry} {request : NeedsRequest}
    (asks : rendering.Asks entry request) : holdsFields entry = true := by
  obtain ⟨fields, _, _, _, payload, some, _⟩ := asks
  obtain ⟨first, others, rfl⟩ := List.exists_cons_of_ne_nil some
  simp [Build.holdsFields, payload]

/-- What rendering an entry has to look up is not all there. -/
def Lacks (rendering : Rendering) (entry : Analysis.Entry) : Prop :=
  (rendering.remoteField.truthy = true ∧ rendering.remoteSource = none) ∨
    (holdsFields entry = true ∧ (fieldOf? entry "type" = none ∨ fieldOf? entry "title" = none))

/-- How rendering an entry ends. -/
inductive Ends (rendering : Rendering) (entry : Analysis.Entry) (before after : State) :
    Except Fault (Option Nat) → Prop where
  | skipped (empty : holdsFields entry = false) (kept : after.needs = before.needs) :
      Ends rendering entry before after (.ok none)
  | failed {fault : Fault} (kept : after.needs = before.needs)
      (lacks : fault.isMissingKey = true → rendering.Lacks entry) :
      Ends rendering entry before after (.error fault)
  | asked {request : NeedsRequest} {number : Nat} (asks : rendering.Asks entry request)
      (added : after.needs = before.needs ++ [request])
      (known : rendering.localField.truthy = true → fieldOf? entry "id" ≠ none) :
      Ends rendering entry before after (.ok (some number))
  /-- The link back needs the identifier of the need. -/
  | unlinked {request : NeedsRequest} (asks : rendering.Asks entry request)
      (added : after.needs = before.needs ++ [request])
      (linked : rendering.localField.truthy = true) (unknown : fieldOf? entry "id" = none) :
      Ends rendering entry before after (.error (.missingKey (.text "id")))

end Rendering

variable {rendering : Rendering} {state after : State}

theorem isSome_of_localLinks {entry : Analysis.Entry} {target : Path}
    {links : Option (String × Path)}
    (ran : (localLinks rendering entry target).run.run state = (.ok links, after)) :
    links.isSome = rendering.localField.truthy := by
  unfold localLinks at ran
  split at ran
  · rename_i wanted
    simp only [Result.run_bind_eq_ok_iff] at ran
    obtain ⟨_, _, _, _, _, _, finished⟩ := ran
    cases finished
    exact wanted.symm
  · rename_i unwanted
    cases ran
    exact (Bool.eq_false_iff.mpr unwanted).symm

theorem ends_of_renderNeed {entry : Analysis.Entry} {result : Except Fault (Option Nat)}
    (ran : (renderNeed rendering entry).run.run state = (result, after)) :
    rendering.Ends entry state after result := by
  unfold renderNeed at ran
  rcases Result.run_bind_cases ran with ⟨fault, failed, rfl⟩ | ⟨target, targeted, found, ranLinks⟩
  · obtain ⟨untargeted, rfl⟩ := Prod.mk.inj failed
    have finds : FindsKeys (rendering.targetOf entry.file) :=
      (Path.findsKeys_relativeTo _ _).bind fun _ _ => findsKeys_ok _
    exact .failed rfl fun missing => absurd missing (by simp [finds fault untargeted])
  obtain ⟨isTarget, rfl⟩ := run_ofExcept_eq_ok_iff.mp found
  have keeps := keepsNeeds_localLinks rendering entry target targeted
  rcases Result.run_bind_cases ranLinks with ⟨fault, failed, rfl⟩ | ⟨links, linked, isLinked, ranRemote⟩
  · have finds := runFindsKeys_localLinks rendering entry target targeted fault
      (congrArg Prod.fst failed)
    rw [failed] at keeps
    exact .failed keeps fun missing => absurd missing (by simp [finds])
  rw [isLinked] at keeps
  have given := isSome_of_localLinks isLinked
  rcases Result.run_bind_cases ranRemote with ⟨fault, failed, rfl⟩ | ⟨remote, known, seen, ranNeed⟩
  · obtain ⟨unlinked, rfl⟩ := Prod.mk.inj failed
    refine .failed keeps fun missing => .inl ?_
    by_contra known
    have finds := @findsKeys_remoteLink rendering (fun wanted absent => known ⟨wanted, absent⟩)
      entry target fault unlinked
    simp [finds] at missing
  obtain ⟨isRemote, rfl⟩ := run_ofExcept_eq_ok_iff.mp seen
  split at ranNeed
  · rename_i payload
    cases ranNeed
    exact .skipped (by simp [holdsFields, payload]) keeps
  · rename_i fields some payload
    obtain ⟨first, others, isNeed⟩ := List.exists_cons_of_ne_nil some
    have field : ∀ name, fieldOf? entry name = fields.get? name := by
      intro name
      simp [fieldOf?, payload]
    cases made : needRequest rendering fields (links.map (·.1)) remote with
    | error fault =>
        rw [made] at ranNeed
        cases ranNeed
        refine .failed keeps fun missing => .inr ⟨by simp [holdsFields, payload, isNeed], ?_⟩
        by_contra present
        rw [field, field, not_or] at present
        simp [findsKeys_needRequest rendering present.1 present.2 _ _ fault made] at missing
    | ok request =>
        have asks : rendering.Asks entry request :=
          ⟨fields, target, _, remote, payload, some, isTarget, isRemote, made⟩
        -- The request is made before the identifier is looked up, so it stays when that fails.
        have added : known.needs ++ [request] = targeted.needs ++ [request] := by rw [keeps]
        rw [made] at ranNeed
        cases links with
        | none =>
            cases ranNeed
            exact .asked asks added fun linked => absurd (given.trans linked) (by simp)
        | some link =>
            cases id : fields.get? "id" with
            | none =>
                simp only [requiredField, id] at ranNeed
                cases ranNeed
                exact .unlinked asks added given.symm ((field "id").trans id)
            | some value =>
                simp only [requiredField, id] at ranNeed
                cases ranNeed
                exact .asked asks added fun _ => by simp [field, id]
  · rename_i notNeed
    cases ranNeed
    refine .skipped ?_ keeps
    unfold holdsFields
    split
    · rename_i payload
      exact absurd payload (notNeed _)
    · rfl

/-! ## Rendering all needs -/

theorem renderNeeds_cons_cases {entry : Analysis.Entry} {rest : List Analysis.Entry}
    {result : Except Fault (List Nat)}
    (ran : (renderNeeds rendering (entry :: rest)).run.run state = (result, after)) :
    (∃ fault, (renderNeed rendering entry).run.run state = (.error fault, after) ∧
        result = .error fault) ∨
      ∃ number middle later, (renderNeed rendering entry).run.run state = (.ok number, middle) ∧
        (renderNeeds rendering rest).run.run middle = (later, after) ∧
        result = later.map (number.toList ++ ·) := by
  rw [renderNeeds] at ran
  rcases Result.run_bind_cases ran with ⟨fault, failed, rfl⟩ | ⟨number, middle, rendered, ranRest⟩
  · exact .inl ⟨fault, failed, rfl⟩
  · refine .inr ⟨number, middle, ?_⟩
    rcases Result.run_bind_cases ranRest with ⟨fault, failed, rfl⟩ | ⟨others, last, renderedRest, done⟩
    · exact ⟨.error fault, rendered, failed, rfl⟩
    · cases done
      exact ⟨.ok others, rendered, renderedRest, rfl⟩

/-- The needs are asked for in order, and if all can be rendered, each of them is. What holds of a
need and its request whenever it is rendered holds of all of them. -/
theorem forall₂_of_renderNeeds {Related : Analysis.Entry → NeedsRequest → Prop}
    (each : ∀ {entry : Analysis.Entry} {state after : State} {result : Except Fault (Option Nat)}
      {request : NeedsRequest}, (renderNeed rendering entry).run.run state = (result, after) →
        after.needs = state.needs ++ [request] → Related entry request)
    {entries : List Analysis.Entry} {result : Except Fault (List Nat)}
    (ran : (renderNeeds rendering entries).run.run state = (result, after)) :
    ∃ asked requests, asked <+: entries.filter holdsFields ∧
      List.Forall₂ Related asked requests ∧ after.needs = state.needs ++ requests ∧
      (result.isOk = true → asked = entries.filter holdsFields) := by
  induction entries generalizing state result with
  | nil =>
      cases ran
      exact ⟨[], [], List.nil_prefix, .nil, (List.append_nil _).symm, fun _ => rfl⟩
  | cons entry rest ih =>
      rcases renderNeeds_cons_cases ran with
        ⟨fault, failed, rfl⟩ | ⟨number, middle, later, rendered, ranRest, rfl⟩
      · cases ends_of_renderNeed failed with
        | failed kept =>
            exact ⟨[], [], List.nil_prefix, .nil, kept.trans (List.append_nil _).symm, nofun⟩
        | unlinked asks added =>
            have holds := asks.holdsFields
            exact ⟨[entry], [_], by simp [holds], .cons (each failed added) .nil, added, nofun⟩
      · obtain ⟨asked, requests, isPrefix, related, needs, complete⟩ := ih ranRest
        cases ends_of_renderNeed rendered with
        | skipped empty kept =>
            rw [List.filter_cons_of_neg (by simp [empty])]
            exact ⟨asked, requests, isPrefix, related, needs.trans (by rw [kept]), fun done =>
              complete (Result.isOk_map later _ ▸ done)⟩
        | asked asks added =>
            rw [List.filter_cons_of_pos asks.holdsFields]
            refine ⟨entry :: asked, _ :: requests, (List.prefix_cons_inj entry).mpr isPrefix,
              .cons (each rendered added) related, by rw [needs, added, List.append_assoc]; rfl,
              fun done => ?_⟩
            rw [complete (Result.isOk_map later _ ▸ done)]

/-- A request is made from the fields of the need and its links. -/
theorem request_of_renderNeed {entry : Analysis.Entry} {result : Except Fault (Option Nat)}
    {request : NeedsRequest} (ran : (renderNeed rendering entry).run.run state = (result, after))
    (added : after.needs = state.needs ++ [request]) :
    ∃ fields target links linked remote, entry.payload = .need fields ∧ fields ≠ [] ∧
      rendering.targetOf entry.file = .ok target ∧
      (localLinks rendering entry target).run.run state = (.ok links, linked) ∧
      remoteLink rendering entry target = .ok remote ∧
      needRequest rendering fields (links.map (·.1)) remote = .ok request := by
  have notKept : after.needs ≠ state.needs := by simp [added]
  unfold renderNeed at ran
  rcases Result.run_bind_cases ran with ⟨fault, failed, rfl⟩ | ⟨target, targeted, found, ranLinks⟩
  · obtain ⟨_, rfl⟩ := Prod.mk.inj failed
    exact absurd rfl notKept
  obtain ⟨isTarget, rfl⟩ := run_ofExcept_eq_ok_iff.mp found
  have keeps := keepsNeeds_localLinks rendering entry target targeted
  rcases Result.run_bind_cases ranLinks with ⟨fault, failed, rfl⟩ | ⟨links, linked, isLinked, ranRemote⟩
  · rw [failed] at keeps
    exact absurd keeps notKept
  rw [isLinked] at keeps
  rcases Result.run_bind_cases ranRemote with ⟨fault, failed, rfl⟩ | ⟨remote, known, seen, ranNeed⟩
  · obtain ⟨_, rfl⟩ := Prod.mk.inj failed
    exact absurd keeps notKept
  obtain ⟨isRemote, rfl⟩ := run_ofExcept_eq_ok_iff.mp seen
  split at ranNeed
  · cases ranNeed
    exact absurd keeps notKept
  · rename_i fields some payload
    rcases Result.run_bind_cases ranNeed with ⟨fault, failed, rfl⟩ | ⟨made, _, makes, ranRest⟩
    · obtain ⟨_, rfl⟩ := Prod.mk.inj failed
      exact absurd keeps notKept
    obtain ⟨isMade, rfl⟩ := run_ofExcept_eq_ok_iff.mp makes
    have asked := needs_of_requestNeeds ?_ ranRest
    · rw [keeps, added] at asked
      obtain rfl : request = made := by simpa using asked
      exact ⟨fields, target, links, _, remote, payload, some, isTarget, isLinked, isRemote, isMade⟩
    · refine keepsNeeds_get.bind fun current => ?_
      cases links with
      | none => exact keepsNeeds_pure _
      | some link =>
          refine (keepsNeeds_ofExcept _).bind fun id => ?_
          refine KeepsNeeds.bind (keepsNeeds_modify ?_) fun _ => keepsNeeds_pure _
          exact fun _ => rfl
  · cases ranNeed
    exact absurd keeps notKept

theorem asks_of_renderNeed {entry : Analysis.Entry} {result : Except Fault (Option Nat)}
    {request : NeedsRequest} (ran : (renderNeed rendering entry).run.run state = (result, after))
    (added : after.needs = state.needs ++ [request]) : rendering.Asks entry request := by
  obtain ⟨fields, target, links, _, remote, payload, some, isTarget, _, isRemote, made⟩ :=
    request_of_renderNeed ran added
  exact ⟨fields, target, _, remote, payload, some, isTarget, isRemote, made⟩

theorem requests_of_renderNeeds {entries : List Analysis.Entry} {result : Except Fault (List Nat)}
    (ran : (renderNeeds rendering entries).run.run state = (result, after)) :
    ∃ asked requests, asked <+: entries.filter holdsFields ∧
      List.Forall₂ rendering.Asks asked requests ∧ after.needs = state.needs ++ requests ∧
      (result.isOk = true → asked = entries.filter holdsFields) :=
  forall₂_of_renderNeeds asks_of_renderNeed ran

/-! ## The directory on the remote side -/

/-- Where remote links are made, the source directory has a place below the repository. -/
theorem remoteSource_of_prepareRemote [Libraries] {members : Tracing.ProjectMembers} {source : Path}
    {run : Analysis.Run} {remote : Value × Option Path}
    (ran : (prepareRemote members source run).run.run state = (.ok remote, after))
    (wanted : remote.1.truthy = true) :
    ∃ place, remote.2 = some place ∧
      ∀ root, run.repository = some root → source.relativeTo root = .ok place := by
  obtain ⟨isSet, _, _, ran⟩ := Result.run_bind_eq_ok_iff.mp ran
  split at ran
  · obtain ⟨pattern, _, _, ran⟩ := Result.run_bind_eq_ok_iff.mp ran
    split at ran
    · simp only [Result.run_bind_eq_ok_iff] at ran
      obtain ⟨setting, _, _, ran⟩ := ran
      cases located : run.repository with
      | none =>
          simp only [located, Result.run_bind_eq_ok_iff] at ran
          obtain ⟨place, _, _, _, _, _, _, _, _, finished⟩ := ran
          cases finished
          exact ⟨place, rfl, nofun⟩
      | some root =>
          simp only [located, Result.run_bind_eq_ok_iff, Step.run_ofExcept_eq_ok_iff] at ran
          obtain ⟨place, _, ⟨below, rfl⟩, _, _, _, _, _, _, finished⟩ := ran
          cases finished
          refine ⟨place, rfl, fun other same => ?_⟩
          cases same
          exact below
    · cases ran
      cases wanted
  · cases ran
    cases wanted

theorem remoteSource_of_prepareRendering [Libraries] {document : String} {line : Value}
    {traced : Traced}
    (ran : (prepareRendering document line traced).run.run state = (.ok rendering, after)) :
    rendering.document = document ∧ rendering.line = line ∧ rendering.source = traced.source ∧
      (rendering.remoteField.truthy = true → ∃ place, rendering.remoteSource = some place ∧
        ∀ root, traced.run.repository = some root → traced.source.relativeTo root = .ok place) := by
  simp only [prepareRendering, Result.run_bind_eq_ok_iff, Step.run_get_eq_ok_iff] at ran
  obtain ⟨_, _, ⟨rfl, rfl⟩, field, _, _, remote, _, isRemote, ran⟩ := ran
  cases ran
  exact ⟨rfl, rfl, rfl, remoteSource_of_prepareRemote isRemote⟩

/-! ## Directives -/

variable {prepared : State} {traced : Traced}

theorem keepsNeeds_prepareRendering [Libraries] (document : String) (line : Value)
    (traced : Traced) :
    (prepareRendering document line traced).KeepsNeeds :=
  keepsNeeds_get.bind fun _ => (addsStringLinks_prepareLocal _).keepsNeeds.bind fun _ =>
    (addsStringLinks_prepareRemote _ _ _).keepsNeeds.bind fun _ => keepsNeeds_pure _

/-- What a directive works out before it renders. -/
def Call.prepare [Libraries] (call : Call) : Step (Traced × Rendering) := do
  let traced ← traceProject call.options
  let rendering ← prepareRendering call.document call.line traced
  return (traced, rendering)

variable {call : Call}

theorem Call.prepare_eq_ok_iff [Libraries] :
    call.prepare.run.run state = (.ok (traced, rendering), prepared) ↔
      ∃ found, (traceProject call.options).run.run state = (.ok traced, found) ∧
        (prepareRendering call.document call.line traced).run.run found =
          (.ok rendering, prepared) := by
  simp only [Call.prepare, Result.run_bind_eq_ok_iff, run_pure_eq_ok_iff, Prod.mk.injEq]
  constructor
  · rintro ⟨_, found, isTraced, _, _, isPrepared, ⟨rfl, rfl⟩, rfl⟩
    exact ⟨found, isTraced, isPrepared⟩
  · rintro ⟨found, isTraced, isPrepared⟩
    exact ⟨traced, found, isTraced, rendering, prepared, isPrepared, ⟨rfl, rfl⟩, rfl⟩

/-- A directive that comes to rendering ends as the rendering does. -/
theorem renderNeeds_of_call [Libraries]
    (prepares : call.prepare.run.run state = (.ok (traced, rendering), prepared))
    {result : Except Fault (List Nat)} (ran : call.run.run.run state = (result, after)) :
    prepared.needs = state.needs ∧
      ∃ rendered, (renderNeeds rendering traced.run.needs).run.run prepared = (result, rendered) ∧
        after.needs = rendered.needs ++ if result.isOk then [.document call.document] else [] := by
  obtain ⟨found, isTraced, isPrepared⟩ := Call.prepare_eq_ok_iff.mp prepares
  constructor
  · have kept := keepsNeeds_prepareRendering call.document call.line traced found
    rw [isPrepared] at kept
    obtain ⟨_, _, _, _, _, _, _, _, _, _, _, _, _, _, _, _, _, _, _, rfl⟩ := traceProject_eq_ok isTraced
    exact kept
  · rcases Result.run_bind_cases ran with ⟨fault, failed, _⟩ | ⟨_, _, again, ranPrepare⟩
    · cases isTraced.symm.trans failed
    cases isTraced.symm.trans again
    rcases Result.run_bind_cases ranPrepare with ⟨fault, failed, _⟩ | ⟨_, _, againPrepared, ranRender⟩
    · cases isPrepared.symm.trans failed
    cases isPrepared.symm.trans againPrepared
    rcases Result.run_bind_cases ranRender with ⟨fault, failed, rfl⟩ | ⟨numbers, rendered, isRendered, done⟩
    · exact ⟨after, failed, (List.append_nil _).symm⟩
    · cases done
      exact ⟨rendered, isRendered, rfl⟩

end Build

end Tracemark
