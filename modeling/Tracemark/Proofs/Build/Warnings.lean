import Tracemark.Build.Setup
import Tracemark.Proofs.Build.BackLinks

/-!
# Warnings of directives

A directive has its source files analysed and keeps the needs of the run, but nothing stores the
warnings of the run where they are looked for at the end of a build. All that directives write
are copies of source files.
-/

set_option autoImplicit false

namespace Tracemark

namespace Build

/-! ## What stays at a place -/

/-- The same stands at a place of the store in both states, and the build is about the same. -/
structure SameAt (place : List String) (before after : State) : Prop where
  settings : after.settings = before.settings
  output : after.output = before.output
  working : after.session.store.working = before.session.store.working
  entry : after.session.store.entry? place = before.session.store.entry? place

namespace SameAt

variable {place : List String} {before middle after : State}

theorem refl (state : State) : SameAt place state state :=
  ⟨rfl, rfl, rfl, rfl⟩

theorem trans (first : SameAt place before middle) (second : SameAt place middle after) :
    SameAt place before after where
  settings := second.settings.trans first.settings
  output := second.output.trans first.output
  working := second.working.trans first.working
  entry := second.entry.trans first.entry

theorem linksLocally (same : SameAt place before after) :
    after.linksLocally = before.linksLocally := by
  simp only [State.linksLocally, same.settings]

end SameAt

namespace Step

variable {α β : Type} {place : List String} {state : State}

/-- A step leaves a place as it is, whether it fails or not. -/
def Spares (place : List String) (state : State) (step : Step α) : Prop :=
  SameAt place state (step.run.run state).2

theorem Spares.bind {first : Step α} {second : α → Step β} (firstSpares : first.Spares place state)
    (secondSpares : ∀ value middle, first.run.run state = (.ok value, middle) →
      SameAt place state middle → (second value).Spares place middle) :
    (first >>= second).Spares place state := by
  unfold Spares at firstSpares ⊢
  rcases ran : (first >>= second).run.run state with ⟨result, after⟩
  rcases Result.run_bind_cases ran with ⟨fault, failed, _⟩ | ⟨value, middle, isFirst, isSecond⟩
  · rw [failed] at firstSpares
    exact firstSpares
  · rw [isFirst] at firstSpares
    have later := secondSpares value middle isFirst firstSpares
    rw [Spares, isSecond] at later
    exact firstSpares.trans later

theorem spares_ofExcept (result : Except Fault α) : (ofExcept result).Spares place state :=
  .refl state

theorem spares_pure (value : α) : (pure value : Step α).Spares place state :=
  .refl state

theorem spares_setting (name : String) : (setting name).Spares place state :=
  .refl state

theorem AddsStringLinks.spares {step : Step α} (adds : step.AddsStringLinks) :
    step.Spares place state := by
  obtain ⟨links, isAfter⟩ := adds state
  rw [Spares, isAfter]
  exact ⟨rfl, rfl, rfl, rfl⟩

/-- What only adds to the log of the session leaves its files alone. -/
theorem spares_inSession {action : Action α} (notes : action.OnlyNotes) :
    (inSession action).Spares place state := by
  rcases ran : action.run.run state.session with ⟨result, after⟩
  have kept := notes.keeps ran
  rw [Spares, run_inSession, ran]
  exact ⟨rfl, rfl, congrArg Store.working kept.1, congrArg (Store.entry? · place) kept.1⟩

end Step

open Step

section Directive

variable {place : List String} {state : State}

/-! ## Tracing -/

theorem spares_settingsDirectory : settingsDirectory.Spares place state := by
  refine Spares.bind (.refl _) fun current middle _ _ => ?_
  refine (spares_setting _).bind fun setting middle _ _ => ?_
  split
  · exact spares_pure _
  · split
    · exact spares_ofExcept (.error _)
    · exact spares_pure _

theorem spares_assignment (options : Value) : (assignment options).Spares place state := by
  unfold assignment
  refine (spares_ofExcept _).bind fun _ _ _ _ => ?_
  refine (spares_ofExcept _).bind fun project _ _ _ => ?_
  refine (spares_ofExcept _).bind fun named _ _ _ => ?_
  refine (spares_setting _).bind fun setting _ _ _ => ?_
  refine (spares_ofExcept _).bind fun members _ _ _ => ?_
  refine (spares_ofExcept _).bind fun discoveryMember _ _ _ => ?_
  refine spares_settingsDirectory.bind fun base _ _ _ => ?_
  refine (spares_ofExcept _).bind fun discovery _ _ _ => ?_
  refine Spares.bind (.refl _) fun current _ _ _ => ?_
  refine (spares_ofExcept _).bind fun source _ _ _ => ?_
  refine (spares_ofExcept _).bind fun files middle _ _ => ?_
  refine Spares.bind ⟨rfl, rfl, rfl, rfl⟩ fun _ _ _ _ => ?_
  refine (spares_ofExcept _).bind fun analysisMember _ _ _ => ?_
  refine (spares_ofExcept _).bind fun analysis _ _ _ => ?_
  exact (spares_ofExcept _).bind fun repository _ _ _ => spares_pure _

theorem spares_traceProject [Libraries] (options : Value) :
    (traceProject options).Spares place state := by
  rw [traceProject_eq]
  refine (spares_assignment options).bind fun assigned _ _ _ => ?_
  refine Spares.bind (spares_inSession (Tracing.Analyses.onlyNotes_runProject _ _)) fun _ _ _ _ => ?_
  exact spares_pure _

/-! ## Copying -/

theorem spares_copyFile (file : Path) {target : Path}
    (apart : place ∉ Store.waypoints state.session.store.working target) :
    (copyFile file target).Spares place state := by
  have apartParent : place ∉ Store.waypoints state.session.store.working target.parent :=
    fun passed => apart (Store.waypoints_subset (List.dropLast_prefix _) passed)
  refine Spares.bind ?_ fun _ made _ same => ?_
  · rcases ran : (Action.changeStep fun store =>
      store.makeDirectories target.parent true).run.run state.session with ⟨result, after⟩
    rw [Spares, run_inSession, ran, Action.run_changeStep ran]
    exact ⟨rfl, rfl, (Store.grows_makeDirectories _ _ _).working,
      Store.entry?_makeDirectories apartParent⟩
  · refine Spares.bind (.refl _) fun current _ isCurrent _ => ?_
    cases isCurrent
    refine (spares_ofExcept _).bind fun text middle isText _ => ?_
    obtain ⟨_, rfl⟩ := run_ofExcept_eq_ok_iff.mp isText
    rcases ran : (Action.changeStore fun store => store.write target
      (Utf8.encode (Text.unifyNewlines text))).run.run middle.session with ⟨result, after⟩
    rw [Spares, run_inSession, ran]
    rcases Action.run_changeStore ran with ⟨_, _, rfl⟩ | ⟨store, writes, rfl⟩
    · exact .refl _
    · have working : store.working = middle.session.store.working := by
        obtain ⟨_, _, _, _, rfl⟩ := Store.write_eq_ok_iff.mp writes
        rfl
      exact ⟨rfl, rfl, working, Store.entry?_write writes (same.working ▸ apart)⟩

theorem spares_localLinks (rendering : Rendering) (entry : Analysis.Entry) {target : Path}
    (apart : rendering.localField.truthy = true →
      place ∉ Store.waypoints state.session.store.working target) :
    (localLinks rendering entry target).Spares place state := by
  unfold localLinks
  split
  · rename_i linked
    refine (spares_copyFile _ (apart linked)).bind fun _ _ _ _ => ?_
    exact (spares_ofExcept _).bind fun _ _ _ _ => spares_pure _
  · exact spares_pure _

theorem spares_renderNeed {rendering : Rendering} {entry : Analysis.Entry}
    (apart : rendering.localField.truthy = true → ∀ target,
      rendering.targetOf entry.file = .ok target →
        place ∉ Store.waypoints state.session.store.working target) :
    (renderNeed rendering entry).Spares place state := by
  refine (spares_ofExcept _).bind fun target middle found _ => ?_
  obtain ⟨isTarget, rfl⟩ := run_ofExcept_eq_ok_iff.mp found
  refine (spares_localLinks _ _ fun linked => apart linked target isTarget).bind
    fun links _ _ _ => ?_
  refine (spares_ofExcept _).bind fun remote _ _ _ => ?_
  split
  · exact spares_pure _
  · refine (spares_ofExcept _).bind fun request _ _ _ => ?_
    refine Spares.bind ⟨rfl, rfl, rfl, rfl⟩ fun _ _ _ _ => ?_
    refine Spares.bind (.refl _) fun current _ _ _ => ?_
    split
    · refine (spares_ofExcept _).bind fun id _ _ _ => ?_
      exact Spares.bind ⟨rfl, rfl, rfl, rfl⟩ fun _ _ _ _ => spares_pure _
    · exact spares_pure _
  · exact spares_pure _

theorem spares_renderNeeds {rendering : Rendering} {entries : List Analysis.Entry}
    (apart : rendering.localField.truthy = true → ∀ entry ∈ entries, ∀ target,
      rendering.targetOf entry.file = .ok target →
        place ∉ Store.waypoints state.session.store.working target) :
    (renderNeeds rendering entries).Spares place state := by
  induction entries generalizing state with
  | nil => exact spares_pure _
  | cons entry rest ih =>
      refine (spares_renderNeed fun linked => apart linked entry List.mem_cons_self).bind
        fun first middle _ same => ?_
      refine Spares.bind (ih ?_) fun others _ _ _ => spares_pure _
      intro linked other member
      rw [same.working]
      exact apart linked other (List.mem_cons_of_mem _ member)

/-! ## Directives -/

/-- A field for local links is only used where local links are made. -/
theorem linksLocally_of_prepareLocal {output : Path} {field : Value} {after : State}
    (ran : (prepareLocal output).run.run state = (.ok field, after))
    (linked : field.truthy = true) : state.linksLocally = true := by
  simp only [prepareLocal, isSet, Result.run_bind_eq_ok_iff, run_setting_eq_ok_iff,
    run_pure_eq_ok_iff] at ran
  obtain ⟨_, _, ⟨wanted, _, ⟨isWanted, rfl⟩, rfl, rfl⟩, ran⟩ := ran
  split at ran
  · rename_i wantedTrue
    simp only [Result.run_bind_eq_ok_iff, run_setting_eq_ok_iff, run_pure_eq_ok_iff] at ran
    obtain ⟨given, _, ⟨isGiven, rfl⟩, _, _, _, rfl, _⟩ := ran
    simp [State.linksLocally, isWanted, isGiven, wantedTrue, linked]
  · obtain ⟨rfl, _⟩ := run_pure_eq_ok_iff.mp ran
    cases linked

def copyTarget (output source file : Path) : Except Fault Path := do
  return (output.join (.ofText source.name)).join (← (source.join file).relativeTo source)

theorem prepareRendering_eq_ok [Libraries] {document : String} {line : Value} {traced : Traced}
    {rendering : Rendering} {after : State}
    (ran : (prepareRendering document line traced).run.run state = (.ok rendering, after)) :
    (rendering.localField.truthy = true → state.linksLocally = true) ∧
      ∀ file, rendering.targetOf file = copyTarget state.output traced.source file := by
  simp only [prepareRendering, Result.run_bind_eq_ok_iff, run_get_eq_ok_iff] at ran
  obtain ⟨_, _, ⟨rfl, rfl⟩, field, prepared, isLocal, remote, finished, isRemote, ran⟩ := ran
  cases ran
  exact ⟨linksLocally_of_prepareLocal isLocal, fun file => rfl⟩

def Call.copies [Libraries] (state : State) (call : Call) : List Path :=
  match ((traceProject call.options).run.run state).1 with
  | .ok traced =>
      if state.linksLocally then
        traced.run.needs.filterMap fun entry =>
          (copyTarget state.output traced.source entry.file).toOption
      else []
  | .error _ => []

theorem spares_call [Libraries] {call : Call} (apart : ∀ target ∈ call.copies state,
      place ∉ Store.waypoints state.session.store.working target) :
    call.run.Spares place state := by
  refine (spares_traceProject call.options).bind fun traced found isTraced sameFound => ?_
  have adds := addsStringLinks_prepareRendering call.document call.line traced
  refine adds.spares.bind fun rendering prepared isPrepared samePrepared => ?_
  obtain ⟨links, targets⟩ := prepareRendering_eq_ok isPrepared
  refine Spares.bind (spares_renderNeeds ?_) fun numbers _ _ _ => ?_
  · -- The copies are told by the state before tracing, which tracing agrees with in all they need.
    intro linked entry member target isTarget
    rw [samePrepared.working, sameFound.working]
    apply apart
    have isLinked := sameFound.linksLocally.symm.trans (links linked)
    rw [targets, sameFound.output] at isTarget
    simp only [Call.copies, isTraced, isLinked, if_true]
    exact List.mem_filterMap.mpr ⟨entry, member, by rw [isTarget]; rfl⟩
  · exact Spares.bind ⟨rfl, rfl, rfl, rfl⟩ fun _ _ _ _ => spares_pure _

end Directive

/-! ## Builds -/

/-- The state after directives that were run one after the other. What a directive did before a
fault stays. -/
def afterCalls [Libraries] (state : State) (calls : List Call) : State :=
  calls.foldl (fun state call => (call.run.run.run state).2) state

/-- What directives yield, each in the state that those before it left. -/
def overCalls [Libraries] {α : Type} (each : State → Call → List α) : State → List Call → List α
  | _, [] => []
  | state, call :: rest => each state call ++ overCalls each (call.run.run.run state).2 rest

/-- The warnings that the run of a directive collects, as far as the run comes. -/
def Call.warnings [Libraries] (state : State) (call : Call) : List Analysis.Warning :=
  match (assignment call.options).run.run state with
  | (.ok assigned, middle) =>
      match (Analysis.Run.start assigned.name assigned.settings).run.run middle.session with
      | (.ok started, session) => (started.complete session).1.warnings
      | (.error _, _) => []
  | (.error _, _) => []

/-- The place where a build looks for stored warnings at its end. -/
def State.warningsPlace (state : State) : List String :=
  ((Tracing.warningsPath (state.output.child cacheName)).collapsed state.session.store.working).parts

theorem sameAt_afterCalls [Libraries] {state : State} {place : List String} {calls : List Call}
    (apart : ∀ target ∈ overCalls (fun state call => call.copies state) state calls,
      place ∉ Store.waypoints state.session.store.working target) :
    SameAt place state (afterCalls state calls) := by
  induction calls generalizing state with
  | nil => exact .refl state
  | cons call rest ih =>
      obtain ⟨own, others⟩ := List.forall_mem_append.mp apart
      have same : SameAt place state (call.run.run.run state).2 := spares_call own
      apply same.trans
      apply ih
      rw [same.working]
      exact others

/-- Where nothing is stored, nothing is logged. -/
theorem emitWarnings_of_vacant {state : State}
    (vacant : state.session.store.entry? state.warningsPlace = none) :
    (emitWarnings.run.run state).2 = state ∧
      ((emitWarnings.run.run state).1 = .ok () ∨
        (emitWarnings.run.run state).1 = .error .nameTooLong) := by
  have loads : ∀ {loaded : Except Fault (Option (List Analysis.StoredWarning))},
      Tracing.loadWarnings state.session.store (state.output.child cacheName) = loaded →
      emitWarnings.run.run state = (do
        for warning in (← Step.ofExcept loaded).getD [] do
          Step.log (warningRecord warning) : Step Unit).run.run state := by
    rintro _ rfl
    rfl
  rcases Store.contains_of_vacant vacant with empty | tooLong
  · have nothing : Tracing.loadWarnings state.session.store (state.output.child cacheName) =
        .ok none := Result.bind_eq_ok_iff.mpr ⟨false, empty, rfl⟩
    rw [loads nothing]
    exact ⟨rfl, .inl rfl⟩
  · have fails : Tracing.loadWarnings state.session.store (state.output.child cacheName) =
        .error .nameTooLong := by
      rw [Tracing.loadWarnings, tooLong]
      rfl
    rw [loads fails]
    exact ⟨rfl, .inr rfl⟩

/-- However many directives a build runs, none of the warnings that their runs collect is logged at
its end, if it starts without stored warnings and no copy of a source file gets in their place. So
all collected warnings are logged only where none was collected. -/
theorem emitWarnings_after_calls [Libraries] {state : State} {calls : List Call}
    (vacant : state.session.store.entry? state.warningsPlace = none)
    (apart : ∀ target ∈ overCalls (fun state call => call.copies state) state calls,
      state.warningsPlace ∉ Store.waypoints state.session.store.working target) :
    let collected := overCalls (fun state call => call.warnings state) state calls
    let after := afterCalls state calls
    let emitted := emitWarnings.run.run after
    emitted.2 = after ∧ (emitted.1 = .ok () ∨ emitted.1 = .error .nameTooLong) ∧
      ((∀ warning ∈ collected,
        warningRecord warning.stored ∈ emitted.2.records.drop after.records.length) ↔
          collected = []) := by
  intro collected after emitted
  have same := sameAt_afterCalls apart
  have samePlace : after.warningsPlace = state.warningsPlace := by
    simp only [State.warningsPlace, after, same.output, same.working]
  have stillVacant : after.session.store.entry? after.warningsPlace = none := by
    rw [samePlace]
    exact same.entry.trans vacant
  obtain ⟨unchanged, ends⟩ := emitWarnings_of_vacant stillVacant
  refine ⟨unchanged, ends, ?_⟩
  have noneLogged : emitted.2.records.drop after.records.length = [] := by
    rw [unchanged, List.drop_length]
  rw [noneLogged]
  constructor
  · intro logged
    apply List.eq_nil_iff_forall_not_mem.mpr
    intro warning member
    cases logged warning member
  · intro isNil warning member
    rw [isNil] at member
    cases member

/-- The first of two directives has a mark with too many fields, and the second copies its file. -/
theorem emitWarnings_after_too_many_fields :
    let state := buildOf [("p", ["s"])]
      [(["s", "a.c"], "// @T, I1, impl, [A], extra"), (["s", "b.c"], "// @U, I2")]
    let calls := [callOn "p" "a.c", callOn "p" "b.c"]
    let collected := overCalls (fun state call => call.warnings state) state calls
    let emitted := (emitWarnings.run.run (afterCalls state calls)).2
    collected.length = 1 ∧
      overCalls (fun state call => call.copies state) state calls =
        [⟨.absolute, ["out", "s", "b.c"]⟩] ∧
      state.session.store.entry? state.warningsPlace = none ∧
      emitted.session.store.entry? ["out", "s", "b.c"] ≠ none ∧ emitted.records = [] := by
  intro state calls collected emitted
  have copies : overCalls (fun state call => call.copies state) state calls =
      [⟨.absolute, ["out", "s", "b.c"]⟩] := by
    decide +kernel
  have vacant : state.session.store.entry? state.warningsPlace = none := by
    decide +kernel
  have apart : ∀ target ∈ overCalls (fun state call => call.copies state) state calls,
      state.warningsPlace ∉ Store.waypoints state.session.store.working target := by
    rw [copies]
    decide +kernel
  have unchanged : emitted = afterCalls state calls := (emitWarnings_after_calls vacant apart).1
  rw [unchanged]
  have isCopied : (afterCalls state calls).session.store.entry? ["out", "s", "b.c"] ≠ none := by
    decide +kernel
  have isSilent : (afterCalls state calls).records = [] := by
    decide +kernel
  exact ⟨by decide +kernel, copies, vacant, isCopied, isSilent⟩

end Build

end Tracemark
