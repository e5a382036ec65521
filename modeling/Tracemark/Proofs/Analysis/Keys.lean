import Tracemark.Proofs.Analysis.Completion
import Tracemark.Proofs.Keys
import Tracemark.Proofs.OneLine.Reading
import Tracemark.Proofs.Trail

/-!
# Keys that an analysis looks up

Where the style of its settings has a layout, an analysis misses a key for one reason only: it
comes to a link into a repository whose remote has no known host.
-/

set_option autoImplicit false

namespace Tracemark

open Result (FindsKeys RunFindsKeys findsKeys_ok findsKeys_error runFindsKeys_pure)

/-! ## Repositories -/

namespace Git

namespace Ini

theorem findsKeys_readHead (file : String) (number : Nat) (full text : List Char)
    (state : ReadState) : FindsKeys (readHead file number full text state) := by
  unfold readHead
  split
  · exact findsKeys_ok _
  · split
    · exact findsKeys_error rfl
    · exact findsKeys_ok _

theorem findsKeys_readLine (file : String) (number : Nat) (full : List Char) (state : ReadState) :
    FindsKeys (readLine file number full state) := by
  unfold readLine
  dsimp only
  split
  · split
    · exact findsKeys_ok _
    · exact findsKeys_ok _
  · split
    · exact findsKeys_ok _
    · split
      · split
        · split
          · exact findsKeys_ok _
          · exact findsKeys_error rfl
        · exact findsKeys_readHead _ _ _ _ _
      · exact findsKeys_readHead _ _ _ _ _

theorem findsKeys_readLines (file : String) (number : Nat) (lines : List (List Char))
    (state : ReadState) : FindsKeys (readLines file number lines state) := by
  induction lines generalizing number state with
  | nil => exact findsKeys_ok _
  | cons line rest ih => exact (findsKeys_readLine file number line state).bind fun _ _ => ih _ _

theorem findsKeys_read (file : String) (text : List Char) : FindsKeys (read file text) := by
  refine (findsKeys_readLines file 1 _ _).bind fun state _ => ?_
  split
  · exact findsKeys_error rfl
  · exact findsKeys_ok _

theorem findsKeys_substituteWith {context : Substitution}
    {inner : List Char → Except Fault (List Char)} (finds : ∀ value, FindsKeys (inner value))
    (steps : Nat) (value : List Char) : FindsKeys (substituteWith context inner steps value) := by
  fun_induction substituteWith context inner steps value with
  | case1 => exact findsKeys_ok _
  | case2 => exact findsKeys_ok _
  | case3 _ _ _ _ ih => exact ih.map _
  | case4 _ _ _ _ ih => exact ih.map _
  | case5 => exact findsKeys_error rfl
  | case6 => exact findsKeys_error rfl
  | case7 => exact findsKeys_error rfl
  | case8 _ _ _ _ _ _ _ value _ _ _ ih =>
      exact (finds value).bind fun _ _ => ih.bind fun _ _ => findsKeys_ok _
  | case9 _ _ _ _ _ _ _ _ _ _ _ ih => exact ih.bind fun _ _ => findsKeys_ok _
  | case10 => exact findsKeys_error rfl

theorem findsKeys_substitute (context : Substitution) (depth : Nat) (value : List Char) :
    FindsKeys (substitute context depth value) := by
  induction depth generalizing value with
  | zero => exact findsKeys_substituteWith (fun _ => findsKeys_error rfl) _ _
  | succ depth ih => exact findsKeys_substituteWith ih _ _

theorem findsKeys_value? (sections : Sections) (name option : String) :
    FindsKeys (value? sections name option) := by
  unfold value?
  split
  · exact findsKeys_ok _
  · split
    · exact findsKeys_ok _
    · exact findsKeys_ok _
    · exact (findsKeys_substitute _ _ _).map _

end Ini

theorem findsKeys_firstRoot? (store : Store) (candidates : List Path) :
    FindsKeys (firstRoot? store candidates) := by
  induction candidates with
  | nil => exact findsKeys_ok _
  | cons candidate rest ih =>
      refine (store.findsKeys_isDirectory _).bind fun isRoot _ => ?_
      cases isRoot with
      | true => exact findsKeys_ok _
      | false => exact ih

theorem runFindsKeys_locateRoot (directory : Path) : RunFindsKeys (locateRoot directory) := by
  refine Action.runFindsKeys_store.bind fun store => RunFindsKeys.bind ?_ fun root => ?_
  · exact Action.runFindsKeys_ofExcept
      ((directory.findsKeys_resolve _).bind fun _ _ => findsKeys_firstRoot? store _)
  · cases root with
    | some root => exact runFindsKeys_pure _
    | none => exact (Action.runFindsKeys_note _).bind fun _ => runFindsKeys_pure _

theorem findsKeys_readUnified (store : Store) (path : Path) : FindsKeys (readUnified store path) :=
  (store.findsKeys_readText path).map _

theorem findsKeys_readSections (store : Store) (path : Path) :
    FindsKeys (readSections store path) := by
  unfold readSections
  split
  · exact Ini.findsKeys_read _ _
  · exact findsKeys_error rfl
  · exact findsKeys_error rfl
  · exact findsKeys_ok _

theorem runFindsKeys_noteMissing (path : Path) (subtype : String) :
    RunFindsKeys (noteMissing path subtype) :=
  Action.runFindsKeys_note _

theorem runFindsKeys_remoteAddress (root : Path) (name : String) :
    RunFindsKeys (remoteAddress root name) := by
  refine Action.runFindsKeys_store.bind fun store =>
    (Action.runFindsKeys_ofExcept (store.findsKeys_contains _)).bind fun present => ?_
  cases present with
  | false => exact (runFindsKeys_noteMissing _ _).bind fun _ => runFindsKeys_pure _
  | true =>
      refine (Action.runFindsKeys_ofExcept (findsKeys_readSections store _)).bind fun sections =>
        (Action.runFindsKeys_ofExcept (Ini.findsKeys_value? _ _ _)).bind fun found => ?_
      cases found with
      | some address => exact runFindsKeys_pure _
      | none => exact (Action.runFindsKeys_note _).bind fun _ => runFindsKeys_pure _

theorem runFindsKeys_currentRevision (root : Path) : RunFindsKeys (currentRevision root) := by
  refine Action.runFindsKeys_store.bind fun store =>
    (Action.runFindsKeys_ofExcept (store.findsKeys_contains _)).bind fun present => ?_
  cases present with
  | false => exact (runFindsKeys_noteMissing _ _).bind fun _ => runFindsKeys_pure _
  | true =>
      refine (Action.runFindsKeys_ofExcept (findsKeys_readUnified store _)).bind fun content => ?_
      cases readHead content with
      | revision text => exact runFindsKeys_pure _
      | reference path =>
          refine (Action.runFindsKeys_ofExcept (store.findsKeys_contains _)).bind fun known => ?_
          cases known with
          | false => exact (runFindsKeys_noteMissing _ _).bind fun _ => runFindsKeys_pure _
          | true =>
              exact (Action.runFindsKeys_ofExcept (findsKeys_readUnified store _)).bind
                fun _ => runFindsKeys_pure _

end Git

namespace Analysis

/-! ## Links -/

/-- Links lead to a remote that has no known host. -/
structure LinkSource.IsUnhosted [Libraries] (source : LinkSource) (address revision : String)
    (remote : Git.Remote) : Prop where
  addressed : source.address = some address
  revised : source.revision = some revision
  notEmpty : address ≠ "" ∧ revision ≠ ""
  parsed : Libraries.remote? address.toList = some remote
  unknown : remote.host = .generic

theorem exists_remote_of_webLink [Libraries] {working project file : Path}
    {address revision line : String} {key : Value}
    (failed : (Git.webLink working address revision project file line).2 = .error (.missingKey key)) :
    key = .text "protocols" ∧
      ∃ remote, Libraries.remote? address.toList = some remote ∧ remote.host = .generic := by
  unfold Git.webLink at failed
  split at failed
  · cases failed
  · rename_i remote parsed
    split at failed
    · rename_i unknown
      cases failed
      exact ⟨rfl, remote, parsed, unknown⟩
    · cases Path.findsKeys_relativeTo _ _ _ (Result.map_eq_error_iff.mp failed)
    · cases failed

theorem LinkSource.isUnhosted_of_link [Libraries] {source : LinkSource} {file : Path} {line : Nat}
    {log : List Log.Record} {key : Value}
    (failed : source.link file line = (log, .error (.missingKey key))) :
    key = .text "protocols" ∧ ∃ address revision remote, source.IsUnhosted address revision remote := by
  unfold link at failed
  split at failed
  · rename_i address revision addressed revised
    split at failed
    · cases failed
    · rename_i given
      simp only [Bool.or_eq_true, String.isEmpty_iff, not_or] at given
      have unlinked := Result.map_eq_error_iff.mp (congrArg Prod.snd failed)
      obtain ⟨isKey, remote, parsed, unknown⟩ := exists_remote_of_webLink unlinked
      exact ⟨isKey, address, revision, remote, addressed, revised, given, parsed, unknown⟩
  · cases failed

/-! ## Faults of an extraction -/

theorem CommentPlace.fault_gather [Libraries] {place : CommentPlace} {ending : Option Fault}
    {findings : List Finding} {fault : Fault}
    (failed : (place.gather ending findings).fault = some fault) :
    ending = some fault ∨ ∃ line log, place.source.link place.file line = (log, .error fault) := by
  induction findings with
  | nil => exact .inl failed
  | cons finding rest ih =>
      cases finding with
      | warning warning => exact ih failed
      | piece row startColumn endColumn payload =>
          simp only [gather] at failed
          split at failed
          · rename_i made
            cases failed
            have unlinked : (place.source.link place.file (place.startRow + row + 1)).2 =
                .error fault :=
              Result.map_eq_error_iff.mp (congrArg Prod.snd made)
            exact .inr ⟨_, _, Prod.ext rfl unlinked⟩
          · exact ih failed

theorem Extraction.fault_followedBy {first : Extraction} {second : Unit → Extraction}
    {fault : Fault} (failed : (first.followedBy second).fault = some fault) :
    first.fault = some fault ∨ (second ()).fault = some fault := by
  unfold followedBy at failed
  split at failed
  · exact .inl failed
  · exact .inr failed

section

variable {settings : Settings} {source : LinkSource} {language : Language}

/-- What ends the extraction of a comment is its text, a search in it, or a link to it. -/
theorem fault_extractComment [Libraries] {comment : Comment} {fault : Fault}
    (failed : (extractComment settings source language comment).fault = some fault) :
    comment.text = .error fault ∨
      (∃ file text kind, settings.wants kind = true ∧
        (settings.findings file comment.startRow text kind).fault = some fault) ∨
      ∃ file line log, source.link file line = (log, .error fault) := by
  cases read : comment.text with
  | error cause =>
      simp only [extractComment, read] at failed
      cases failed
      exact .inl rfl
  | ok text =>
      refine .inr ?_
      cases text with
      | nil => simp [extractComment, read] at failed
      | cons c rest =>
          cases located : comment.file with
          | none => simp [extractComment, read, located] at failed
          | some file =>
              have searched : comment.Searched file (c :: rest) := ⟨read, by simp, located⟩
              have gathered : ∃ kind, ((comment.place source language file).gatherKind settings
                  (c :: rest) kind).fault = some fault := by
                -- References, needs and blocks are gathered in this order, up to the first fault.
                rw [searched.extractComment_eq] at failed
                rcases Extraction.fault_followedBy failed with references | failed
                · exact ⟨.reference, references⟩
                · rcases Extraction.fault_followedBy failed with needs | blocks
                  · exact ⟨.need, needs⟩
                  · exact ⟨.block, blocks⟩
              obtain ⟨kind, stopped⟩ := gathered
              rcases CommentPlace.fault_gather stopped with ending | ⟨line, log, unlinked⟩
              · refine .inl ⟨file, c :: rest, kind, ?_⟩
                cases wanted : settings.wants kind with
                | false =>
                    rw [wanted] at ending
                    cases ending
                | true =>
                    rw [wanted] at ending
                    exact ⟨rfl, ending⟩
              · exact .inr ⟨file, line, log, unlinked⟩

theorem exists_of_fault_extractAll [Libraries] {comments : List Comment} {fault : Fault}
    (failed : (extractAll settings source language comments).fault = some fault) :
    ∃ comment ∈ comments, (extractComment settings source language comment).fault = some fault := by
  induction comments with
  | nil => cases failed
  | cons comment rest ih =>
      rcases Extraction.fault_followedBy failed with first | later
      · exact ⟨comment, List.mem_cons_self, first⟩
      · obtain ⟨other, isOther, stopped⟩ := ih later
        exact ⟨other, List.mem_cons_of_mem _ isOther, stopped⟩

end

/-- Searches find all keys that they look up, those for needs by the layout of the style. -/
theorem Settings.isMissingKey_of_findings {settings : Settings} {layout : OneLine.Layout}
    {objects : List Members} (has : settings.style.HasLayout layout objects) {file : Path}
    {startRow : Nat} {text : List Char} {kind : Kind} {fault : Fault}
    (failed : (settings.findings file startRow text kind).fault = some fault) :
    fault.isMissingKey = false := by
  cases kind with
  | reference =>
      have scanned : (Reference.scan settings.references.markers text).fault = some fault := failed
      obtain ⟨⟨line, row⟩, _, inLine⟩ := Trail.exists_of_fault_along scanned
      simp only [Reference.ofLine] at inLine
      split at inLine
      · rename_i refused
        cases inLine
        exact Value.findsKeys_items _ _ refused
      · obtain ⟨marker, _, atMarker⟩ := Trail.exists_of_fault_along inLine
        unfold Reference.withMarker at atMarker
        split at atMarker
        · rename_i refused
          cases atMarker
          exact Value.findsKeys_asText _ _ refused
        · cases atMarker
  | need =>
      have read : (readNeeds settings.style text).fault = some fault := failed
      obtain ⟨⟨line, row⟩, _, inLine⟩ := Trail.exists_of_fault_along read
      simp only [readLine, has.read_eq] at inLine
      split at inLine
      · -- With a layout, reading a line comes to a result.
        cases ‹Except.ok _ = Except.error _›
      · cases inLine
      · cases inLine
      · cases inLine
  | block =>
      simp only [findings, blockFindings] at failed
      split at failed
      · rename_i refused
        cases failed
        exact Value.findsKeys_asText _ _ refused
      · rename_i refused _
        cases failed
        exact Value.findsKeys_asText _ _ refused
      · cases failed

theorem isUnhosted_of_fault_extractAll [Libraries] {settings : Settings} {layout : OneLine.Layout}
    {objects : List Members} (has : settings.style.HasLayout layout objects) {source : LinkSource}
    {language : Language} {comments : List Comment} {key : Value}
    (failed : (extractAll settings source language comments).fault = some (.missingKey key)) :
    key = .text "protocols" ∧ ∃ address revision remote, source.IsUnhosted address revision remote := by
  obtain ⟨comment, _, stopped⟩ := exists_of_fault_extractAll failed
  rcases fault_extractComment stopped with unread | ⟨file, text, kind, _, ending⟩ | ⟨file, line, log, unlinked⟩
  · unfold Comment.text at unread
    split at unread
    · cases unread
    · cases unread
  · cases Settings.isMissingKey_of_findings has ending
  · exact LinkSource.isUnhosted_of_link unlinked

/-! ## Needs -/

/-- The needs of a comment are read from its lines. -/
theorem exists_line_of_mem_needs [Libraries] {settings : Settings} {layout : OneLine.Layout}
    {objects : List Members} (has : settings.style.HasLayout layout objects) {source : LinkSource}
    {language : Language} {comment : Comment}
    (sound : (extractComment settings source language comment).fault = none) {entry : Entry}
    (member : entry ∈ (extractComment settings source language comment).ofKind .need) :
    ∃ line need, layout.read line = .need need ∧ entry.payload = .need need.fields := by
  rcases searched_or_empty sound with ⟨file, text, searched⟩ | empty
  · rw [searched.ofKind_extractComment sound] at member
    cases wanted : settings.wants .need with
    | false =>
        rw [CommentPlace.gatherKind_of_unwanted wanted] at member
        cases member
    | true =>
        simp only [CommentPlace.gatherKind, wanted, if_true] at member
        obtain ⟨row, startColumn, endColumn, payload, log, found, made⟩ := CommentPlace.mem_gather member
        obtain ⟨_, _, rfl⟩ := CommentPlace.entry_eq_ok made
        obtain ⟨reading, isReading, isPiece⟩ := List.mem_map.mp found
        cases reading with
        | warning row cause => cases isPiece
        | need row need =>
            cases isPiece
            obtain ⟨⟨line, row⟩, _, inLine⟩ := Trail.mem_along isReading
            refine ⟨line, need, ?_, rfl⟩
            simp only [readLine, has.read_eq] at inLine
            cases read : layout.read line with
            | nothing => simp [read] at inLine
            | warning cause => simp [read] at inLine
            | need other =>
                simp only [read, List.mem_singleton, LineReading.need.injEq] at inLine
                rw [inLine.2]
  · rw [empty settings] at member
    cases member

/-! ## Runs -/

namespace Run

theorem runFindsKeys_findRepository (settings : Settings) :
    RunFindsKeys (findRepository settings) := by
  unfold findRepository
  split
  · rename_i location _
    exact Action.runFindsKeys_store.bind fun store =>
      (Action.runFindsKeys_ofExcept (location.findsKeys_resolve _)).bind fun _ => runFindsKeys_pure _
  · refine RunFindsKeys.bind (Action.runFindsKeys_ofExcept ?_) fun _ => Git.runFindsKeys_locateRoot _
    unfold Place.asPath
    split
    · exact findsKeys_ok _
    · exact findsKeys_error rfl
  · exact fun _ => findsKeys_error rfl

theorem runFindsKeys_start (name : String) (settings : Settings) :
    RunFindsKeys (start name settings) := by
  refine (runFindsKeys_findRepository settings).bind fun repository => ?_
  cases repository with
  | none =>
      exact (runFindsKeys_pure _).bind fun _ => (runFindsKeys_pure _).bind fun _ => runFindsKeys_pure _
  | some root =>
      exact (Git.runFindsKeys_remoteAddress _ _).bind fun _ =>
        (Git.runFindsKeys_currentRevision _).bind fun _ => runFindsKeys_pure _

theorem findsKeys_fileComments (session : Session) (language : Language) (path : Path) :
    FindsKeys (fileComments session language path) := by
  refine FindsKeys.bind ?_ fun content _ => ?_
  · refine (session.store.findsKeys_read path).bind fun content _ => ?_
    split
    · split
      · exact findsKeys_ok _
      · exact findsKeys_error rfl
    · exact findsKeys_ok _
  · cases content with
    | none => exact findsKeys_ok _
    | some content => exact findsKeys_ok _

/-- Collecting comments changes no settings and no repository, and finds all keys. -/
theorem collect_cases {session : Session} {language : Language} {run collected : Run}
    {paths : List Path} {fault : Option Fault}
    (collects : run.collect session language paths = (collected, fault)) :
    (∀ cause, fault = some cause → cause.isMissingKey = false) ∧
      collected.settings = run.settings ∧
      ∀ working, collected.linkSource working = run.linkSource working := by
  induction paths generalizing run with
  | nil =>
      cases collects
      exact ⟨nofun, rfl, fun _ => rfl⟩
  | cons path rest ih =>
      simp only [collect] at collects
      split at collects
      · rename_i cause unread
        cases collects
        refine ⟨fun other same => ?_, rfl, fun _ => rfl⟩
        cases same
        exact findsKeys_fileComments _ _ _ _ unread
      · rename_i found _
        obtain ⟨finds, settings, source⟩ := ih collects
        obtain ⟨files, added⟩ := addFile_eq run (path.absolute session.store.working) found
        rw [added] at settings source
        exact ⟨finds, settings, source⟩

theorem isUnhosted_of_complete [Libraries] {session : Session} {run : Run} {files : List Path}
    (lists : run.settings.sources.asPaths = .ok files) {layout : OneLine.Layout}
    {objects : List Members} (has : run.settings.style.HasLayout layout objects) {key : Value}
    (failed : (run.complete session).2.2 = some (.missingKey key)) :
    key = .text "protocols" ∧
      ∃ address revision remote, (run.linkSource session.store.working).IsUnhosted address revision remote := by
  unfold complete at failed
  rcases creates : run.create session with ⟨created, fault⟩
  rw [creates] at failed
  unfold create at creates
  split at creates
  · rename_i cause unknown
    cases creates
    cases failed
    unfold Language.ofSetting at unknown
    split at unknown <;> cases unknown
  · rw [lists] at creates
    obtain ⟨finds, sameSettings, sameSource⟩ := collect_cases creates
    cases fault with
    | some cause =>
        cases failed
        cases finds _ rfl
    | none =>
        dsimp only at failed
        split at failed
        · rename_i extracts
          cases failed
          have stopped := congrArg (fun result => result.2.2) extracts
          rw [← sameSource]
          exact isUnhosted_of_fault_extractAll (sameSettings ▸ has) stopped
        · cases failed

end Run

end Analysis

namespace Tracing.Analyses

open Analysis (Run)

/-- A run that misses a key has started, and comes to a link to a remote without a known host. -/
theorem isUnhosted_of_runProject [Libraries] {name : String} {settings : Analysis.Settings}
    {session after : Session} {files : List Path} (lists : settings.sources.asPaths = .ok files)
    {layout : OneLine.Layout} {objects : List Members}
    (has : settings.style.HasLayout layout objects) {key : Value}
    (ran : (runProject name settings).run.run session = (.error (.missingKey key), after)) :
    key = .text "protocols" ∧
      ∃ started middle address revision remote,
        (Run.start name settings).run.run session = (.ok started, middle) ∧
        (started.linkSource session.store.working).IsUnhosted address revision remote := by
  rcases Result.run_bind_cases ran with ⟨fault, failed, same⟩ | ⟨started, middle, isStarted, _⟩
  · cases same
    cases Run.runFindsKeys_start name settings session _ (congrArg Prod.fst failed)
  obtain ⟨isSettings, _, _⟩ := Run.startedBy_of_start isStarted
  have kept := ((Run.onlyNotes_start name settings).keeps isStarted).1
  rcases completes : started.complete middle with ⟨run, log, fault⟩
  rw [runProject_of_start isStarted completes] at ran
  cases fault with
  | none => cases ran
  | some cause =>
      cases ran
      obtain ⟨isKey, address, revision, remote, unhosted⟩ :=
        Run.isUnhosted_of_complete (isSettings ▸ lists) (isSettings ▸ has)
          (congrArg (fun completed => completed.2.2) completes)
      exact ⟨isKey, started, middle, address, revision, remote, isStarted, kept ▸ unhosted⟩

theorem settings_of_runProject [Libraries] {name : String} {settings : Analysis.Settings}
    {session after : Session} {run : Run}
    (ran : (runProject name settings).run.run session = (.ok run, after)) :
    run.settings = settings := by
  obtain ⟨started, _, _, _, isStarted, _, _, _, _, rfl⟩ := exists_filled_of_runProject ran
  exact (Run.startedBy_of_start isStarted).settings

/-- The needs of a run lack exactly the fields that the layout of its style does not have. -/
theorem exists_fields_of_mem_needs [Libraries] {name : String} {settings : Analysis.Settings}
    {session after : Session} {run : Run} {layout : OneLine.Layout} {objects : List Members}
    (has : settings.style.HasLayout layout objects)
    (ran : (runProject name settings).run.run session = (.ok run, after)) {entry : Analysis.Entry}
    (member : entry ∈ run.needs) :
    ∃ fields, entry.payload = .need fields ∧
      ∀ field, field ≠ "start_column" → field ≠ "end_column" →
        (fields.get? field = none ↔ field ∉ layout.names) := by
  obtain ⟨started, middle, language, paths, isStarted, _, proceeds, files, warnings, rfl⟩ :=
    exists_filled_of_runProject ran
  obtain rfl := (Run.startedBy_of_start isStarted).settings
  simp only [Run.filled, Run.byRow, List.mem_mergeSort, List.mem_flatMap] at member
  obtain ⟨path, listed, inFile⟩ := member
  obtain ⟨comment, inComments, inComment⟩ := List.mem_flatMap.mp inFile
  obtain ⟨line, need, read, payload⟩ :=
    Analysis.exists_line_of_mem_needs has (proceeds.sound path listed comment inComments) inComment
  exact ⟨need.fields, payload, fun field notStart notEnd => has.get?_eq_none_iff read notStart notEnd⟩

end Tracing.Analyses

end Tracemark
