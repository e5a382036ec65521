import Mathlib.Data.List.Basic
import Tracemark.Proofs.Export.References

/-!
# Directives by need

References name needs, each reference one or more and each need any number of times. The
directives put the links of all references to one need together, in the order in which the
needs are first mentioned. One unsound reference suffices to write nothing at all, and objects
of other types do not matter.
-/

set_option autoImplicit false

namespace Tracemark.Export

/-! ## Mentions -/

/-- The ids of references, each with the link of its reference, once for every place where the id
stands. -/
def mentionsIn (references : List (List String × String)) : List (String × String) :=
  references.flatMap fun reference => reference.1.map fun id => (id, reference.2)

/-- The links with which an id is mentioned, without those that are empty. -/
def linksTo (id : String) (mentions : List (String × String)) : List String :=
  (mentions.filter fun mention => mention.1 == id && mention.2 != "").map (·.2)

theorem mem_linksTo_iff {id link : String} {mentions : List (String × String)} :
    link ∈ linksTo id mentions ↔ (id, link) ∈ mentions ∧ link ≠ "" := by
  simp [linksTo]

theorem linksTo_concat (id other link : String) (mentions : List (String × String)) :
    linksTo id (mentions ++ [(other, link)]) =
      linksTo id mentions ++ if other = id ∧ link ≠ "" then [link] else [] := by
  by_cases added : other = id ∧ link ≠ "" <;> simp [linksTo, List.filter_append, added]

/-- The ids that are mentioned, in the order of their first mentions. -/
structure AreFirsts (ids mentioned : List String) : Prop where
  mem_iff : ∀ id, id ∈ ids ↔ id ∈ mentioned
  ordered : ids.Pairwise fun earlier later => mentioned.idxOf earlier < mentioned.idxOf later

namespace AreFirsts

variable {ids mentioned : List String} {id : String}

theorem nodup (firsts : AreFirsts ids mentioned) : ids.Nodup := by
  refine firsts.ordered.imp ?_
  intro earlier later before same
  exact Nat.lt_irrefl _ (same ▸ before)

/-- What comes later does not change what is first. -/
theorem pairwise_concat (firsts : AreFirsts ids mentioned) :
    ids.Pairwise fun earlier later =>
      (mentioned ++ [id]).idxOf earlier < (mentioned ++ [id]).idxOf later := by
  refine List.Pairwise.imp_of_mem ?_ firsts.ordered
  intro earlier later isEarlier isLater before
  rwa [List.idxOf_append_of_mem ((firsts.mem_iff earlier).mp isEarlier),
    List.idxOf_append_of_mem ((firsts.mem_iff later).mp isLater)]

theorem again (firsts : AreFirsts ids mentioned) (known : id ∈ ids) :
    AreFirsts ids (mentioned ++ [id]) := by
  refine ⟨?_, firsts.pairwise_concat⟩
  intro other
  rw [List.mem_append, List.mem_singleton, ← firsts.mem_iff]
  constructor
  · exact .inl
  · intro isMember
    rcases isMember with member | rfl
    · exact member
    · exact known

theorem new (firsts : AreFirsts ids mentioned) (unknown : id ∉ ids) :
    AreFirsts (ids ++ [id]) (mentioned ++ [id]) := by
  refine ⟨fun other => by simp [firsts.mem_iff], ?_⟩
  rw [List.pairwise_append]
  refine ⟨firsts.pairwise_concat, List.pairwise_singleton _ _, ?_⟩
  intro earlier isEarlier later isLater
  cases List.mem_singleton.mp isLater
  have mentionedBefore := (firsts.mem_iff earlier).mp isEarlier
  have notMentioned : id ∉ mentioned := fun member => unknown ((firsts.mem_iff id).mpr member)
  rw [List.idxOf_append_of_mem mentionedBefore, List.idxOf_append_of_notMem notMentioned]
  exact Nat.lt_add_right _ (List.idxOf_lt_length_iff.mpr mentionedBefore)

end AreFirsts

/-! ## Links by need -/

/-- Links that hold, for each need that is mentioned, the links of all its mentions. -/
def Records (links : Links) (mentions : List (String × String)) : Prop :=
  ∃ ids, AreFirsts ids (mentions.map (·.1)) ∧ links = ids.map fun id => (id, linksTo id mentions)

theorem map_links_of_not_mem {id link : String} {ids : List String} (unknown : id ∉ ids)
    (links : String → List String) :
    (ids.map fun other => (other, links other ++ if id = other ∧ link ≠ "" then [link] else [])) =
      ids.map fun other => (other, links other) := by
  apply List.map_congr_left
  intro other member
  have different : id ≠ other := fun same => unknown (same ▸ member)
  simp [different]

theorem addLink_of_mem {id link : String} {ids : List String} (known : id ∈ ids)
    (distinct : ids.Nodup) (links : String → List String) :
    addLink id link (ids.map fun other => (other, links other)) =
      ids.map fun other =>
        (other, links other ++ if id = other ∧ link ≠ "" then [link] else []) := by
  induction ids with
  | nil => cases known
  | cons first rest ih =>
      obtain ⟨notLater, distinctRest⟩ := List.nodup_cons.mp distinct
      rw [List.map_cons, List.map_cons, addLink]
      by_cases here : first = id
      · -- The link is put in at the first place only, and the id has no other.
        subst here
        rw [map_links_of_not_mem notLater]
        by_cases empty : link = "" <;> simp [empty]
      · have inRest := (List.mem_cons.mp known).resolve_left (Ne.symm here)
        have different : id ≠ first := Ne.symm here
        rw [ih inRest distinctRest]
        simp [here, different]

theorem addLink_of_not_mem {id link : String} {ids : List String} (unknown : id ∉ ids)
    (links : String → List String) :
    addLink id link (ids.map fun other => (other, links other)) =
      (ids.map fun other => (other, links other)) ++ [(id, if link ≠ "" then [link] else [])] := by
  induction ids with
  | nil => by_cases empty : link = "" <;> simp [addLink, empty]
  | cons first rest ih =>
      have different : first ≠ id := Ne.symm (List.ne_of_not_mem_cons unknown)
      rw [List.map_cons, addLink, ih (List.not_mem_of_not_mem_cons unknown)]
      simp [different]

/-- One more mention is recorded. -/
theorem Records.addLink {links : Links} {mentions : List (String × String)}
    (records : Records links mentions) (id link : String) :
    Records (addLink id link links) (mentions ++ [(id, link)]) := by
  obtain ⟨ids, firsts, rfl⟩ := records
  simp only [Records, List.map_append, List.map_cons, List.map_nil, linksTo_concat]
  by_cases known : id ∈ ids
  · exact ⟨ids, firsts.again known, addLink_of_mem known firsts.nodup _⟩
  · refine ⟨ids ++ [id], firsts.new known, ?_⟩
    have unmentioned : linksTo id mentions = [] := by
      rw [List.eq_nil_iff_forall_not_mem]
      intro other member
      have mentioned : id ∈ mentions.map (·.1) :=
        List.mem_map.mpr ⟨_, (mem_linksTo_iff.mp member).1, rfl⟩
      exact known ((firsts.mem_iff id).mpr mentioned)
    rw [addLink_of_not_mem known, List.map_append, map_links_of_not_mem known]
    simp [unmentioned]

theorem records_foldl {links : Links} {before : List (String × String)}
    (records : Records links before) (mentions : List (String × String)) :
    Records (mentions.foldl (fun current mention => addLink mention.1 mention.2 current) links)
      (before ++ mentions) := by
  induction mentions generalizing links before with
  | nil => simpa using records
  | cons mention rest ih =>
      rw [List.foldl_cons, ← List.singleton_append, ← List.append_assoc]
      exact ih (records.addLink mention.1 mention.2)

theorem linksOf_eq_foldl (objects : List Value) :
    linksOf objects = (mentionsIn (objects.map linkOf)).foldl
      (fun current mention => addLink mention.1 mention.2 current) [] := by
  rw [linksOf, mentionsIn, List.flatMap_map, List.foldl_flatMap]
  simp only [List.foldl_map]

theorem records_linksOf (objects : List Value) :
    Records (linksOf objects) (mentionsIn (objects.map linkOf)) := by
  have start : Records [] [] := ⟨[], ⟨by simp, .nil⟩, rfl⟩
  rw [linksOf_eq_foldl]
  exact records_foldl start _

/-! ## Written texts -/

def headlines (title : Option String) : List String :=
  (title.toList.filter (· ≠ "")).map fun text =>
    text ++ "\n" ++ String.ofList (List.replicate text.length '=') ++ "\n\n"

/-- The directives for mentions of needs. There is one for each need that is mentioned with a
link, they are in the order in which the needs are first mentioned, and each has all the links of
its need. -/
def AreDirectives (urlField : String) (mentions : List (String × String)) (texts : List String) :
    Prop :=
  ∃ ids : List String,
    (∀ id, id ∈ ids ↔ ∃ link, (id, link) ∈ mentions ∧ link ≠ "") ∧
    ids.Pairwise (fun earlier later =>
      (mentions.map (·.1)).idxOf earlier < (mentions.map (·.1)).idxOf later) ∧
    texts = ids.map fun id =>
      ".. needextend:: " ++ id ++ "\n   :" ++ urlField ++ ": " ++
        ",".intercalate (linksTo id mentions) ++ "\n\n"

theorem headline_eq (title : String) :
    headline title =
      title ++ "\n" ++ String.ofList (List.replicate title.length '=') ++ "\n\n" := rfl

theorem directive_eq (urlField id : String) (links : List String) :
    directive urlField id links =
      ".. needextend:: " ++ id ++ "\n   :" ++ urlField ++ ": " ++ ",".intercalate links ++
        "\n\n" := rfl

theorem areDirectives_of_records {links : Links} {mentions : List (String × String)}
    (records : Records links mentions) (urlField : String) :
    AreDirectives urlField mentions (links.filterMap fun (id, urls) =>
      if urls.isEmpty then none else some (directive urlField id urls)) := by
  obtain ⟨ids, firsts, rfl⟩ := records
  refine ⟨ids.filter fun id => !(linksTo id mentions).isEmpty, ?_, ?_, ?_⟩
  · intro id
    rw [List.mem_filter, firsts.mem_iff]
    constructor
    · intro isLinked
      obtain ⟨link, member⟩ := List.isEmpty_eq_false_iff_exists_mem.mp (by simpa using isLinked.2)
      exact ⟨link, mem_linksTo_iff.mp member⟩
    · intro isLinked
      obtain ⟨link, mentioned, some⟩ := isLinked
      have member := mem_linksTo_iff.mpr ⟨mentioned, some⟩
      exact ⟨List.mem_map.mpr ⟨_, mentioned, rfl⟩, by simpa using List.ne_nil_of_mem member⟩
  · exact firsts.ordered.sublist List.filter_sublist
  · -- Needs whose links are all empty are left out of both sides.
    simp only [← directive_eq]
    rw [List.filterMap_map, ← List.filterMap_eq_map, List.filterMap_filter]
    apply List.filterMap_congr
    intro id _
    by_cases unlinked : linksTo id mentions = [] <;> simp [unlinked]

/-! ## Stored objects -/

def isStoredReference (members : Members) : Bool :=
  (members.get? "type").any fun type => type.same (.text referenceType)

theorem isStoredReference_iff {members : Members} :
    isStoredReference members = true ↔ members.get? "type" = some (.text referenceType) := by
  unfold isStoredReference
  cases members.get? "type" <;> simp [Value.same_text_iff]

theorem referencesOf_objects {objects : List Members}
    (typed : ∀ members ∈ objects, members.has "type" = true) :
    referencesOf (objects.map .object) = .ok ((objects.filter isStoredReference).map .object) := by
  induction objects with
  | nil => rfl
  | cons members rest ih =>
      obtain ⟨typedFirst, typedRest⟩ := List.forall_mem_cons.mp typed
      rw [Members.has_iff_get?_isSome, Option.isSome_iff_exists] at typedFirst
      obtain ⟨type, found⟩ := typedFirst
      have index : (Value.object members).index "type" = .ok type := by
        simp [Value.index, found]
      have same : isStoredReference members = type.same (.text referenceType) := by
        simp [isStoredReference, found]
      rw [List.map_cons, referencesOf_cons index (ih typedRest), List.filter_cons, same]
      split <;> rfl

theorem linkOf_of_isSound {members : Members} {ids : List String} {link : String}
    (sound : IsSound members ids link) : linkOf (.object members) = (ids, link) := by
  have texts : textsAmong (ids.map .text) = ids := by
    simp [textsAmong, List.filterMap_map]
  simp only [linkOf, sound.needIds, sound.remoteUrl, texts]

theorem exists_references {objects : List Members}
    (sound : ∀ members ∈ objects, ∃ ids link, IsSound members ids link) :
    List.Forall₂ (fun members reference => IsSound members reference.1 reference.2) objects
      ((objects.map .object).map linkOf) := by
  induction objects with
  | nil => exact .nil
  | cons members rest ih =>
      obtain ⟨⟨ids, link, isSound⟩, soundRest⟩ := List.forall_mem_cons.mp sound
      rw [List.map_cons, List.map_cons, linkOf_of_isSound isSound]
      exact .cons isSound (ih soundRest)

theorem reports_eq_nil_iff_isSound [Libraries] {objects : List Members} :
    ((objects.filter isStoredReference).map Value.object).flatMap reportOn = [] ↔
      ∀ members ∈ objects.filter isStoredReference, ∃ ids link, IsSound members ids link := by
  rw [List.flatMap_eq_nil_iff, List.forall_mem_map]
  refine forall₂_congr fun members member => ?_
  exact reportOn_eq_nil_iff_isSound (isStoredReference_iff.mp (List.of_mem_filter member))

section Written

variable {objects references : List Value} (found : referencesOf objects = .ok references)
  (urlField : String) (title : Option String)
include found

theorem needExtend_of_silent [Libraries] (silent : references.flatMap reportOn = []) :
    needExtend urlField title objects =
      .ok ⟨headlines title ++ (linksOf references).filterMap fun (id, urls) =>
        if urls.isEmpty then none else some (directive urlField id urls), []⟩ := by
  have heading : ∀ text, text ≠ "" → headlines (some text) = [headline text] := by
    intro text some
    simp [headlines, headline_eq, some]
  cases title with
  | none => simp [needExtend, found, silent, headlines, bind, Except.bind, pure, Except.pure]
  | some text =>
      by_cases empty : text = ""
      · simp [needExtend, found, silent, headlines, empty, bind, Except.bind, pure, Except.pure]
      · simp [needExtend, found, silent, heading, empty, bind, Except.bind, pure, Except.pure]

theorem needExtend_of_report [Libraries] (reported : references.flatMap reportOn ≠ []) :
    needExtend urlField title objects =
      .ok ⟨[], Report.arrange (references.flatMap reportOn)⟩ := by
  simp [needExtend, found, reported, bind, Except.bind, pure, Except.pure]

end Written

/-- Objects with a type are looked through without a fault. If a reference among them is not
sound, nothing is written and something is reported. Otherwise nothing is reported, and the
directives for all mentions of needs are written under the title. Objects that are no references
make no difference, whatever they hold. -/
theorem needExtend_of_objects [Libraries] {objects : List Members}
    (typed : ∀ members ∈ objects, members.has "type" = true) (urlField : String)
    (title : Option String) :
    ∃ written, needExtend urlField title (objects.map .object) = .ok written ∧
      ((∃ members ∈ objects.filter isStoredReference, ¬ ∃ ids link, IsSound members ids link) →
        written.texts = [] ∧ written.report ≠ []) ∧
      ((∀ members ∈ objects.filter isStoredReference, ∃ ids link, IsSound members ids link) →
        written.report = [] ∧ ∃ references directives,
          List.Forall₂ (fun members reference => IsSound members reference.1 reference.2)
            (objects.filter isStoredReference) references ∧
          AreDirectives urlField (mentionsIn references) directives ∧
          written.texts = headlines title ++ directives) ∧
      ∀ others : List Members, (∀ members ∈ others, members.has "type" = true) →
        others.filter isStoredReference = objects.filter isStoredReference →
        needExtend urlField title (others.map .object) = .ok written := by
  have found := referencesOf_objects typed
  have sameReferences : ∀ written, needExtend urlField title (objects.map .object) = .ok written →
      ∀ others : List Members, (∀ members ∈ others, members.has "type" = true) →
        others.filter isStoredReference = objects.filter isStoredReference →
        needExtend urlField title (others.map .object) = .ok written := by
    intro written extended others othersTyped same
    rw [← extended]
    unfold needExtend
    rw [referencesOf_objects othersTyped, found, same]
  by_cases sound : ∀ members ∈ objects.filter isStoredReference,
      ∃ ids link, IsSound members ids link
  · have silent := reports_eq_nil_iff_isSound.mpr sound
    have extended := needExtend_of_silent found urlField title silent
    refine ⟨_, extended, ?_, ?_, sameReferences _ extended⟩
    · intro unsound
      obtain ⟨members, member, isUnsound⟩ := unsound
      exact absurd (sound members member) isUnsound
    · intro _
      exact ⟨rfl, _, _, exists_references sound,
        areDirectives_of_records (records_linksOf _) urlField, rfl⟩
  · have reported := mt reports_eq_nil_iff_isSound.mp sound
    have extended := needExtend_of_report found urlField title reported
    refine ⟨_, extended, ?_, ?_, sameReferences _ extended⟩
    · intro _
      exact ⟨rfl, mt Report.arrange_eq_nil_iff.mp reported⟩
    · intro allSound
      exact absurd allSound sound

/-- Ids that several references share, one of which has no link, among an object of no known type.
A reference without any other members spoils them all. -/
theorem needExtend_of_shared_ids :
    let place : Value := .object [("row", .int 0), ("column", .int 3)]
    let reference (ids : List String) (link : String) : Members :=
      [("filepath", .text "a.c"), ("remote_url", .text link),
        ("source_map", .object [("start", place), ("end", place)]), ("tagged_scope", .null),
        ("need_ids", .list (ids.map .text)), ("marker", .text "@need-ids:"),
        ("type", .text referenceType)]
    let objects : List Members := [reference ["A", "B"] "u", [("junk", .null), ("type", .int 5)],
      reference ["B", "C"] "", reference ["C", "A", "A"] "v"]
    (∃ written references directives,
      needExtend "remote_url" (some "Links") (objects.map .object) = .ok written ∧
        written.report = [] ∧
        List.Forall₂ (fun members reference => IsSound members reference.1 reference.2)
          (objects.filter isStoredReference) references ∧
        AreDirectives "remote_url" (mentionsIn references) directives ∧
        written.texts = headlines (some "Links") ++ directives) ∧
      ∃ written, needExtend "remote_url" (some "Links")
          (([("type", .text referenceType)] :: objects).map .object) = .ok written ∧
        written.texts = [] ∧ written.report ≠ [] := by
  intro place reference objects
  have isPlace : IsPosition place :=
    ⟨_, rfl, ⟨_, rfl, .inl ⟨0, rfl⟩⟩, ⟨_, rfl, .inl ⟨3, rfl⟩⟩⟩
  have isSound : ∀ ids link, ids ≠ [] → IsSound (reference ids link) ids link := by
    intro ids link some
    exact
      { keys := by simp [reference]
        filepath := ⟨_, rfl⟩
        remoteUrl := rfl
        sourceMap := ⟨_, rfl, _, rfl, by simp, ⟨_, rfl, isPlace⟩, ⟨_, rfl, isPlace⟩⟩
        taggedScope := ⟨_, rfl, .inl rfl⟩
        marker := ⟨_, rfl, by decide⟩
        needIds := rfl
        needIds_ne_nil := some
        need := by
          intro need isNeed
          cases isNeed
        rst := by
          intro rst isRst
          cases isRst }
  have typed : ∀ members ∈ [("type", Value.text referenceType)] :: objects,
      Members.has members "type" = true := by
    simp [objects, reference, Members.has]
  have references : objects.filter isStoredReference =
      [reference ["A", "B"] "u", reference ["B", "C"] "", reference ["C", "A", "A"] "v"] := rfl
  constructor
  · obtain ⟨written, extended, _, accepted, _⟩ :=
      needExtend_of_objects (List.forall_mem_cons.mp typed).2 "remote_url" (some "Links")
    have allSound : ∀ members ∈ objects.filter isStoredReference,
        ∃ ids link, IsSound members ids link := by
      rw [references]
      simp only [List.forall_mem_cons, List.not_mem_nil, false_implies, implies_true, and_true]
      exact ⟨⟨_, _, isSound _ _ (by simp)⟩, ⟨_, _, isSound _ _ (by simp)⟩,
        ⟨_, _, isSound _ _ (by simp)⟩⟩
    obtain ⟨silent, references, directives, areSound, areDirectives, texts⟩ := accepted allSound
    exact ⟨written, references, directives, extended, silent, areSound, areDirectives, texts⟩
  · obtain ⟨written, extended, refused, _⟩ :=
      needExtend_of_objects typed "remote_url" (some "Links")
    refine ⟨written, extended, refused ⟨_, List.mem_filter.mpr ⟨List.mem_cons_self, rfl⟩, ?_⟩⟩
    intro isSound
    obtain ⟨ids, link, sound⟩ := isSound
    cases sound.remoteUrl

end Tracemark.Export
