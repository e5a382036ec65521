import Tracemark.Proofs.Analysis.Places
import Tracemark.Proofs.Build.Pages
import Tracemark.Proofs.Build.Requests

/-!
# Remote links of needs

A need has two links to the remote side of its repository: the one that the analysis makes
for a page on the web, and the one in the field for remote links. Both are to the same line
of the same path.
-/

set_option autoImplicit false

namespace Tracemark

namespace Build

variable {state after : State} {rendering : Rendering} {entry : Analysis.Entry}

/-! ## The link in the field -/

def pathLink (path : Path) (line : Nat) : String :=
  path.text ++ "#L" ++ toString line

theorem linkName_linesPart (row : Nat) (path : Path) :
    linkName (linesPart row row) path = pathLink path (row + 1) := by
  have place : linesPart row row = "#L" ++ toString (row + 1) := by
    simp only [linesPart, beq_self_eq_true, if_true]
    rfl
  rw [linkName, place, pathLink, String.append_assoc]

/-- Only a file below the source directory has a target, and its remote link is the path that
the file has on the remote side. -/
theorem remoteLink_of_below (wanted : rendering.remoteField.truthy = true) {place below : Path}
    (isRemote : rendering.remoteSource = some place) (rooted : entry.file.isAbsolute = true)
    (isBelow : entry.file.relativeTo rendering.source = .ok below) :
    ∃ target, rendering.targetOf entry.file = .ok target ∧
      remoteLink rendering entry target =
        .ok (some (pathLink (place.join below) (entry.row + 1))) := by
  have relative := (Path.relativeTo_eq_ok_iff.mp isBelow).1
  refine ⟨rendering.target.join below, ?_, ?_⟩
  · have inSource : rendering.source.join entry.file = entry.file := by
      simp [Path.join, rooted]
    rw [Rendering.targetOf, inSource, isBelow]
    rfl
  · rw [remoteLink, if_pos wanted, isRemote, ← linkName_linesPart]
    have named : remoteLinkName (linesPart entry.row entry.row) (rendering.target.join below)
        ⟨some place, some rendering.target⟩ =
        .ok (linkName (linesPart entry.row entry.row) (place.join below)) :=
      Result.bind_eq_ok_iff.mpr ⟨place, rfl, Result.bind_eq_ok_iff.mpr ⟨rendering.target, rfl,
        Result.bind_eq_ok_iff.mpr ⟨below, Path.relativeTo_join relative, rfl⟩⟩⟩
    rw [named]
    rfl

theorem exists_below_of_targetOf {file target : Path} (rooted : file.isAbsolute = true)
    (isTarget : rendering.targetOf file = .ok target) :
    ∃ below, file.relativeTo rendering.source = .ok below := by
  obtain ⟨below, isBelow, _⟩ := Result.bind_eq_ok_iff.mp isTarget
  rw [show rendering.source.join file = file by simp [Path.join, rooted]] at isBelow
  exact ⟨below, isBelow⟩

theorem requestMember_eq_ok {field : Key × Value} {member : String × Value}
    (made : requestMember field = .ok member) : field = (.text member.1, member.2) := by
  unfold requestMember at made
  split at made
  · split at made
    · cases made
    · cases made
      rfl
  · cases made

/-- The members of a request are found under the names of the fields. -/
theorem get?_of_requestMembers {fields : Table Value} {members : Members}
    (made : fields.mapM requestMember = .ok members) (name : String) :
    members.get? name = fields.get? name := by
  induction fields generalizing members with
  | nil =>
      cases made
      rfl
  | cons field rest ih =>
      simp only [List.mapM_cons, Result.bind_eq_ok_iff] at made
      obtain ⟨member, first, others, later, finished⟩ := made
      cases finished
      have found : (field.1.same (.text name)) = (member.1 == name) := by
        rw [requestMember_eq_ok first, Bool.eq_iff_iff, Key.same_text_iff]
        simp
      have same := ih later
      simp only [Members.get?, Table.get?, List.find?_cons, found] at same ⊢
      cases member.1 == name with
      | true => simp [requestMember_eq_ok first]
      | false => exact same

/-- A remote link stands in the field for it, whose name is a text. -/
theorem field_of_needRequest {fields : Table Value} {localLink : Option String} {link : String}
    {request : NeedsRequest}
    (made : needRequest rendering fields localLink (some link) = .ok request) :
    ∃ name type title members, rendering.remoteField = .text name ∧
      request = .need rendering.document rendering.line type title members ∧
      members.get? name = some (.text link) := by
  simp only [needRequest, Result.bind_eq_ok_iff] at made
  obtain ⟨type, _, title, _, own, _, linked, put, members, mapped, finished⟩ := made
  cases finished
  obtain ⟨key, isKey, isPut⟩ := Result.bind_eq_ok_iff.mp put
  cases isPut
  -- All names in a request are texts, so that of the field is.
  obtain ⟨kept, inFields, sameKey⟩ := Table.exists_mem_put key (.text link) own
  obtain ⟨member, _, isMember⟩ := Result.exists_of_mem_mapM mapped inFields
  obtain rfl : kept = .text member.1 := congrArg Prod.fst (requestMember_eq_ok isMember)
  obtain rfl : key = .text member.1 := sameKey.elim Eq.symm Key.text_same_iff.mp
  refine ⟨member.1, _, _, members, Value.asKey_eq_text_iff.mp isKey, rfl, ?_⟩
  rw [get?_of_requestMembers mapped, Table.get?_put_self]

/-! ## The two links -/

/-- The link is to the path of the entry's file from the root of its repository, and to its
line. Where the analysis made a link to the web, it made it from the same file, root and line,
and if the host has pages for files, it is to the page of the same path. -/
def LinksAgree [Libraries] (working root : Path) (run : Analysis.Run) (entry : Analysis.Entry)
    (link : String) : Prop :=
  ∃ relative, entry.file.relativeTo root = .ok relative ∧
    link = relative.text ++ "#L" ++ toString (entry.row + 1) ∧
    ∀ address revision, run.address = some address → run.revision = some revision →
      address ≠ "" → revision ≠ "" →
      ∃ log web,
        Git.webLink working address revision root entry.file (toString (entry.row + 1)) =
          (log, .ok web) ∧
        entry.link = some web ∧
        ∀ remote base, Libraries.remote? address.toList = some remote →
          Git.linkBase? remote revision = some base →
          web = Git.linkTo base relative.text.toList (toString (entry.row + 1))

theorem hasPages_of_linkBase {remote : Git.Remote} {revision base : String}
    (isBase : Git.linkBase? remote revision = some base) : remote.HasPages := by
  unfold Git.linkBase? at isBase
  dsimp only at isBase
  split at isBase
  · rename_i host
    exact .inl host
  · rename_i host
    exact .inr host
  · cases isBase

theorem linksAgree_of_traceProject [Libraries] {options : Value} {traced : Traced}
    {root place below : Path}
    (isTraced : (traceProject options).run.run state = (.ok traced, after))
    (located : traced.run.repository = some root)
    (above : traced.source.relativeTo root = .ok place) (member : entry ∈ traced.run.needs)
    (isBelow : entry.file.relativeTo traced.source = .ok below) :
    LinksAgree state.session.store.working root traced.run entry
      (pathLink (place.join below) (entry.row + 1)) := by
  obtain ⟨rooted, log, linked⟩ := place_of_traceProject isTraced member
  have inRoot := Path.relativeTo_trans above isBelow
  refine ⟨_, inRoot, rfl, fun address revision addressed revised someAddress someRevision => ?_⟩
  obtain ⟨web, isLink, made⟩ :=
    Analysis.LinkSource.webLink_of_link addressed revised ⟨someAddress, someRevision⟩ linked
  have isRoot : (traced.run.linkSource state.session.store.working).project = root := by
    simp [Analysis.Run.linkSource, located]
  rw [isRoot] at made
  refine ⟨log, web, made, isLink, fun remote base known isBase => ?_⟩
  obtain ⟨relative, seen, isWeb⟩ := Git.webLink_eq_ok known (hasPages_of_linkBase isBase) isBase made
  rw [Path.absolute_of_isAbsolute rooted, inRoot] at seen
  cases seen
  exact isWeb

/-- Where a directive makes remote links and the project lies in a repository, every need of a
file below the source directory gets the link that agrees with its link to the web, and each
need that is asked for has it in the field for remote links. -/
theorem remoteLinks_of_call [Libraries] {call : Call} {traced : Traced} {prepared : State}
    {root : Path} {result : Except Fault (List Nat)}
    (prepares : call.prepare.run.run state = (.ok (traced, rendering), prepared))
    (wanted : rendering.remoteField.truthy = true) (located : traced.run.repository = some root)
    (ran : call.run.run.run state = (result, after)) :
    (∀ entry ∈ traced.run.needs, ∀ below, entry.file.relativeTo traced.source = .ok below →
      ∃ target link, rendering.targetOf entry.file = .ok target ∧
        remoteLink rendering entry target = .ok (some link) ∧
        LinksAgree state.session.store.working root traced.run entry link) ∧
    ∃ asked requests, asked <+: traced.run.needs.filter holdsFields ∧
      (result.isOk = true → asked = traced.run.needs.filter holdsFields) ∧
      after.needs =
        state.needs ++ requests ++ (if result.isOk then [.document call.document] else []) ∧
      List.Forall₂ (fun entry request => ∃ name link type title fields,
        rendering.remoteField = .text name ∧
          request = .need call.document call.line type title fields ∧
          fields.get? name = some (.text link) ∧
          LinksAgree state.session.store.working root traced.run entry link) asked requests := by
  obtain ⟨found, isTraced, isPrepared⟩ := Call.prepare_eq_ok_iff.mp prepares
  obtain ⟨isDocument, isLine, isSource, remoteSource⟩ := remoteSource_of_prepareRendering isPrepared
  obtain ⟨place, isRemote, below⟩ := remoteSource wanted
  have above := below root located
  have links : ∀ entry ∈ traced.run.needs, ∀ below,
      entry.file.relativeTo traced.source = .ok below →
      ∃ target link, rendering.targetOf entry.file = .ok target ∧
        remoteLink rendering entry target = .ok (some link) ∧
        LinksAgree state.session.store.working root traced.run entry link := by
    intro entry member below isBelow
    have rooted := (place_of_traceProject isTraced member).1
    obtain ⟨target, isTarget, isLink⟩ :=
      remoteLink_of_below wanted isRemote rooted (isSource ▸ isBelow)
    exact ⟨target, _, isTarget, isLink, linksAgree_of_traceProject isTraced located above member isBelow⟩
  refine ⟨links, ?_⟩
  obtain ⟨kept, rendered, isRendered, needs⟩ := renderNeeds_of_call prepares ran
  obtain ⟨asked, requests, isPrefix, related, added, complete⟩ := requests_of_renderNeeds isRendered
  refine ⟨asked, requests, isPrefix, complete, by rw [needs, added, kept], ?_⟩
  have members : ∀ entry ∈ asked, entry ∈ traced.run.needs := fun entry member =>
    List.mem_of_mem_filter (isPrefix.subset member)
  refine ((List.forall₂_and_left asked requests).mpr ⟨members, related⟩).imp fun entry request both => ?_
  obtain ⟨member, fields, target, localLink, remote, _, _, isTarget, isLink, made⟩ := both
  -- A need that is asked for has a target, so its file lies below the source directory.
  obtain ⟨below, isBelow⟩ := exists_below_of_targetOf (place_of_traceProject isTraced member).1 isTarget
  obtain ⟨_, link, sameTarget, sameLink, agree⟩ := links entry member below (isSource ▸ isBelow)
  cases isTarget.symm.trans sameTarget
  cases isLink.symm.trans sameLink
  obtain ⟨name, type, title, members, isField, isNeed, inField⟩ := field_of_needRequest made
  rw [isDocument, isLine] at isNeed
  exact ⟨name, link, type, title, members, isField, isNeed, inField, agree⟩

/-- A build with a file of a project below the repository at the top directory. -/
def remoteBuild (directory : List String) (file text : String) : State :=
  let build := buildOf [] [(directory ++ [file], text)]
  let project : Tracing.ProjectMembers :=
    [("source_discover_config", .discovery { directory := .path ⟨.relative, directory⟩ }),
      ("analyse_config", .analysis { wantNeeds := .bool true }),
      ("remote_url_pattern", .plain (.text "https://example.org/\x7bpath\x7d#\x7bline\x7d"))]
  { build with
    session := Analysis.Run.inRepository "https://github.com/o/r.git" "4f2a" build.session
    settings :=
      [("src_trace_config_from_toml", .plain .null), ("src_trace_set_local_url", .plain (.bool false)),
        ("src_trace_set_remote_url", .plain (.bool true)),
        ("src_trace_remote_url_field", .plain (.text "remote-url")),
        ("src_trace_projects", .projects (.named [("p", .members project)]))] }

/-- A need in the second row of a file whose name has a blank. -/
theorem remoteLinks_of_spaced_name :
    let state := remoteBuild ["lib", "src"] "a b.c" "/* x\n@T, I\n*/"
    let call := callOn "p" "a b.c"
    ∃ traced rendering prepared numbers after,
      call.prepare.run.run state = (.ok (traced, rendering), prepared) ∧
      call.run.run.run state = (.ok numbers, after) ∧
      traced.run.needs.map (·.link) =
        [some "https://github.com/o/r/blob/4f2a/lib/src/a%20b.c#L2"] ∧
      ∃ requests, after.needs = requests ++ [.document "index"] ∧
        List.Forall₂ (fun entry request => ∃ name link type title fields,
          rendering.remoteField = .text name ∧
            request = .need call.document call.line type title fields ∧
            fields.get? name = some (.text link) ∧
            LinksAgree state.session.store.working ⟨.absolute, []⟩ traced.run entry link)
          (traced.run.needs.filter holdsFields) requests := by
  intro state call
  have evaluated : ((call.prepare.run.run state).1.map fun both =>
      (both.1.run.repository, both.1.run.needs.map (·.link), both.2.remoteField.truthy)).toOption =
      some (some ⟨.absolute, []⟩, [some "https://github.com/o/r/blob/4f2a/lib/src/a%20b.c#L2"], true) := by
    decide +kernel
  have called : ((call.run.run.run state).1.map List.length).toOption = some 1 := by
    decide +kernel
  obtain ⟨⟨traced, rendering⟩, prepared, prepares, seen⟩ := Result.exists_ok_of_view evaluated
  simp only [Prod.mk.injEq] at seen
  obtain ⟨located, links, wanted⟩ := seen
  obtain ⟨numbers, after, ran, _⟩ := Result.exists_ok_of_view called
  obtain ⟨_, asked, requests, _, complete, needs, related⟩ :=
    remoteLinks_of_call prepares wanted located ran
  exact ⟨traced, rendering, prepared, numbers, after, prepares, ran, links, requests, needs,
    complete rfl ▸ related⟩

end Build

end Tracemark
