import Tracemark.Proofs.Build.RelativePaths
import Tracemark.Proofs.Build.RemoteLinks

/-!
# Local links of needs

A need that is asked for has a local link: the path from the page of its document to the copy of
its source file, and the line that it comes from.
-/

set_option autoImplicit false

namespace Tracemark.Build

variable {state after : State} {rendering : Rendering} {entry : Analysis.Entry}

/-! ## The link in the field -/

/-- Putting a link keeps the names of the fields, and the fields of other names. -/
theorem kept_of_putLink {field : Value} {link : Option String} {fields linked : Table Value}
    (put : putLink field link fields = .ok linked) :
    (∀ key ∈ fields.map (·.1), key ∈ linked.map (·.1)) ∧
      ∀ name, field ≠ .text name → linked.get? name = fields.get? name := by
  cases link with
  | none =>
      cases put
      exact ⟨fun _ member => member, fun _ _ => rfl⟩
  | some address =>
      obtain ⟨key, isKey, isPut⟩ := Result.bind_eq_ok_iff.mp put
      cases isPut
      refine ⟨fun _ member => Table.key_mem_put member _ _, fun name different => ?_⟩
      apply Table.get?_put_of_ne
      rintro rfl
      exact different (Value.asKey_eq_text_iff.mp isKey)

/-- A local link stands in the field for it, whose name is a text, unless a remote link is put into
the same field. -/
theorem localField_of_needRequest {fields : Table Value} {link : String} {remote : Option String}
    {request : NeedsRequest} (made : needRequest rendering fields (some link) remote = .ok request) :
    ∃ name type title members, rendering.localField = .text name ∧
      request = .need rendering.document rendering.line type title members ∧
      (rendering.remoteField ≠ rendering.localField → members.get? name = some (.text link)) := by
  simp only [needRequest, Result.bind_eq_ok_iff] at made
  obtain ⟨type, _, title, _, own, putLocal, linked, putRemote, members, mapped, finished⟩ := made
  cases finished
  obtain ⟨key, isKey, isPut⟩ := Result.bind_eq_ok_iff.mp putLocal
  cases isPut
  obtain ⟨namesKept, othersKept⟩ := kept_of_putLink putRemote
  -- All names in a request are texts, so that of the field is.
  obtain ⟨kept, inFields, sameKey⟩ := Table.exists_mem_put key (Value.text link) _
  obtain ⟨field, inLinked, rfl⟩ := List.mem_map.mp (namesKept kept (List.mem_map_of_mem inFields))
  obtain ⟨member, _, isMember⟩ := Result.exists_of_mem_mapM mapped inLinked
  rw [requestMember_eq_ok isMember] at sameKey
  obtain rfl : key = .text member.1 := sameKey.elim Eq.symm Key.text_same_iff.mp
  have isField := Value.asKey_eq_text_iff.mp isKey
  refine ⟨member.1, _, _, members, isField, rfl, fun different => ?_⟩
  rw [get?_of_requestMembers mapped, othersKept _ (isField ▸ different), Table.get?_put_self]

/-! ## Rendering -/

/-- The request is for a need whose local link is the path from the document to the copy of its
source file, with the line. -/
def Rendering.LinksLocally (rendering : Rendering) (entry : Analysis.Entry) (request : NeedsRequest) :
    Prop :=
  ∃ fields target toFile toPage remote,
    rendering.targetOf entry.file = .ok target ∧
      relativePaths (.ofText rendering.document) target rendering.output = .ok (toFile, toPage) ∧
      needRequest rendering fields (some (pathLink toFile (entry.row + 1))) remote = .ok request

theorem linksLocally_of_renderNeed (linked : rendering.localField.truthy = true)
    {result : Except Fault (Option Nat)} {request : NeedsRequest}
    (ran : (renderNeed rendering entry).run.run state = (result, after))
    (added : after.needs = state.needs ++ [request]) : rendering.LinksLocally entry request := by
  obtain ⟨fields, target, links, _, remote, _, _, isTarget, isLinked, _, made⟩ :=
    request_of_renderNeed ran added
  obtain ⟨toFile, toPage, _, isRelative, rfl, _⟩ := localLinks_eq_ok linked isLinked
  rw [Option.map_some, linkName_linesPart] at made
  exact ⟨fields, target, toFile, toPage, remote, isTarget, isRelative, made⟩

theorem output_of_prepareRendering [Libraries] {document : String} {line : Value} {traced : Traced}
    (ran : (prepareRendering document line traced).run.run state = (.ok rendering, after)) :
    rendering.output = state.output := by
  simp only [prepareRendering, Result.run_bind_eq_ok_iff, Step.run_get_eq_ok_iff] at ran
  obtain ⟨_, _, ⟨rfl, rfl⟩, _, _, _, _, _, _, finished⟩ := ran
  cases finished
  rfl

/-- In a document, the first of the two paths leads from the page of the document to the file. So
the needs that a directive asks for have as local link the path from the page to the copy of their
source file and their line, unless the remote link is put into the same field. -/
theorem localLinks_of_document [Libraries] {document : Path} (isDocument : IsDocument document) :
    (∀ target output below, target.relativeTo output = .ok below →
      ∃ toFile toPage, relativePaths document target output = .ok (toFile, toPage) ∧
        (output.join document.parent).LeadsTo toFile target) ∧
    ∀ (call : Call) (traced : Traced) (rendering : Rendering) (state prepared after : State)
      (result : Except Fault (List Nat)), call.document = document.text →
      call.prepare.run.run state = (.ok (traced, rendering), prepared) →
      rendering.localField.truthy = true → call.run.run.run state = (result, after) →
      ∃ asked requests, asked <+: traced.run.needs.filter holdsFields ∧
        (result.isOk = true → asked = traced.run.needs.filter holdsFields) ∧
        after.needs =
          state.needs ++ requests ++ (if result.isOk then [.document call.document] else []) ∧
        List.Forall₂ (fun entry request => ∃ name target toFile toPage type title fields,
          rendering.localField = .text name ∧ rendering.targetOf entry.file = .ok target ∧
            relativePaths document target state.output = .ok (toFile, toPage) ∧
            (state.output.join document.parent).LeadsTo toFile target ∧
            request = .need call.document call.line type title fields ∧
            (rendering.remoteField ≠ rendering.localField → fields.get? name =
              some (.text (toFile.text ++ "#L" ++ toString (entry.row + 1))))) asked requests := by
  have leads : ∀ target output below, target.relativeTo output = .ok below →
      ∃ toFile toPage, relativePaths document target output = .ok (toFile, toPage) ∧
        (output.join document.parent).LeadsTo toFile target := by
    intro target output below isBelow
    exact ⟨_, _, relativePaths_of_document isDocument isBelow, isDocument.leadsTo_file isBelow⟩
  refine ⟨leads, ?_⟩
  intro call traced rendering state prepared after result isNamed prepares linked ran
  obtain ⟨kept, rendered, isRendered, needs⟩ := renderNeeds_of_call prepares ran
  obtain ⟨asked, requests, isPrefix, related, added, complete⟩ :=
    forall₂_of_renderNeeds (linksLocally_of_renderNeed linked) isRendered
  refine ⟨asked, requests, isPrefix, complete, by rw [needs, added, kept], ?_⟩
  obtain ⟨found, isTraced, isPrepared⟩ := Call.prepare_eq_ok_iff.mp prepares
  obtain ⟨isDocumentName, isLine, _⟩ := remoteSource_of_prepareRendering isPrepared
  have isOutput : rendering.output = state.output :=
    (output_of_prepareRendering isPrepared).trans (advances_of_traceProject isTraced).output
  have isPath : Path.ofText rendering.document = document := by
    rw [isDocumentName, isNamed, isDocument.read.ofText_text]
  refine related.imp fun entry request links => ?_
  obtain ⟨fields, target, toFile, toPage, remote, isTarget, isRelative, made⟩ := links
  rw [isPath, isOutput] at isRelative
  obtain ⟨below, isBelow, _⟩ := Result.bind_eq_ok_iff.mp isRelative
  obtain ⟨_, _, again, leadsThere⟩ := leads target state.output below isBelow
  cases isRelative.symm.trans again
  obtain ⟨name, type, title, members, isField, isNeed, inField⟩ := localField_of_needRequest made
  rw [isDocumentName, isLine] at isNeed
  exact ⟨name, target, toFile, toPage, type, title, members, isField, isTarget, isRelative, leadsThere,
    isNeed, inField⟩

/-- A need in the second row of a file, and a document that both lie in directories. -/
theorem localLinks_of_deep_document :
    let document : Path := ⟨.relative, ["guide", "intro"]⟩
    let state := buildOf [("p", ["s"])] [(["s", "lib", "a.c"], "/* x\n@T, I\n*/")]
    let call : Call :=
      ⟨.object [("project", .text "p"), ("file", .text "lib/a.c")], "guide/intro", .int 1⟩
    IsDocument document ∧ call.document = document.text ∧
      ∃ traced rendering prepared numbers after requests,
        call.prepare.run.run state = (.ok (traced, rendering), prepared) ∧
        call.run.run.run state = (.ok numbers, after) ∧
        (traced.run.needs.filter holdsFields).map (fun entry => (entry.file.text, entry.row)) =
          [("/s/lib/a.c", 1)] ∧
        after.needs = requests ++ [.document "guide/intro"] ∧
        List.Forall₂ (fun entry request => ∃ name target toFile type title fields,
          rendering.targetOf entry.file = .ok target ∧
            (state.output.join document.parent).LeadsTo toFile target ∧
            request = .need "guide/intro" (.int 1) type title fields ∧
            fields.get? name = some (.text (toFile.text ++ "#L" ++ toString (entry.row + 1))))
          (traced.run.needs.filter holdsFields) requests := by
  intro document state call
  have isDocument : IsDocument document := ⟨rfl, by decide, by decide, by decide⟩
  have isNamed : call.document = document.text := by decide +kernel
  have evaluated : ((call.prepare.run.run state).1.map fun both =>
      (both.2.localField.truthy, both.2.remoteField.isNull,
        (both.1.run.needs.filter holdsFields).map fun entry => (entry.file.text, entry.row))).toOption =
      some (true, true, [("/s/lib/a.c", 1)]) := by
    decide +kernel
  have called : ((call.run.run.run state).1.map List.length).toOption = some 1 := by
    decide +kernel
  have fresh : state.needs = [] := rfl
  obtain ⟨⟨traced, rendering⟩, prepared, prepares, seen⟩ := Result.exists_ok_of_view evaluated
  simp only [Prod.mk.injEq] at seen
  obtain ⟨linked, noRemote, needs⟩ := seen
  obtain ⟨numbers, after, ran, _⟩ := Result.exists_ok_of_view called
  obtain ⟨asked, requests, _, complete, added, related⟩ :=
    (localLinks_of_document isDocument).2 call traced rendering state prepared after (.ok numbers)
      isNamed prepares linked ran
  rw [complete rfl] at related
  refine ⟨isDocument, isNamed, traced, rendering, prepared, numbers, after, requests, prepares, ran, needs,
    by rw [added, fresh]; rfl, related.imp ?_⟩
  rintro entry request ⟨name, target, toFile, _, type, title, fields, isField, isTarget, _, leads, isNeed,
    inField⟩
  refine ⟨name, target, toFile, type, title, fields, isTarget, leads, isNeed, inField ?_⟩
  intro same
  rw [same, isField] at noRemote
  cases noRemote

end Tracemark.Build
