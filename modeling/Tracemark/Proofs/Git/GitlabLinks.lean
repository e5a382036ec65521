import Tracemark.Libraries.Reference
import Tracemark.Proofs.Git.ShellAddress
import Tracemark.Proofs.Git.WebLink

/-!
# Links into repositories on GitLab

A link into such a repository has a fixed domain in it, and of the names in the address only those
of the owner and the repository. It is below the pages of the repository that the address names
only where the address has this domain and no groups.
-/

set_option autoImplicit false

namespace Tracemark.Git

def pageBase (domain owner : List Char) (groups : List (List Char)) (repository : List Char)
    (revision : String) : List Char :=
  "https://".toList ++ (domain ++ '/' :: (owner ++ '/' :: (groupPath groups ++
    (repository ++ '/' :: ("-/blob/".toList ++ (revision.toList ++ ['/']))))))

theorem webLink_gitlab [Libraries] {address : String} {remote : Remote}
    (known : Libraries.remote? address.toList = some remote) (isGitlab : remote.host = .gitlab)
    (revision : String) :
    ∃ base : String,
      base.toList = pageBase "gitlab.com".toList remote.owner [] remote.repository revision ∧
      ∀ (working project file : Path) (line : String),
        webLink working address revision project file line =
          ([], ((file.absolute working).relativeTo project).map fun relative =>
            linkTo base relative.text.toList line) := by
  obtain ⟨base, isBase⟩ := Remote.HasPages.exists_linkBase (.inr isGitlab) revision
  refine ⟨base, ?_, ?_⟩
  · simp only [linkBase?, isGitlab, Option.some.injEq] at isBase
    rw [← isBase]
    unfold pageBase
    simp [groupPath, toString]
  · intro working project file line
    simp only [webLink, known, isBase]
    rw [isGitlab]

/-- What ends in a sign reaches into a text without the sign only where it ends before it. -/
theorem prefix_of_sign_not_mem {sign : Char} {front base tail : List Char} (absent : sign ∉ tail)
    (isPrefix : front ++ [sign] <+: base ++ tail) : front ++ [sign] <+: base := by
  rcases List.prefix_or_prefix_of_prefix isPrefix (List.prefix_append base tail) with
    inBase | inFront
  · exact inBase
  · obtain ⟨more, isFront⟩ := inFront
    rw [← isFront, List.prefix_append_right_inj] at isPrefix
    rcases List.eq_nil_or_concat more with rfl | ⟨inside, last, rfl⟩
    · rw [List.append_nil] at isFront
      exact isFront ▸ List.prefix_refl _
    · rw [List.concat_eq_append] at isFront isPrefix
      rw [← List.append_assoc] at isFront
      have isSign := (List.append_inj' isFront rfl).2
      cases isSign
      exact absurd (isPrefix.subset (List.mem_append_right _ (List.mem_singleton_self _))) absent

theorem exists_pageBase_eq (domain owner : List Char) (groups : List (List Char))
    (repository : List Char) (revision : String) :
    ∃ front, pageBase domain owner groups repository revision = front ++ ['/'] := by
  refine ⟨"https://".toList ++ (domain ++ '/' :: (owner ++ '/' :: (groupPath groups ++
    (repository ++ '/' :: ("-/blob/".toList ++ revision.toList))))), ?_⟩
  unfold pageBase
  simp only [List.append_assoc, List.cons_append]

/-- Pages that start in the same way are those of the same repository. -/
theorem pageBase_prefix_iff {domain owner repository host other name tail : List Char}
    {groups : List (List Char)} {revision : String}
    (plain : PlainAddress domain owner groups repository) (hostFree : '/' ∉ host)
    (otherFree : '/' ∉ other) (nameFree : '/' ∉ name) (tailFree : '/' ∉ tail) :
    pageBase domain owner groups repository revision <+:
        pageBase host other [] name revision ++ tail ↔
      domain = host ∧ owner = other ∧ groups = [] ∧ repository = name := by
  constructor
  · intro isPrefix
    obtain ⟨front, isFront⟩ := exists_pageBase_eq domain owner groups repository revision
    rw [isFront] at isPrefix
    obtain ⟨more, isPage⟩ := prefix_of_sign_not_mem tailFree isPrefix
    rw [← isFront] at isPage
    unfold pageBase at isPage
    simp only [List.append_assoc, List.cons_append, List.append_cancel_left_eq] at isPage
    obtain ⟨isHost, isPage⟩ := Text.divided_inj plain.domain.slash hostFree isPage
    obtain ⟨isOwner, isPage⟩ := Text.divided_inj plain.owner.slash otherFree isPage
    refine ⟨isHost, isOwner, ?_⟩
    cases groups with
    | nil =>
        refine ⟨rfl, ?_⟩
        exact (Text.divided_inj plain.repository.slash nameFree isPage).1
    | cons group groups =>
        -- The first group stands where the repository does, and what follows is too long.
        rw [groupPath_cons, List.append_assoc, List.cons_append] at isPage
        have groupFree := (plain.groups group List.mem_cons_self).slash
        have lengths := congrArg List.length (Text.divided_inj groupFree nameFree isPage).2
        simp only [List.length_append, List.length_cons] at lengths
        omega
  · intro ⟨isHost, isOwner, noGroups, isName⟩
    rw [isHost, isOwner, noGroups, isName]
    exact List.prefix_append _ _

/-- How a remote is read from an address. Its names have no slash. Without groups they are those
of the address, except that digits at the front of the owner are taken for a port. With groups they
are as well, unless there may be a port or a place in a repository. -/
structure Remote.IsReadFrom (remote : Remote) (owner : List Char) (groups : List (List Char))
    (repository : List Char) : Prop where
  slash_not_mem : '/' ∉ remote.owner ∧ '/' ∉ remote.repository
  without_groups : groups = [] →
    (remote.owner = owner ↔ (startsWithDigit owner = true → owner.length = 1)) ∧
      remote.repository = repository
  without_places : startsWithDigit owner = false → NoPlaces groups →
    remote.owner = owner ∧ remote.repository = repository

/-- Remotes on GitLab are read in this way from all plain addresses for shell access. -/
def ReadsShellAddresses [Libraries] : Prop :=
  ∀ domain owner groups repository remote, PlainAddress domain owner groups repository →
    Libraries.remote? (shellAddress domain owner groups repository) = some remote →
    remote.host = .gitlab → remote.IsReadFrom owner groups repository

theorem readsShellAddresses_reference : @ReadsShellAddresses Libraries.reference := by
  intro domain owner groups repository remote plain known isGitlab
  exact ⟨plain.slash_not_mem known isGitlab, plain.owner_of_no_groups known isGitlab,
    plain.eq_of_noPlaces known isGitlab⟩

/-- Links have the domain of the host in them and the owner and the repository that were read from
the address. They are to the pages of the repository that the address names exactly where this is
its domain, it has no groups, and no digits of the owner are taken for a port. -/
theorem webLink_shellAddress [Libraries] (reads : ReadsShellAddresses)
    {domain owner repository : List Char} {groups : List (List Char)}
    (plain : PlainAddress domain owner groups repository) {remote : Remote}
    (known : Libraries.remote? (shellAddress domain owner groups repository) = some remote)
    (isGitlab : remote.host = .gitlab) (revision : String) :
    (∃ base : String,
      base.toList = pageBase "gitlab.com".toList remote.owner [] remote.repository revision ∧
      ∀ (working project file : Path) (line : String),
        webLink working (String.ofList (shellAddress domain owner groups repository)) revision
            project file line =
          ([], ((file.absolute working).relativeTo project).map fun relative =>
            linkTo base relative.text.toList line)) ∧
    ((∀ (working project file : Path) (line link : String),
      webLink working (String.ofList (shellAddress domain owner groups repository)) revision
          project file line = ([], .ok link) →
        pageBase domain owner groups repository revision <+: link.toList) ↔
      domain = "gitlab.com".toList ∧ groups = [] ∧
        (startsWithDigit owner = true → owner.length = 1)) ∧
    (startsWithDigit owner = false → NoPlaces groups →
      remote.owner = owner ∧ remote.repository = repository) := by
  have isRead := reads _ _ _ _ _ plain known isGitlab
  have isKnown :
      Libraries.remote? (String.ofList (shellAddress domain owner groups repository)).toList =
        some remote := by
    rw [String.toList_ofList]
    exact known
  obtain ⟨base, isBase, isLink⟩ := webLink_gitlab isKnown isGitlab revision
  refine ⟨⟨base, isBase, isLink⟩, ?_, isRead.without_places⟩
  constructor
  · intro toPages
    -- The project itself has the shortest link.
    have isPrefix := toPages ⟨.absolute, []⟩ ⟨.absolute, []⟩ ⟨.absolute, []⟩ "" _
      (isLink ⟨.absolute, []⟩ ⟨.absolute, []⟩ ⟨.absolute, []⟩ "")
    rw [toList_linkTo, isBase] at isPrefix
    obtain ⟨ownerFree, nameFree⟩ := isRead.slash_not_mem
    obtain ⟨isDomain, isOwner, noGroups, _⟩ :=
      (pageBase_prefix_iff plain (by decide) ownerFree nameFree (by decide)).mp isPrefix
    exact ⟨isDomain, noGroups, (isRead.without_groups noGroups).1.mp isOwner.symm⟩
  · intro ⟨isDomain, noGroups, noPort⟩ working project file line link linked
    obtain ⟨isOwner, isRepository⟩ := isRead.without_groups noGroups
    rw [isLink] at linked
    obtain ⟨relative, _, rfl⟩ := Result.map_eq_ok_iff.mp (Prod.mk.inj linked).2
    rw [toList_linkTo, isBase, isOwner.mpr noPort, isRepository, isDomain, noGroups]
    exact List.prefix_append _ _

theorem webLink_shellAddress_of_nested_group :
    Libraries.remote? (shellAddress "gitlab.example.com".toList "team".toList ["sub".toList]
      "lib".toList) = some ⟨.gitlab, "team".toList, "lib".toList⟩ ∧
    ¬ ∀ (working project file : Path) (line link : String),
      webLink working (String.ofList (shellAddress "gitlab.example.com".toList "team".toList
          ["sub".toList] "lib".toList)) "abc" project file line = ([], .ok link) →
        pageBase "gitlab.example.com".toList "team".toList ["sub".toList] "lib".toList "abc" <+:
          link.toList := by
  have plain : PlainAddress "gitlab.example.com".toList "team".toList ["sub".toList]
      "lib".toList := by
    refine ⟨⟨?_, ?_, ?_, ?_⟩, ⟨?_, ?_, ?_, ?_⟩, List.forall_mem_singleton.mpr ⟨?_, ?_, ?_, ?_⟩,
      ⟨?_, ?_, ?_, ?_⟩⟩
    all_goals decide
  have known : Libraries.remote? (shellAddress "gitlab.example.com".toList "team".toList
      ["sub".toList] "lib".toList) = some ⟨.gitlab, "team".toList, "lib".toList⟩ := by
    decide +kernel
  refine ⟨known, ?_⟩
  intro toPages
  obtain ⟨_, pointsThere, _⟩ :=
    webLink_shellAddress readsShellAddresses_reference plain known rfl "abc"
  cases (pointsThere.mp toPages).2.1

end Tracemark.Git
