import Mathlib.Data.List.Basic
import Tracemark.Git.Hosts
import Tracemark.Proofs.Text.Pattern
import Tracemark.Proofs.Text.Search

/-!
# Addresses for shell access

An address for shell access names a domain, an owner, groups and a repository. Of such an address
the owner and the repository are read, but not always as they were written: digits at the front of
the owner are taken for a port, and a group that is called like a place in a repository ends it.
-/

set_option autoImplicit false

namespace Tracemark.Git

open Text.Pattern

/-- A name without the characters that divide an address. -/
structure IsPlain (name : List Char) : Prop where
  notEmpty : name ≠ []
  slash : '/' ∉ name
  colon : ':' ∉ name
  newline : '\n' ∉ name

def groupPath (groups : List (List Char)) : List Char :=
  groups.flatMap fun group => group ++ ['/']

theorem groupPath_cons (group : List Char) (groups : List (List Char)) :
    groupPath (group :: groups) = group ++ '/' :: groupPath groups := by
  simp [groupPath]

theorem not_mem_groupPath {c : Char} (other : c ≠ '/') {groups : List (List Char)}
    (absent : ∀ group ∈ groups, c ∉ group) : c ∉ groupPath groups := by
  intro member
  obtain ⟨group, inGroups, inGroup⟩ := List.mem_flatMap.mp member
  rcases List.mem_append.mp inGroup with inName | isSlash
  · exact absent group inGroups inName
  · exact other (List.mem_singleton.mp isSlash)

theorem exists_groupPath_eq {groups : List (List Char)} (notEmpty : groups ≠ []) :
    ∃ inside, groupPath groups = inside ++ ['/'] := by
  induction groups with
  | nil => exact absurd rfl notEmpty
  | cons group groups ih =>
      rw [groupPath_cons]
      cases groups with
      | nil => exact ⟨group, rfl⟩
      | cons next groups =>
          obtain ⟨inside, isPath⟩ := ih (List.cons_ne_nil _ _)
          exact ⟨group ++ '/' :: inside, by rw [isPath, List.append_assoc, List.cons_append]⟩

def shellAddress (domain owner : List Char) (groups : List (List Char)) (repository : List Char) :
    List Char :=
  "git@".toList ++ (domain ++ ':' :: (owner ++ '/' :: (groupPath groups ++
    (repository ++ ".git".toList))))

/-! ## The end of an address -/

/-- What may follow the name of a repository. -/
def nameEnd : List Text.Pattern :=
  .optional (word ".git") :: placeIn "/-/tree/"

/-- The name of a repository and what may follow it. -/
def named : List Text.Pattern :=
  .capture "repository" (few .notSlash) :: nameEnd

def afterGroups : List Text.Pattern :=
  .optional (.ifCaptured "groups" (word "/")) :: named

theorem groupsAndRepository_eq :
    groupsAndRepository = .optional (.capture "groups" (.many .any 0 false)) :: afterGroups := rfl

/-- The text begins like a place in a repository. -/
def IsPlace (text : List Char) : Prop :=
  ∃ marker rest, text = marker ++ rest ∧
    (Text.Reads "/blob/".toList marker ∨ Text.Reads "/-/tree/".toList marker)

/-- No slash of the text begins a place in a repository. -/
def Unplaced (text : List Char) : Prop :=
  ∀ front rest, text = front ++ '/' :: rest → ¬ IsPlace ('/' :: rest)

/-- A place begins with a name between two slashes. -/
theorem IsPlace.exists_name {text : List Char} (place : IsPlace text) :
    ∃ name rest, text = '/' :: (name ++ '/' :: rest) ∧ '/' ∉ name ∧
      (Text.Reads "blob".toList name ∨ Text.Reads "-".toList name) := by
  obtain ⟨marker, rest, rfl, reads⟩ := place
  have divided : ∀ word more, Text.Reads ('/' :: (word ++ '/' :: more)) marker →
      ∃ name after, marker = '/' :: (name ++ '/' :: after) ∧ Text.Reads word name := by
    intro word more reads
    obtain ⟨inside, rfl, readsInside⟩ := (Text.reads_sign_cons_iff (by decide)).mp reads
    obtain ⟨name, _, rfl, readsName, readsAfter⟩ := readsInside.exists_append
    obtain ⟨after, rfl, _⟩ := (Text.reads_sign_cons_iff (by decide)).mp readsAfter
    exact ⟨name, after, rfl, readsName⟩
  rcases reads with blob | tree
  · obtain ⟨name, after, rfl, readsName⟩ := divided "blob".toList [] blob
    exact ⟨name, after ++ rest, by simp, readsName.not_mem (by decide), .inl readsName⟩
  · obtain ⟨name, after, rfl, readsName⟩ := divided "-".toList "tree/".toList tree
    exact ⟨name, after ++ rest, by simp, readsName.not_mem (by decide), .inr readsName⟩

theorem Unplaced.of_append {front rest : List Char} (unplaced : Unplaced (front ++ rest)) :
    Unplaced rest := by
  intro before after divided
  apply unplaced (front ++ before)
  rw [divided, List.append_assoc]

variable {input rest : List Char} {captures found : Text.Captures}

theorem exists_end_of_matches_nameEnd (matched : (all nameEnd).Matches input captures rest found) :
    found = captures ∧ ∃ suffix middle, input = suffix ++ middle ∧
      (suffix = [] ∨ Text.Reads ".git".toList suffix) ∧
      (middle = [] ∨ middle = ['\n'] ∨ IsPlace middle) := by
  simp only [nameEnd, placeIn, matches_all_cons_iff] at matched
  obtain ⟨middle, between, suffixed, last, placed, isPlace, _, _, ⟨atEnd, rfl, rfl⟩, rfl, rfl⟩ :=
    matched
  have ended : found = between ∧ (middle = [] ∨ middle = ['\n'] ∨ IsPlace middle) := by
    rcases isPlace with ⟨more, among, marked, rfl, _⟩ | ⟨rfl, rfl⟩
    · rcases marked with blob | tree
      · obtain ⟨same, marker, isMarked, reads⟩ := matches_word_iff.mp blob
        exact ⟨same, .inr (.inr ⟨marker, more, isMarked, .inl reads⟩)⟩
      · obtain ⟨same, marker, isMarked, reads⟩ := matches_word_iff.mp tree
        exact ⟨same, .inr (.inr ⟨marker, more, isMarked, .inr reads⟩)⟩
    · exact ⟨rfl, atEnd.imp_right .inl⟩
  rcases suffixed with suffixed | ⟨rfl, rfl⟩
  · obtain ⟨same, suffix, isInput, reads⟩ := matches_word_iff.mp suffixed
    exact ⟨ended.1.trans same, suffix, middle, isInput, .inr reads, ended.2⟩
  · exact ⟨ended.1, [], middle, rfl, .inl rfl, ended.2⟩

theorem exists_name_of_matches_named (matched : (all named).Matches input captures rest found) :
    ∃ name suffix middle, input = name ++ (suffix ++ middle) ∧
      found = ("repository", name) :: captures ∧ name ≠ [] ∧ '/' ∉ name ∧
      (suffix = [] ∨ Text.Reads ".git".toList suffix) ∧
      (middle = [] ∨ middle = ['\n'] ∨ IsPlace middle) := by
  simp only [named, matches_all_cons_iff] at matched
  obtain ⟨between, inside, ⟨_, ⟨rfl, name, rfl, all, enough⟩, rfl⟩, atEnd⟩ := matched
  obtain ⟨rfl, suffix, middle, rfl, suffixed, ended⟩ := exists_end_of_matches_nameEnd atEnd
  rw [consumed_append]
  refine ⟨name, suffix, middle, rfl, rfl, List.length_pos_iff.mp enough, ?_, suffixed, ended⟩
  intro member
  exact absurd (all '/' member) (by decide)

theorem slash_not_mem_suffix {suffix : List Char}
    (suffixed : suffix = [] ∨ Text.Reads ".git".toList suffix) : '/' ∉ suffix := by
  rcases suffixed with rfl | reads
  · exact List.not_mem_nil
  · exact reads.not_mem (by decide)

/-- A name does not reach over a slash, so it is read only before a place in a repository. -/
theorem matchThen_named_eq_none {α : Type} {next : List Char → Text.Captures → Option α}
    (slash : '/' ∈ input) (unplaced : Unplaced input) :
    (all named).matchThen input captures next = none := by
  rw [matchThen_eq_none_iff]
  intro rest found matched
  obtain ⟨name, suffix, middle, rfl, _, _, nameFree, suffixed, ended⟩ :=
    exists_name_of_matches_named matched
  have inMiddle : '/' ∈ middle := by
    simpa [nameFree, slash_not_mem_suffix suffixed] using slash
  rcases ended with rfl | rfl | place
  · cases inMiddle
  · simp at inMiddle
  · obtain ⟨_, _, rfl, _⟩ := place.exists_name
    exact absurd place (unplaced (name ++ suffix) _ (List.append_assoc _ _ _).symm)

/-- The whole match succeeds with what was captured. -/
def accept (_ : List Char) (captures : Text.Captures) : Option Text.Captures :=
  some captures

variable {repository : List Char}

theorem IsPlain.not_mem_suffixed (plain : IsPlain repository) :
    '/' ∉ repository ++ ".git".toList ∧ ':' ∉ repository ++ ".git".toList ∧
      '\n' ∉ repository ++ ".git".toList := by
  simp only [List.mem_append, plain.slash, plain.colon, plain.newline, false_or]
  decide

theorem bne_of_not_mem {sign : Char} {name : List Char} (absent : sign ∉ name) :
    ∀ c ∈ name, (c != sign) = true := by
  intro c member
  apply bne_iff_ne.mpr
  intro same
  rw [same] at member
  exact absent member

/-- The suffix is not read as part of the name, since fewer characters are tried first. -/
theorem matchThen_named (plain : IsPlain repository) (captures : Text.Captures) :
    (all named).matchThen (repository ++ ".git".toList) captures accept =
      some (("repository", repository) :: captures) := by
  obtain ⟨noSlash, _, noBreak⟩ := plain.not_mem_suffixed
  rw [named, matchThen_all_cons]
  apply matchThen_lazyCapture (bne_of_not_mem plain.slash)
    (List.length_pos_iff.mpr plain.notEmpty)
  · rfl
  · intro before back divided some
    rw [divided, List.append_assoc] at noSlash noBreak
    apply matchThen_eq_none_iff.mpr
    intro rest found matched
    obtain ⟨-, suffix, middle, isEnd, suffixed, ended⟩ := exists_end_of_matches_nameEnd matched
    rw [isEnd] at noSlash noBreak
    have noMiddle : middle = [] := by
      rcases ended with isNil | rfl | place
      · exact isNil
      · simp at noBreak
      · obtain ⟨_, _, rfl, _⟩ := place.exists_name
        simp at noSlash
    have longer := List.length_pos_iff.mpr some
    have lengths := congrArg List.length isEnd
    rw [noMiddle, List.append_nil, List.length_append] at lengths
    rcases suffixed with rfl | reads
    · rw [List.length_nil] at lengths
      omega
    · rw [← reads.length_eq] at lengths
      omega

/-! ## Groups -/

theorem matchThen_groupsAndRepository {groups ending : List Char} {result : Text.Captures}
    (noBreak : '\n' ∉ groups)
    (succeeds : (all afterGroups).matchThen ending (("groups", groups) :: captures) accept =
      some result)
    (fails : ∀ front back, groups = front ++ back → back ≠ [] →
      (all afterGroups).matchThen (back ++ ending) (("groups", front) :: captures) accept = none) :
    (all groupsAndRepository).matchThen (groups ++ ending) captures accept = some result := by
  rw [groupsAndRepository_eq, matchThen_all_cons, matchThen_optional, Option.or_eq_some_iff]
  exact .inl (matchThen_lazyCapture (bne_of_not_mem noBreak) (Nat.zero_le _) succeeds fails)

theorem matchThen_afterGroups (groups : List Char) :
    (all afterGroups).matchThen input (("groups", groups) :: captures) accept =
      ((word "/").matchThen input (("groups", groups) :: captures) fun middle between =>
        (all named).matchThen middle between accept).or
      ((all named).matchThen input (("groups", groups) :: captures) accept) := by
  rw [afterGroups, matchThen_all_cons, matchThen_optional]
  rfl

theorem matchThen_without_groups (plain : IsPlain repository) (captures : Text.Captures) :
    (all groupsAndRepository).matchThen (repository ++ ".git".toList) captures accept =
      some (("repository", repository) :: ("groups", []) :: captures) := by
  rw [← List.nil_append (repository ++ _)]
  apply matchThen_groupsAndRepository List.not_mem_nil
  · obtain ⟨first, others, rfl⟩ := List.exists_cons_of_ne_nil plain.notEmpty
    have noSlash : (word "/").matchThen (first :: others ++ ".git".toList)
        (("groups", []) :: captures) (fun middle between =>
          (all named).matchThen middle between accept) = none := by
      apply matchThen_eq_none_iff.mpr
      intro rest found ⟨_, c, isInput, same⟩
      obtain ⟨rfl, _⟩ := List.cons.inj isInput
      rw [Text.CharClass.eq_of_sameLetter (by decide) same] at plain
      exact absurd List.mem_cons_self plain.slash
    rw [matchThen_afterGroups, noSlash, Option.none_or]
    exact matchThen_named plain _
  · intro front back divided some
    exact absurd (List.append_eq_nil_iff.mp divided.symm).2 some

theorem matchThen_with_groups {groups : List Char} (plain : IsPlain repository)
    (noBreak : '\n' ∉ groups) (unplaced : Unplaced (groups ++ '/' :: (repository ++ ".git".toList)))
    (captures : Text.Captures) :
    (all groupsAndRepository).matchThen (groups ++ '/' :: (repository ++ ".git".toList)) captures
      accept = some (("repository", repository) :: ("groups", groups) :: captures) := by
  apply matchThen_groupsAndRepository noBreak
  · rw [matchThen_afterGroups, Option.or_eq_some_iff]
    exact .inl (matchThen_named plain _)
  · intro front back divided some
    rw [divided, List.append_assoc] at unplaced
    have unplacedBack := unplaced.of_append
    rw [matchThen_afterGroups, Option.or_eq_none_iff]
    constructor
    · apply matchThen_eq_none_iff.mpr
      intro middle found ⟨_, c, isInput, same⟩
      obtain ⟨first, others, rfl⟩ := List.exists_cons_of_ne_nil some
      obtain ⟨rfl, rfl⟩ := List.cons.inj isInput
      apply matchThen_named_eq_none
      · exact List.mem_append_right _ List.mem_cons_self
      · exact @Unplaced.of_append [first] _ unplacedBack
    · exact matchThen_named_eq_none (List.mem_append_right _ List.mem_cons_self) unplacedBack

/-- No group after the first is called like a place in a repository. -/
def NoPlaces (groups : List (List Char)) : Prop :=
  ∀ group ∈ groups.tail, ¬ Text.Reads "blob".toList group ∧ ¬ Text.Reads "-".toList group

theorem unplaced_groupPath {groups : List (List Char)} (plain : ∀ group ∈ groups, IsPlain group)
    (noPlaces : NoPlaces groups) {ending : List Char} (noSlash : '/' ∉ ending) :
    Unplaced (groupPath groups ++ ending) := by
  induction groups with
  | nil =>
      intro front rest divided
      rw [groupPath, List.flatMap_nil, List.nil_append] at divided
      rw [divided] at noSlash
      exact absurd (List.mem_append_right _ List.mem_cons_self) noSlash
  | cons group groups ih =>
      obtain ⟨groupPlain, othersPlain⟩ := List.forall_mem_cons.mp plain
      rw [groupPath_cons, List.append_assoc, List.cons_append]
      intro front rest divided
      by_cases later : '/' ∈ front
      · obtain ⟨before, after, rfl, absent⟩ := List.eq_append_cons_of_mem later
        rw [List.append_assoc, List.cons_append] at divided
        obtain ⟨_, inRest⟩ := Text.divided_inj groupPlain.slash absent divided
        refine ih othersPlain ?_ after rest inRest
        intro other member
        exact noPlaces other (List.mem_of_mem_tail member)
      · obtain ⟨_, rfl⟩ := Text.divided_inj groupPlain.slash later divided
        intro place
        obtain ⟨name, more, isPlace, nameFree, reads⟩ := place.exists_name
        have isRest := (List.cons.inj isPlace).2
        cases groups with
        | nil =>
            rw [groupPath, List.flatMap_nil, List.nil_append] at isRest
            rw [isRest] at noSlash
            exact noSlash (List.mem_append_right _ List.mem_cons_self)
        | cons next groups =>
            rw [groupPath_cons, List.append_assoc, List.cons_append] at isRest
            have nextFree := (othersPlain next List.mem_cons_self).slash
            obtain ⟨rfl, _⟩ := Text.divided_inj nextFree nameFree isRest
            obtain ⟨notBlob, notDash⟩ := noPlaces next List.mem_cons_self
            exact reads.elim notBlob notDash

theorem matchThen_groupPath {groups : List (List Char)}
    (plainGroups : ∀ group ∈ groups, IsPlain group) (noPlaces : NoPlaces groups)
    (plain : IsPlain repository) (captures : Text.Captures) :
    ∃ inside, (all groupsAndRepository).matchThen
      (groupPath groups ++ (repository ++ ".git".toList)) captures accept =
        some (("repository", repository) :: ("groups", inside) :: captures) := by
  have unplaced := unplaced_groupPath plainGroups noPlaces plain.not_mem_suffixed.1
  have noBreak := not_mem_groupPath (by decide) fun group member =>
    (plainGroups group member).newline
  by_cases none : groups = []
  · rw [none]
    exact ⟨[], matchThen_without_groups plain captures⟩
  · obtain ⟨inside, isPath⟩ := exists_groupPath_eq none
    rw [isPath, List.append_assoc, List.singleton_append] at unplaced ⊢
    rw [isPath] at noBreak
    have insideFree := mt (List.mem_append_left _) noBreak
    exact ⟨inside, matchThen_with_groups plain insideFree unplaced captures⟩

/-! ## The owner -/

/-- The owner, the groups and the repository, after what may be a port. -/
def owned : List Text.Pattern :=
  .optional (word "/") :: .capture "owner" (most .notSlash) :: word "/" :: groupsAndRepository

def afterColon : List Text.Pattern :=
  .optional (most .digit) :: owned

theorem exists_owner_of_owned {result : Text.Captures}
    (succeeded : (all owned).matchThen input captures accept = some result) :
    ∃ slash owner middle, input = slash ++ (owner ++ '/' :: middle) ∧
      (slash = [] ∨ slash = ['/']) ∧ '/' ∉ owner ∧ owner ≠ [] ∧
      (all groupsAndRepository).matchThen middle (("owner", owner) :: captures) accept =
        some result := by
  have read : ∀ text, (all (.capture "owner" (most .notSlash) :: word "/" ::
      groupsAndRepository)).matchThen text captures accept = some result →
      ∃ owner middle, text = owner ++ '/' :: middle ∧ '/' ∉ owner ∧ owner ≠ [] ∧
        (all groupsAndRepository).matchThen middle (("owner", owner) :: captures) accept =
          some result := by
    intro text succeeded
    obtain ⟨owner, middle, isText, all, enough, later⟩ :=
      exists_front_of_capture (by decide) succeeded
    refine ⟨owner, middle, isText, ?_, List.length_pos_iff.mp enough, later⟩
    intro member
    exact absurd (all '/' member) (by decide)
  rw [owned, matchThen_all_cons, matchThen_optional, Option.or_eq_some_iff] at succeeded
  rcases succeeded with taken | ⟨_, skipped⟩
  · obtain ⟨text, _, ⟨rfl, c, rfl, same⟩, later⟩ := exists_matches_of_matchThen taken
    obtain rfl := Text.CharClass.eq_of_sameLetter (by decide) same
    obtain ⟨owner, middle, rfl, absent, notEmpty, isResult⟩ := read text later
    exact ⟨['/'], owner, middle, rfl, .inr rfl, absent, notEmpty, isResult⟩
  · obtain ⟨owner, middle, rfl, absent, notEmpty, isResult⟩ := read input skipped
    exact ⟨[], owner, middle, rfl, .inl rfl, absent, notEmpty, isResult⟩

theorem get?_of_groupsAndRepository {result : Text.Captures}
    (succeeded : (all groupsAndRepository).matchThen input captures accept = some result) :
    result.get? "owner" = captures.get? "owner" ∧
      ∃ name, result.get? "repository" = some name ∧ '/' ∉ name := by
  obtain ⟨_, found, matched, isResult⟩ := exists_matches_of_matchThen succeeded
  cases isResult
  simp only [groupsAndRepository_eq, afterGroups, matches_all_cons_iff] at matched
  obtain ⟨_, between, grouped, _, among, slashed, isNamed⟩ := matched
  have same : among = between := by
    rcases slashed with slashed | ⟨_, same⟩
    · simp only [Matches] at slashed
      split at slashed
      · exact (matches_word_iff.mp slashed).1
      · exact slashed.2
    · exact same
  obtain ⟨name, _, _, _, rfl, _, absent, _⟩ := exists_name_of_matches_named isNamed
  rw [same]
  refine ⟨?_, name, rfl, absent⟩
  rcases grouped with ⟨_, ⟨rfl, _⟩, rfl⟩ | ⟨_, rfl⟩
  all_goals rfl

theorem owned_of_plain {owner path : List Char} {result : Text.Captures} (plain : IsPlain owner)
    (succeeded : (all owned).matchThen (owner ++ '/' :: path) captures accept = some result) :
    (all groupsAndRepository).matchThen path (("owner", owner) :: captures) accept = some result := by
  obtain ⟨slash, other, middle, isText, slashed, absent, _, later⟩ :=
    exists_owner_of_owned succeeded
  rcases slashed with rfl | rfl
  · obtain ⟨rfl, rfl⟩ := Text.divided_inj plain.slash absent isText
    exact later
  · obtain ⟨first, others, rfl⟩ := List.exists_cons_of_ne_nil plain.notEmpty
    obtain ⟨rfl, _⟩ := List.cons.inj isText
    exact absurd List.mem_cons_self plain.slash

theorem matchThen_owned_ne_none {name : List Char} (notEmpty : name ≠ []) (noSlash : '/' ∉ name)
    (plain : IsPlain repository) :
    (all owned).matchThen (name ++ '/' :: (repository ++ ".git".toList)) captures accept ≠ none := by
  intro failed
  rw [owned, matchThen_all_cons, matchThen_optional, Option.or_eq_none_iff, matchThen_all_cons]
    at failed
  have atSlash := matchThen_eq_none_iff.mp failed.2 _ _ ⟨captures, ⟨rfl, name, rfl,
    bne_of_not_mem noSlash, List.length_pos_iff.mpr notEmpty⟩, rfl⟩
  rw [matchThen_all_cons] at atSlash
  cases (matchThen_without_groups plain _).symm.trans atSlash

/-! ## Ports -/

def startsWithDigit (name : List Char) : Bool :=
  name.head?.any Text.CharClass.digit.holds

/-- Digits at the front are a port if an owner can be read after them. -/
theorem port_or_owned {result : Text.Captures}
    (succeeded : (all afterColon).matchThen input captures accept = some result) :
    (∃ rest, Leaves .digit 1 input rest ∧
      (all owned).matchThen rest captures accept = some result) ∨
    ((∀ rest, Leaves .digit 1 input rest → (all owned).matchThen rest captures accept = none) ∧
      (all owned).matchThen input captures accept = some result) := by
  rw [afterColon, matchThen_all_cons, matchThen_optional, Option.or_eq_some_iff] at succeeded
  rcases succeeded with taken | ⟨failed, skipped⟩
  · obtain ⟨rest, _, ⟨rfl, leaves⟩, isResult⟩ := exists_matches_of_matchThen taken
    exact .inl ⟨rest, leaves, isResult⟩
  · refine .inr ⟨?_, skipped⟩
    intro rest leaves
    exact matchThen_eq_none_iff.mp failed rest captures ⟨rfl, leaves⟩

section Port

variable {owner path : List Char} (plain : IsPlain owner)
include plain

theorem startsWithDigit_of_leaves (leaves : Leaves .digit 1 (owner ++ '/' :: path) rest) :
    startsWithDigit owner = true := by
  obtain ⟨first, others, rfl⟩ := List.exists_cons_of_ne_nil plain.notEmpty
  rcases leaves_cons_iff.mp leaves with ⟨isZero, _⟩ | ⟨isDigit, _⟩
  · cases isZero
  · exact isDigit

/-- Without groups the owner loses the digits that are taken for a port. -/
theorem exists_shorter_of_leaves {result : Text.Captures} (noSlash : '/' ∉ path)
    (leaves : Leaves .digit 1 (owner ++ '/' :: path) rest)
    (succeeded : (all owned).matchThen rest captures accept = some result) :
    ∃ other, (other ≠ [] ∧ other.length < owner.length) ∧
      (all groupsAndRepository).matchThen path (("owner", other) :: captures) accept =
        some result := by
  obtain ⟨port, divided, digits, enough⟩ := leaves
  obtain ⟨slash, other, middle, rfl, slashed, absent, notEmpty, later⟩ :=
    exists_owner_of_owned succeeded
  have portFree : '/' ∉ port := by
    intro member
    exact absurd (digits '/' member) (by decide)
  rcases slashed with rfl | rfl
  · rw [List.nil_append, ← List.append_assoc] at divided
    have bothFree : '/' ∉ port ++ other := by simp [portFree, absent]
    obtain ⟨rfl, rfl⟩ := Text.divided_inj plain.slash bothFree divided
    refine ⟨other, ⟨notEmpty, ?_⟩, later⟩
    rw [List.length_append]
    omega
  · obtain ⟨_, rfl⟩ := Text.divided_inj plain.slash portFree divided
    exact absurd (List.mem_append_right _ List.mem_cons_self) noSlash

/-- Without groups the owner is read as it was written exactly where it has no digit to lose. -/
theorem result_without_groups {result : Text.Captures} (plainRepository : IsPlain repository)
    (succeeded : (all afterColon).matchThen (owner ++ '/' :: (repository ++ ".git".toList)) captures
      accept = some result) :
    ∃ other, result = ("repository", repository) :: ("groups", []) :: ("owner", other) :: captures ∧
      (other = owner ↔ (startsWithDigit owner = true → owner.length = 1)) := by
  have noSlash := plainRepository.not_mem_suffixed.1
  have isResult : ∀ other, (all groupsAndRepository).matchThen (repository ++ ".git".toList)
      (("owner", other) :: captures) accept = some result →
      result = ("repository", repository) :: ("groups", []) :: ("owner", other) :: captures := by
    intro other later
    exact Option.some.inj (later.symm.trans (matchThen_without_groups plainRepository _))
  rcases port_or_owned succeeded with ⟨rest, leaves, isOwned⟩ | ⟨failed, isOwned⟩
  · obtain ⟨other, ⟨notEmpty, shorter⟩, later⟩ :=
      exists_shorter_of_leaves plain noSlash leaves isOwned
    refine ⟨other, isResult other later, ?_⟩
    have longer := List.length_pos_iff.mpr notEmpty
    constructor
    · intro same
      rw [same] at shorter
      exact absurd shorter (Nat.lt_irrefl _)
    · intro single
      have isSingle := single (startsWithDigit_of_leaves plain leaves)
      omega
  · refine ⟨owner, isResult owner (owned_of_plain plain isOwned), iff_of_true rfl ?_⟩
    intro digit
    obtain ⟨first, others, rfl⟩ := List.exists_cons_of_ne_nil plain.notEmpty
    apply Classical.byContradiction
    intro several
    have notEmpty : others ≠ [] := by
      intro isNil
      exact several (by rw [isNil, List.length_singleton])
    -- The first digit alone could be the port, and the others the owner.
    have othersFree := mt (List.mem_cons_of_mem _) plain.slash
    apply matchThen_owned_ne_none notEmpty othersFree plainRepository
    apply failed
    exact ⟨[first], rfl, List.forall_mem_singleton.mpr digit, Nat.le_refl _⟩

theorem result_with_groups {groups : List (List Char)} {result : Text.Captures}
    (plainGroups : ∀ group ∈ groups, IsPlain group) (noPlaces : NoPlaces groups)
    (plainRepository : IsPlain repository) (noDigit : startsWithDigit owner = false)
    (succeeded : (all afterColon).matchThen (owner ++ '/' :: (groupPath groups ++
      (repository ++ ".git".toList))) captures accept = some result) :
    ∃ inside, result =
      ("repository", repository) :: ("groups", inside) :: ("owner", owner) :: captures := by
  rcases port_or_owned succeeded with ⟨rest, leaves, _⟩ | ⟨_, isOwned⟩
  · cases noDigit.symm.trans (startsWithDigit_of_leaves plain leaves)
  · obtain ⟨inside, isRead⟩ := matchThen_groupPath plainGroups noPlaces plainRepository
      (("owner", owner) :: captures)
    exact ⟨inside, Option.some.inj ((owned_of_plain plain isOwned).symm.trans isRead)⟩

end Port

theorem slash_not_mem_of_afterColon {result : Text.Captures}
    (succeeded : (all afterColon).matchThen input captures accept = some result) :
    '/' ∉ (result.get? "owner").getD [] ∧ '/' ∉ (result.get? "repository").getD [] := by
  obtain ⟨rest, isOwned⟩ : ∃ rest, (all owned).matchThen rest captures accept = some result := by
    rcases port_or_owned succeeded with ⟨rest, _, isOwned⟩ | ⟨_, isOwned⟩
    · exact ⟨rest, isOwned⟩
    · exact ⟨input, isOwned⟩
  obtain ⟨_, owner, _, _, _, absent, _, later⟩ := exists_owner_of_owned isOwned
  obtain ⟨isOwner, name, isName, nameFree⟩ := get?_of_groupsAndRepository later
  rw [isOwner, isName]
  exact ⟨absent, nameFree⟩

/-! ## Whole addresses -/

/-- Of the forms of the host only the one for shell access fits the address. -/
theorem exists_captures_of_remote? {text : List Char} {remote : Remote}
    (known : remote? ("git@".toList ++ text) = some remote) (isGitlab : remote.host = .gitlab) :
    ∃ result, (all (domain .any :: word ":" :: afterColon)).matchThen text [] accept = some result ∧
      remote.owner = (result.get? "owner").getD [] ∧
      remote.repository = (result.get? "repository").getD [] := by
  obtain ⟨host, inHosts, byForm⟩ := List.exists_of_findSome?_eq_some known
  obtain ⟨form, inForms, isRead⟩ := List.exists_of_findSome?_eq_some byForm
  simp only [Host.remoteBy?, Option.bind_eq_bind, Option.bind_eq_some_iff] at isRead
  obtain ⟨result, matched, found, _, isRemote⟩ := isRead
  obtain ⟨_, isRemote⟩ := Option.ite_none_right_eq_some.mp isRemote
  cases isRemote
  refine ⟨result, ?_, rfl, rfl⟩
  simp only [hosts, List.mem_cons, List.not_mem_nil, or_false] at inHosts
  rcases inHosts with rfl | rfl | rfl | rfl | rfl | rfl
  all_goals cases isGitlab
  simp only [List.mem_cons, List.not_mem_nil, or_false] at inForms
  rcases inForms with rfl | rfl | rfl
  · cases matched
  · exact matched
  · cases matched

structure PlainAddress (domain owner : List Char) (groups : List (List Char))
    (repository : List Char) : Prop where
  domain : IsPlain domain
  owner : IsPlain owner
  groups : ∀ group ∈ groups, IsPlain group
  repository : IsPlain repository

namespace PlainAddress

variable {domain owner : List Char} {groups : List (List Char)} {remote : Remote}
  (plain : PlainAddress domain owner groups repository)
  (known : remote? (shellAddress domain owner groups repository) = some remote)
  (isGitlab : remote.host = .gitlab)
include plain known isGitlab

theorem exists_result :
    ∃ result, (all afterColon).matchThen
      (owner ++ '/' :: (groupPath groups ++ (repository ++ ".git".toList))) [("domain", domain)]
        accept = some result ∧
      remote.owner = (result.get? "owner").getD [] ∧
      remote.repository = (result.get? "repository").getD [] := by
  obtain ⟨result, matched, isOwner, isRepository⟩ := exists_captures_of_remote? known isGitlab
  obtain ⟨front, middle, divided, _, _, later⟩ := exists_front_of_capture (by decide) matched
  have noColon : ':' ∉ owner ++ '/' :: (groupPath groups ++ (repository ++ ".git".toList)) := by
    have inGroups := not_mem_groupPath (by decide) fun group member =>
      (plain.groups group member).colon
    have inRepository := plain.repository.not_mem_suffixed.2.1
    simp only [List.mem_append, List.mem_cons, not_or] at inRepository ⊢
    exact ⟨plain.owner.colon, by decide, inGroups, inRepository⟩
  obtain ⟨rfl, _, rfl⟩ := (List.append_cons_inj_of_notMem plain.domain.colon noColon).mp divided
  exact ⟨result, later, isOwner, isRepository⟩

theorem slash_not_mem : '/' ∉ remote.owner ∧ '/' ∉ remote.repository := by
  obtain ⟨result, matched, isOwner, isRepository⟩ := plain.exists_result known isGitlab
  rw [isOwner, isRepository]
  exact slash_not_mem_of_afterColon matched

theorem owner_of_no_groups (noGroups : groups = []) :
    (remote.owner = owner ↔ (startsWithDigit owner = true → owner.length = 1)) ∧
      remote.repository = repository := by
  subst noGroups
  obtain ⟨result, matched, isOwner, isRepository⟩ := plain.exists_result known isGitlab
  obtain ⟨other, rfl, isSame⟩ := result_without_groups plain.owner plain.repository matched
  rw [isOwner, isRepository]
  exact ⟨isSame, rfl⟩

theorem eq_of_noPlaces (noDigit : startsWithDigit owner = false) (noPlaces : NoPlaces groups) :
    remote.owner = owner ∧ remote.repository = repository := by
  obtain ⟨result, matched, isOwner, isRepository⟩ := plain.exists_result known isGitlab
  obtain ⟨inside, rfl⟩ := result_with_groups plain.owner plain.groups noPlaces plain.repository
    noDigit matched
  rw [isOwner, isRepository]
  exact ⟨rfl, rfl⟩

end PlainAddress

end Tracemark.Git
