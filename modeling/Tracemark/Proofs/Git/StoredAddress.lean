import Tracemark.Git.Repository
import Tracemark.Proofs.Store
import Tracemark.Proofs.Text.Blank
import Tracemark.Proofs.Text.Lines
import Tracemark.Proofs.Text.Search

/-!
# The stored address of a remote

A settings file that says of a remote only its address gives this address as it is stored, unless
it holds a percent sign. Percent signs refer to options: an address can be read only if each of
them is written twice, and is then read with each of them once.
-/

set_option autoImplicit false

namespace Tracemark.Git

namespace Ini

/-! ## Percent signs in values -/

/-- The value with each percent sign written twice. -/
def doubled (value : List Char) : List Char :=
  Text.replaceChar '%' ['%', '%'] value

theorem doubled_cons_of_ne {c : Char} (other : c ≠ '%') (value : List Char) :
    doubled (c :: value) = c :: doubled value := by
  simp [doubled, Text.replaceChar, other]

theorem doubled_cons_percent (value : List Char) :
    doubled ('%' :: value) = '%' :: '%' :: doubled value := by
  simp [doubled, Text.replaceChar]

theorem length_doubled (value : List Char) :
    (doubled value).length = value.length + value.count '%' := by
  induction value with
  | nil => rfl
  | cons c rest ih =>
      by_cases percent : c = '%'
      · subst percent
        rw [doubled_cons_percent, List.count_cons_self]
        simp only [List.length_cons]
        omega
      · rw [doubled_cons_of_ne percent, List.count_cons_of_ne percent]
        simp only [List.length_cons]
        omega

theorem doubled_eq_self_iff {value : List Char} : doubled value = value ↔ '%' ∉ value := by
  constructor
  · intro same
    have lengths := length_doubled value
    rw [same] at lengths
    exact List.count_eq_zero.mp (by omega)
  · intro absent
    induction value with
    | nil => rfl
    | cons c rest ih =>
        obtain ⟨different, inRest⟩ := not_or.mp (mt List.mem_cons.mpr absent)
        rw [doubled_cons_of_ne (Ne.symm different), ih inRest]

variable {context : Substitution} {inner : List Char → Except Fault (List Char)}

/-- Percent signs that are written twice become one, whatever can be referred to. -/
theorem substituteWith_doubled {shown : List Char} {steps : Nat}
    (enough : (doubled shown).length ≤ steps) :
    substituteWith context inner steps (doubled shown) = .ok shown := by
  induction shown generalizing steps with
  | nil =>
      cases steps with
      | zero => rfl
      | succ steps => rfl
  | cons c rest ih =>
      by_cases percent : c = '%'
      · subst percent
        rw [doubled_cons_percent] at enough ⊢
        cases steps with
        | zero => simp at enough
        | succ steps =>
            have fits : (doubled rest).length ≤ steps := by
              simp only [List.length_cons] at enough
              omega
            unfold substituteWith
            simp only [bne_self_eq_false, Bool.false_eq_true, if_false]
            rw [ih fits]
            rfl
      · rw [doubled_cons_of_ne percent] at enough ⊢
        cases steps with
        | zero => simp at enough
        | succ steps =>
            have fits : (doubled rest).length ≤ steps := Nat.le_of_succ_le_succ enough
            have plain : (c != '%') = true := bne_iff_ne.mpr percent
            unfold substituteWith
            rw [if_pos plain, ih fits]
            rfl

/-- Where no value that is referred to can be had, only a value without references can. -/
theorem eq_doubled_of_substituteWith
    (refused : ∀ name value, option? context.options name = some (some value) →
      value.contains '%' = true ∧ ∀ shown, inner value ≠ .ok shown)
    {steps : Nat} {value shown : List Char} (enough : value.length ≤ steps)
    (replaced : substituteWith context inner steps value = .ok shown) : value = doubled shown := by
  induction steps generalizing value shown with
  | zero =>
      obtain rfl := List.length_eq_zero_iff.mp (Nat.le_zero.mp enough)
      cases replaced
      rfl
  | succ steps ih =>
      cases value with
      | nil =>
          cases replaced
          rfl
      | cons c rest =>
          unfold substituteWith at replaced
          split at replaced
          · rename_i plain
            obtain ⟨others, replacedRest, rfl⟩ := Result.map_eq_ok_iff.mp replaced
            rw [doubled_cons_of_ne (bne_iff_ne.mp plain),
              ← ih (Nat.le_of_succ_le_succ enough) replacedRest]
          · rename_i percent
            obtain rfl : c = '%' := by simpa using percent
            split at replaced
            · rename_i more
              obtain ⟨others, replacedRest, rfl⟩ := Result.map_eq_ok_iff.mp replaced
              have fits : more.length ≤ steps := by
                simp only [List.length_cons] at enough
                omega
              rw [doubled_cons_percent, ← ih fits replacedRest]
            · split at replaced
              · cases replaced
              · split at replaced
                · cases replaced
                · cases replaced
                · rename_i found
                  obtain ⟨holds, unreadable⟩ := refused _ _ found
                  rw [if_pos holds] at replaced
                  obtain ⟨inserted, isInserted, _⟩ := Result.bind_eq_ok_iff.mp replaced
                  exact absurd isInserted (unreadable inserted)
            · cases replaced

theorem substitute_doubled (depth : Nat) (shown : List Char) :
    substitute context depth (doubled shown) = .ok shown := by
  cases depth with
  | zero => exact substituteWith_doubled (Nat.le_succ _)
  | succ depth => exact substituteWith_doubled (Nat.le_succ _)

section

variable {option : String} {raw : List Char}

theorem eq_of_option?_only {name : String} {value : List Char}
    (only : context.options = [(option, some raw)])
    (found : option? context.options name = some (some value)) : value = raw := by
  rw [option?, only, List.find?_singleton] at found
  split at found
  · simpa using found.symm
  · cases found

theorem substitute_ne_ok (only : context.options = [(option, some raw)])
    (written : ∀ shown, raw ≠ doubled shown) (depth : Nat) (shown : List Char) :
    substitute context depth raw ≠ .ok shown := by
  have holds : raw.contains '%' = true := by
    refine List.contains_iff_mem.mpr (Decidable.byContradiction fun absent => ?_)
    exact written raw (doubled_eq_self_iff.mpr absent).symm
  have stuck : ∀ (inner : List Char → Except Fault (List Char)) (steps : Nat) (shown : List Char),
      raw.length ≤ steps → (∀ other, inner raw ≠ .ok other) →
      substituteWith context inner steps raw ≠ .ok shown := by
    intro inner steps shown enough fails replaced
    refine written shown (eq_doubled_of_substituteWith ?_ enough replaced)
    intro name value found
    rw [eq_of_option?_only only found]
    exact ⟨holds, fails⟩
  -- Each reference leads back to the value itself, at one depth less.
  induction depth generalizing shown with
  | zero => exact stuck _ _ shown (Nat.le_succ _) nofun
  | succ depth ih => exact stuck _ _ shown (Nat.le_succ _) ih

/-- The value of the only option can refer to nothing but itself, so it is read exactly if each of
its percent signs is written twice. -/
theorem substitute_eq_ok_iff {shown : List Char} (only : context.options = [(option, some raw)])
    (depth : Nat) : substitute context depth raw = .ok shown ↔ raw = doubled shown := by
  constructor
  · intro replaced
    by_cases written : ∃ other, raw = doubled other
    · obtain ⟨other, rfl⟩ := written
      rw [substitute_doubled] at replaced
      rw [Except.ok.inj replaced]
    · exact absurd replaced (substitute_ne_ok only (not_exists.mp written) depth shown)
  · rintro rfl
    exact substitute_doubled depth shown

end

/-! ## Reading a file of one option -/

theorem linesOf_append_cons {line : List Char} (unbroken : '\n' ∉ line) (rest : List Char) :
    linesOf (line ++ '\n' :: rest) = (line ++ ['\n']) :: linesOf rest := by
  induction line with
  | nil => rfl
  | cons c line ih =>
      obtain ⟨different, inLine⟩ := not_or.mp (mt List.mem_cons.mpr unbroken)
      simp [linesOf, Ne.symm different, ih inLine]

theorem linesOf_of_absent {line : List Char} (unbroken : '\n' ∉ line) (some : line ≠ []) :
    linesOf line = [line] := by
  induction line with
  | nil => exact absurd rfl some
  | cons c line ih =>
      obtain ⟨different, inLine⟩ := not_or.mp (mt List.mem_cons.mpr unbroken)
      cases line with
      | nil => simp [linesOf, Ne.symm different]
      | cons next line =>
          rw [linesOf, ih inLine (List.cons_ne_nil _ _)]
          simp [Ne.symm different]

/-- The name in a section line may hold brackets. -/
theorem sectionName?_of_line {name : List Char} (some : name ≠ []) :
    sectionName? ('[' :: (name ++ [']'])) = Option.some name := by
  have notFirst : (name.length == 0) = false := by simpa using some
  simp only [sectionName?, Text.findLast?_append_self, notFirst]
  simp

def start : ReadState :=
  ⟨[], none, none, 0, false⟩

def within (name : String) : ReadState :=
  ⟨[(name, [])], some name, none, 0, false⟩

theorem readLine_section (file : String) (number : Nat) {name : String} (named : name ≠ "") :
    readLine file number ('[' :: (name.toList ++ [']']) ++ ['\n']) start = .ok (within name) := by
  have some : name.toList ≠ [] := mt String.toList_eq_nil_iff.mp named
  have trimmed : Text.IsTrimmed ('[' :: (name.toList ++ [']'])) := by
    constructor
    · rintro c ⟨⟩
      rfl
    · intro c last
      rw [← List.cons_append, List.getLast?_concat] at last
      cases last
      rfl
  have text : Text.trim ('[' :: (name.toList ++ [']']) ++ ['\n']) = '[' :: (name.toList ++ [']']) := by
    rw [Text.trim, Text.trimBy_append _ (by simp [Text.isBlank])]
    exact trimmed.trim_eq
  unfold readLine
  rw [text]
  simp only [start, ReadState.currentValue?, readHead, sectionName?_of_line some, String.ofList_toList]
  rfl

def addressLine (address : List Char) : List Char :=
  "url = ".toList ++ address

theorem addressLine_eq_cons (address : List Char) :
    addressLine address = 'u' :: ("rl = ".toList ++ address) :=
  rfl

theorem optionLine_addressLine {address : List Char} (trimmed : Text.IsTrimmed address) :
    optionLine (addressLine address) = ("url".toList, some address) := by
  have value : Text.trim ([' '] ++ address ++ []) = address :=
    trimmed.trim_padded (by simp [Text.isBlank]) (by simp)
  rw [List.append_nil] at value
  exact Prod.ext rfl (congrArg some value)

theorem isTrimmed_addressLine {address : List Char} (trimmed : Text.IsTrimmed address)
    (some : address ≠ []) : Text.IsTrimmed (addressLine address) := by
  constructor
  · rintro c ⟨⟩
    rfl
  · intro c last
    unfold addressLine at last
    rw [List.getLast?_append_of_ne_nil _ some] at last
    exact trimmed.last c last

theorem readLine_address (file : String) (number : Nat) (name : String)
    {indent address ending : List Char} (indented : ∀ c ∈ indent, Text.isBlank c = true)
    (ended : ∀ c ∈ ending, Text.isBlank c = true) (some : address ≠ [])
    (trimmed : Text.IsTrimmed address) :
    ∃ state, readLine file number (indent ++ addressLine address ++ ending) (within name) = .ok state ∧
      state.sections = [(name, [("url", Option.some [address])])] ∧ state.misread = false := by
  have text := (isTrimmed_addressLine trimmed some).trim_padded indented ended
  have noSection : sectionName? (addressLine address) = none := rfl
  have spelled : spelling "url".toList = "url" := by decide +kernel
  have known : (within name).currentValue? = none := rfl
  unfold readLine
  rw [text, known]
  rw [addressLine_eq_cons]
  dsimp only
  rw [if_neg (by decide)]
  unfold readHead
  rw [← addressLine_eq_cons, noSection]
  dsimp only [within]
  rw [optionLine_addressLine trimmed]
  refine ⟨_, rfl, ?_, rfl⟩
  dsimp only
  rw [spelled]
  simp [ReadState.putOptions, ReadState.optionsOf, putOption]

def addressFile (name : String) (indent address ending : List Char) : List Char :=
  '[' :: (name.toList ++ [']']) ++ '\n' :: (indent ++ addressLine address ++ ending)

theorem read_addressFile (file : String) {name : String} (named : name ≠ "")
    (unbrokenName : '\n' ∉ name.toList) {indent address ending : List Char}
    (indented : ∀ c ∈ indent, Text.isBlank c = true ∧ c ≠ '\n')
    (ended : ending = [] ∨ ending = ['\n']) (some : address ≠ [])
    (unbroken : '\n' ∉ address) (trimmed : Text.IsTrimmed address) :
    read file (addressFile name indent address ending) =
      .ok [(name, [("url", Option.some address)])] := by
  have unbrokenHead : '\n' ∉ '[' :: (name.toList ++ [']']) := by simp [unbrokenName]
  have unbrokenLine : '\n' ∉ indent ++ addressLine address := by
    have inIndent : '\n' ∉ indent := fun member => (indented _ member).2 rfl
    simp [addressLine_eq_cons, inIndent, unbroken]
  have divided : linesOf (addressFile name indent address ending) =
      [('[' :: (name.toList ++ [']']) ++ ['\n']), indent ++ addressLine address ++ ending] := by
    rw [addressFile, linesOf_append_cons unbrokenHead]
    rcases ended with rfl | rfl
    · rw [List.append_nil, linesOf_of_absent unbrokenLine (by simp [addressLine_eq_cons])]
    · rw [linesOf_append_cons unbrokenLine]
      rfl
  have endedBlank : ∀ c ∈ ending, Text.isBlank c = true := by
    rcases ended with rfl | rfl
    · simp
    · simp [Text.isBlank]
  obtain ⟨state, isRead, sections, understood⟩ := readLine_address file 2 name
    (fun c member => (indented c member).1) endedBlank some trimmed
  have lines : readLines file 1 (linesOf (addressFile name indent address ending)) start =
      .ok state := by
    rw [divided]
    simp only [readLines, readLine_section file 1 named, bind, Except.bind, isRead]
  have joined : joinLines (Option.some [address]) = Option.some address := by
    simp [joinLines, trimmed.dropTail_eq]
  refine Result.bind_eq_ok_iff.mpr ⟨state, lines, ?_⟩
  rw [understood, sections]
  simp only [List.map_cons, List.map_nil, joined]
  rfl

/-- The only option of a file is found, and its value is read without what it could refer to. -/
theorem value?_of_only {name : String} (ordinary : name ≠ defaultSection) {option : String}
    {raw : List Char} {found : Option (Option (List Char))} :
    value? [(name, [(option, some raw)])] name option = .ok found ↔
      ∃ shown, raw = doubled shown ∧ found = some (some shown) := by
  have options : optionsIn? [(name, [(option, some raw)])] name = some [(option, some raw)] := by
    simp [optionsIn?, ordinary]
  have isFound : option? [(option, some raw)] option = some (some raw) := by simp [option?]
  unfold value?
  rw [options]
  dsimp only
  rw [isFound]
  dsimp only
  rw [Result.map_eq_ok_iff]
  have replaced : ∀ shown, _ ↔ raw = doubled shown := fun shown =>
    @substitute_eq_ok_iff ⟨name, option, raw, [(option, some raw)]⟩ option raw shown rfl substitutionDepth
  simp only [replaced, @eq_comm _ found]

end Ini

/-! ## Remotes -/

def remoteTitle (name : String) : String :=
  s!"remote \"{name}\""

theorem toList_remoteTitle (name : String) :
    (remoteTitle name).toList = "remote \"".toList ++ name.toList ++ ['"'] := by
  change ("remote \"" ++ name ++ "\"").toList = _
  rw [String.toList_append, String.toList_append]
  rfl

theorem readSections_of_readUnified {store : Store} {path : Path} {text : List Char}
    (isRead : readUnified store path = .ok text) :
    store.contains path = .ok true ∧ readSections store path = Ini.read path.text text := by
  obtain ⟨content, holds, _⟩ := Result.map_eq_ok_iff.mp isRead
  refine ⟨Store.contains_of_readText holds, ?_⟩
  rw [readSections, isRead]

/-- An address that is in the settings is all that is looked for. -/
theorem remoteAddress_of_sections {session : Session} {root : Path} {name : String}
    {sections : Ini.Sections}
    (contained : session.store.contains ((ownDirectory root).child "config") = .ok true)
    (isRead : readSections session.store ((ownDirectory root).child "config") = .ok sections)
    (present : Ini.value? sections (remoteTitle name) "url" ≠ .ok none) :
    (remoteAddress root name).run.run session =
      ((Ini.value? sections (remoteTitle name) "url").map fun found =>
        found.bind (Option.map String.ofList), session) := by
  have reads : Action.store.run.run session = (.ok session.store, session) := rfl
  have takes : ∀ {α : Type} (result : Except Fault α),
      (Action.ofExcept result).run.run session = (result, session) := fun _ => rfl
  unfold remoteAddress
  rw [Result.run_bind_of_ok reads]
  dsimp only
  rw [Result.run_bind_of_ok ((takes _).trans (by rw [contained])), if_pos rfl,
    Result.run_bind_of_ok ((takes _).trans (by rw [isRead]))]
  cases found : Ini.value? sections (remoteTitle name) "url" with
  | error fault => exact Result.run_bind_of_error ((takes _).trans (by rw [← found]; rfl)) _
  | ok value =>
      rw [Result.run_bind_of_ok ((takes _).trans (by rw [← found]; rfl))]
      cases value with
      | none => exact absurd found present
      | some address => rfl

/-- Where a settings file says of a remote only its address, the result is the address as it is
stored exactly if it holds no percent sign. It can be read at all exactly if its percent signs
come in pairs, and each pair is read as one. -/
theorem storedAddress_of_settings {session : Session} {root : Path} {name : String}
    {indent address ending : List Char} (unbrokenName : '\n' ∉ name.toList)
    (indented : ∀ c ∈ indent, Text.isBlank c = true ∧ c ≠ '\n')
    (ended : ending = [] ∨ ending = ['\n']) (notEmpty : address ≠ []) (unbroken : '\n' ∉ address)
    (trimmed : Text.IsTrimmed address)
    (isRead : readUnified session.store ((ownDirectory root).child "config") =
      .ok (Ini.addressFile (remoteTitle name) indent address ending)) :
    ∃ outcome, (remoteAddress root name).run.run session = (outcome, session) ∧
      (outcome = .ok (some (String.ofList address)) ↔ '%' ∉ address) ∧
      ∀ found, outcome = .ok found ↔
        ∃ shown, address = Ini.doubled shown ∧ found = some (String.ofList shown) := by
  obtain ⟨contained, isSections⟩ := readSections_of_readUnified isRead
  have titled := toList_remoteTitle name
  have first : (remoteTitle name).toList.head? = some 'r' := by
    rw [titled]
    rfl
  have named : remoteTitle name ≠ "" := by
    intro empty
    rw [empty] at first
    cases first
  have ordinary : remoteTitle name ≠ Ini.defaultSection := by
    intro same
    rw [same] at first
    exact absurd first (by decide)
  have unbrokenTitle : '\n' ∉ (remoteTitle name).toList := by
    rw [titled]
    simp [unbrokenName]
  rw [Ini.read_addressFile _ named unbrokenTitle indented ended notEmpty unbroken trimmed] at isSections
  have value := @Ini.value?_of_only (remoteTitle name) ordinary "url" address
  have present : Ini.value? [(remoteTitle name, [("url", some address)])] (remoteTitle name) "url" ≠
      .ok none := by
    intro absent
    obtain ⟨_, _, impossible⟩ := value.mp absent
    cases impossible
  have ran := remoteAddress_of_sections contained isSections present
  generalize Ini.value? [(remoteTitle name, [("url", some address)])] (remoteTitle name) "url" = result
    at value ran
  have read : ∀ found, (result.map fun found => found.bind (Option.map String.ofList)) = .ok found ↔
      ∃ shown, address = Ini.doubled shown ∧ found = some (String.ofList shown) := by
    intro found
    simp only [Result.map_eq_ok_iff, value]
    constructor
    · rintro ⟨_, ⟨shown, isDoubled, rfl⟩, rfl⟩
      exact ⟨shown, isDoubled, rfl⟩
    · rintro ⟨shown, isDoubled, rfl⟩
      exact ⟨_, ⟨shown, isDoubled, rfl⟩, rfl⟩
  refine ⟨_, ran, ?_, read⟩
  rw [read]
  constructor
  · rintro ⟨shown, isDoubled, same⟩
    obtain rfl : address = shown := String.ofList_injective (Option.some.inj same)
    exact Ini.doubled_eq_self_iff.mp isDoubled.symm
  · intro absent
    exact ⟨address, (Ini.doubled_eq_self_iff.mpr absent).symm, rfl⟩

def settingsStore (content : String) : Store :=
  ⟨⟨.absolute, []⟩, [([".git"], .directory), ([".git", "config"], .file (Utf8.encode content.toList))]⟩

/-- An address in which a blank is written as a percent sign and its code cannot be read. -/
theorem storedAddress_of_coded_blank :
    let address := "https://example.org/a%20b.git".toList
    let root : Path := ⟨.absolute, []⟩
    let session : Session :=
      ⟨settingsStore "[remote \"origin\"]\r\n\turl = https://example.org/a%20b.git\r\n",
        .knowing [], []⟩
    readUnified session.store ((ownDirectory root).child "config") =
        .ok (Ini.addressFile (remoteTitle "origin") ['\t'] address ['\n']) ∧
      Text.IsTrimmed address ∧ '%' ∈ address ∧
      ∃ outcome, (remoteAddress root "origin").run.run session = (outcome, session) ∧
        outcome ≠ .ok (some (String.ofList address)) ∧ outcome.toOption = none := by
  intro address root session
  have isRead : readUnified session.store ((ownDirectory root).child "config") =
      .ok (Ini.addressFile (remoteTitle "origin") ['\t'] address ['\n']) :=
    Result.eq_ok_of_toOption (by decide +kernel)
  have trimmed : Text.IsTrimmed address := by decide +kernel
  have percent : '%' ∈ address := by decide +kernel
  have evaluated : ((remoteAddress root "origin").run.run session).1.toOption = none := by
    decide +kernel
  obtain ⟨outcome, ran, asStored, _⟩ :=
    @storedAddress_of_settings session root "origin" ['\t'] address ['\n'] (by decide)
      (List.forall_mem_singleton.mpr ⟨rfl, by decide⟩) (.inr rfl) (by decide) (by decide) trimmed isRead
  rw [ran] at evaluated
  exact ⟨isRead, trimmed, percent, outcome, ran, fun same => asStored.mp same percent, evaluated⟩

end Tracemark.Git
