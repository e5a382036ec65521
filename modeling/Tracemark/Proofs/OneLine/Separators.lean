import Tracemark.Proofs.OneLine.Brackets
import Tracemark.Proofs.OneLine.RoundTrip

/-!
# Separators

Texts of any characters that are written with backslashes and joined by a separator are split into
the same texts, whatever character other than the backslash the separator is. Settings accept every
text as a separator. One that is longer than a character, or that is the backslash, divides nothing:
several values that it joins are read as one field.
-/

set_option autoImplicit false

namespace Tracemark.OneLine

/-- Splitting undoes escaping and joining. -/
theorem split_intercalate_escaped {separator : Char} (notBackslash : separator ≠ '\\')
    {texts : List (List Char)} (given : texts ≠ []) :
    split (some separator) [] ([separator].intercalate
      (texts.map (escaped fun c => c ∈ [separator, '[', ']', '\\']))) = texts := by
  have special : (fun c => decide (c ∈ [separator, '[', ']', '\\'])) = isSpecial (some separator) := by
    funext c
    rw [Bool.eq_iff_iff]
    simp [isSpecial, or_assoc]
  have written : texts.map (escaped (isSpecial (some separator))) =
      (texts.map Content.text).map (Content.written separator) := by
    simp [Content.written]
  rw [special, written, ← writtenMark, split_writtenTexts notBackslash given]

theorem split_intercalate_escaped_brackets :
    split (some ']') [] "\\]a\\\\]]\\[\\\\\\]".toList = ["]a\\".toList, [], "[\\]".toList] :=
  @split_intercalate_escaped ']' (by decide) ["]a\\".toList, [], "[\\]".toList] (by simp)

/-! ## What splitting keeps -/

theorem flatten_extendFirst (characters : List Char) (fields : List (List Char)) :
    (extendFirst characters fields).flatten = characters ++ fields.flatten := by
  cases fields <;> simp [extendFirst]

theorem length_extendFirst {fields : List (List Char)} (some : fields ≠ [])
    (characters : List Char) : (extendFirst characters fields).length = fields.length := by
  cases fields with
  | nil => exact absurd rfl some
  | cons field rest => rfl

/-- Without list fields, only a character that is not the backslash ends a field. -/
theorem length_splitFrom {separator : Option Char} (never : ∀ c, separator = some c → c = '\\')
    (state : SplitState) (text : List Char) : (splitFrom separator [] state text).length = 1 := by
  induction text generalizing state with
  | nil => rfl
  | cons c rest ih =>
      have one : ∀ (characters : List Char) (after : SplitState),
          (extendFirst characters (splitFrom separator [] after rest)).length = 1 := by
        intro characters after
        rw [length_extendFirst (splitFrom_ne_nil _ _ _ _), ih after]
      by_cases pending : state.escaped = true
      · simp [splitFrom, pending, one]
      · by_cases backslash : c = '\\'
        · simp [splitFrom, pending, backslash, ih]
        · have goesOn : some c ≠ separator := fun divides => backslash (never c divides.symm)
          simp [splitFrom, pending, backslash, goesOn, one]

/-- Every character but the backslash and the separator is kept as often as it occurs. -/
theorem count_splitFrom {separator : Option Char} {c : Char} (notBackslash : c ≠ '\\')
    (other : separator ≠ some c) (listPositions : List Nat) (state : SplitState)
    (text : List Char) :
    (splitFrom separator listPositions state text).flatten.count c = text.count c := by
  induction text generalizing state with
  | nil => rfl
  | cons character rest ih =>
      have extended : ∀ after : SplitState,
          (extendFirst [character] (splitFrom separator listPositions after rest)).flatten.count c =
            (character :: rest).count c := by
        intro after
        rw [flatten_extendFirst, List.count_append, ih, ← List.count_append, List.singleton_append]
      simp only [splitFrom]
      split
      · split
        · exact extended _
        · rw [flatten_extendFirst, List.count_append, ih,
            List.count_cons_of_ne notBackslash.symm, ← List.count_append, List.singleton_append]
      · split
        · rename_i escapes
          have isBackslash : character = '\\' := by
            rw [Bool.and_eq_true, beq_iff_eq] at escapes
            exact escapes.1
          rw [ih, isBackslash, List.count_cons_of_ne notBackslash.symm]
        · split
          · rename_i divides
            have different : character ≠ c := by
              intro same
              rw [beq_iff_eq, same] at divides
              exact other divides.symm
            split
            · exact extended _
            · rw [List.flatten_cons, List.nil_append, ih, List.count_cons_of_ne different]
          · exact extended _

theorem splitFrom_literal {separator : Option Char} {text : List Char}
    (literal : ∀ c ∈ text, c ≠ '\\' ∧ separator ≠ some c) {position : Nat} {bracketed : Bool} :
    splitFrom separator [] ⟨position, false, bracketed⟩ text = [text] := by
  induction text with
  | nil => rfl
  | cons c rest ih =>
      obtain ⟨⟨notBackslash, other⟩, others⟩ := List.forall_mem_cons.mp literal
      simp [splitFrom, notBackslash, Ne.symm other, ih others, extendFirst]

/-! ## Joined values -/

/-- A value that can stand in a mark as it is: a text of one line without blank space at its ends,
and without characters that divide, escape or are brackets. -/
structure IsLiteral (separator : String) (value : List Char) : Prop where
  some : value ≠ []
  trimmed : Text.IsTrimmed value
  oneLine : '\n' ∉ value
  literal : ∀ c ∈ value, c ≠ '\\' ∧ c ≠ '[' ∧ c ≠ ']'
  apart : ∀ c ∈ value, c ∉ separator.toList

/-- A separator at which fields end: one character, and not the one that escapes. -/
def Divides (separator : String) : Prop :=
  ∃ c, separator = String.singleton c ∧ c ≠ '\\'

theorem separatorOf?_eq_some_iff {text : List Char} {c : Char} :
    separatorOf? text = some c ↔ text = [c] := by
  unfold separatorOf?
  split <;> simp_all

theorem IsLiteral.separatorOf?_ne {separator : String} {value : List Char}
    (literal : IsLiteral separator value) {c : Char} (member : c ∈ value) :
    separatorOf? separator.toList ≠ .some c := by
  intro isSeparator
  rw [separatorOf?_eq_some_iff] at isSeparator
  exact literal.apart c member (by simp [isSeparator])

section Joined

variable {separator : String} {values : List (List Char)}
  (literal : ∀ value ∈ values, IsLiteral separator value)
include literal

theorem isTrimmed_joined (between : List Char) :
    Text.IsTrimmed (between.intercalate values) ∧ (values ≠ [] → between.intercalate values ≠ []) := by
  induction values with
  | nil => exact ⟨⟨by simp, by simp⟩, fun given => absurd rfl given⟩
  | cons value rest ih =>
      obtain ⟨first, others⟩ := List.forall_mem_cons.mp literal
      cases rest with
      | nil =>
          rw [List.intercalate_singleton]
          exact ⟨first.trimmed, fun _ => first.some⟩
      | cons next rest =>
          obtain ⟨trimmed, some⟩ := ih others
          rw [List.intercalate_cons_cons]
          refine ⟨first.trimmed.append_append trimmed first.some (some (List.cons_ne_nil _ _)) _, ?_⟩
          simp [first.some]

theorem split_joined (divides : Divides separator) (given : values ≠ []) :
    split (separatorOf? separator.toList) [] (separator.toList.intercalate values) = values := by
  obtain ⟨c, rfl, notBackslash⟩ := divides
  have plain : Plain c values := by
    intro value member character inValue
    have notSeparator := (literal value member).apart character inValue
    have notSpecial := (literal value member).literal character inValue
    simp only [String.toList_singleton, List.mem_singleton] at notSeparator
    simp [isSpecial, notSeparator, notSpecial]
  rw [String.toList_singleton]
  exact splitFrom_fields notBackslash plain given

theorem split_alone (single : values.length = 1) :
    split (separatorOf? separator.toList) [] (separator.toList.intercalate values) = values := by
  obtain ⟨value, rfl⟩ := List.length_eq_one_iff.mp single
  have isLiteral := literal value List.mem_cons_self
  rw [List.intercalate_singleton]
  exact splitFrom_literal fun c member =>
    ⟨(isLiteral.literal c member).1, isLiteral.separatorOf?_ne member⟩

end Joined

/-- A separator that does not divide makes one field of several values, and not the first value. -/
theorem exists_split_joined {separator : String} (never : ¬ Divides separator)
    {first second : List Char} {rest : List (List Char)} (literal : IsLiteral separator second) :
    ∃ field, split (separatorOf? separator.toList) []
        (separator.toList.intercalate (first :: second :: rest)) = [field] ∧
      Text.trimSpaces field ≠ first := by
  have escapes : ∀ c, separatorOf? separator.toList = some c → c = '\\' := by
    intro c isSeparator
    rw [separatorOf?_eq_some_iff] at isSeparator
    by_contra notBackslash
    exact never ⟨c, String.toList_inj.mp (by simpa using isSeparator), notBackslash⟩
  obtain ⟨field, single⟩ := List.length_eq_one_iff.mp (length_splitFrom escapes ⟨1, false, false⟩
    (separator.toList.intercalate (first :: second :: rest)))
  refine ⟨field, single, fun same => ?_⟩
  -- The second value begins with a character that the field has more often than the first value.
  obtain ⟨c, later, rfl⟩ := List.exists_cons_of_ne_nil literal.some
  have visible : (c == ' ') = false := by
    have notBlank := literal.trimmed.first c rfl
    rw [beq_eq_false_iff_ne]
    intro blank
    rw [blank] at notBlank
    cases notBlank
  have kept := count_splitFrom (literal.literal c List.mem_cons_self).1
    (literal.separatorOf?_ne List.mem_cons_self) [] ⟨1, false, false⟩
    (separator.toList.intercalate (first :: (c :: later) :: rest))
  have trimmed : (Text.trimSpaces field).count c = field.count c :=
    @Text.count_trimBy (· == ' ') c visible field
  have again : 0 < (separator.toList.intercalate ((c :: later) :: rest)).count c := by
    refine List.count_pos_iff.mpr ?_
    cases rest <;> simp [List.intercalate_cons_cons]
  rw [single, List.flatten_singleton, ← trimmed, same, List.intercalate_cons_cons,
    List.count_append, List.count_append] at kept
  omega

/-! ## Entries of text fields -/

def Lists (found : Table Value) (name : String) (text : List Char) : Prop :=
  (Key.text name, Value.text (String.ofList text)) ∈ found

theorem lists_of_entriesOf {fields : List Field} (texts : ∀ field ∈ fields, field.kind = .text)
    {given : List (List Char)} (notMore : given.length ≤ fields.length) {found : Table Value}
    (read : entriesOf fields given = .ok found) :
    List.Forall₂ (Lists found) ((fields.map Field.name).take given.length) given := by
  induction fields generalizing given found with
  | nil =>
      cases List.eq_nil_of_length_eq_zero (Nat.le_zero.mp notMore)
      exact .nil
  | cons field rest ih =>
      obtain ⟨isText, others⟩ := List.forall_mem_cons.mp texts
      cases given with
      | nil => exact .nil
      | cons text given =>
          simp only [entriesOf, FieldKind.read, isText] at read
          split at read
          · cases read
          · rename_i value isValue
            obtain ⟨later, readRest, rfl⟩ := Result.map_eq_ok_iff.mp read
            split at isValue
            · cases isValue
            · cases isValue
              refine .cons List.mem_cons_self ?_
              refine (ih others (Nat.le_of_succ_le_succ notMore) readRest).imp fun _ _ member => ?_
              exact List.mem_cons_of_mem _ member

theorem exists_entriesOf {fields : List Field} (texts : ∀ field ∈ fields, field.kind = .text)
    {given : List (List Char)} (oneLine : ∀ text ∈ given, '\n' ∉ text) :
    ∃ found, entriesOf fields given = .ok found := by
  induction fields generalizing given with
  | nil => exact ⟨[], rfl⟩
  | cons field rest ih =>
      obtain ⟨isText, others⟩ := List.forall_mem_cons.mp texts
      cases given with
      | nil =>
          obtain ⟨later, readRest⟩ := @ih others [] (by simp)
          refine ⟨(.text field.name, field.fallback.getD .null) :: later, ?_⟩
          rw [entriesOf, readRest]
          rfl
      | cons text given =>
          obtain ⟨unbroken, unbrokenRest⟩ := List.forall_mem_cons.mp oneLine
          obtain ⟨later, readRest⟩ := ih others unbrokenRest
          refine ⟨(.text field.name, .text (String.ofList text)) :: later, ?_⟩
          simp [entriesOf, FieldKind.read, isText, unbroken, readRest, Except.map]

def columnNames : List String :=
  ["start_column", "end_column"]

/-- The first of the named entries of a need hold the values. -/
def Need.HoldsFirst (need : Need) (names : List String) (values : List (List Char)) : Prop :=
  List.Forall₂ (fun name value => need.entries.get? name = some (.text (String.ofList value)))
    (names.take values.length) values

section Entries

variable {need : Need} {found : Table Value} (fields : need.fields = withoutColumns found)
  (distinct : (need.entries.map (·.1)).Nodup)
include fields distinct

/-- A field is found under its name, unless a column takes its place. -/
theorem get?_entries_iff {name : String} {text other : List Char} (listed : Lists found name text) :
    need.entries.get? name = some (.text (String.ofList other)) ↔
      text = other ∧ name ∉ columnNames := by
  by_cases isColumn : name ∈ columnNames
  · have place : ∃ column : Nat, (Key.text name, Value.int column) ∈ need.entries := by
      simp only [columnNames, List.mem_cons, List.not_mem_nil, or_false] at isColumn
      rcases isColumn with rfl | rfl
      · exact ⟨need.startColumn, by simp [Need.entries]⟩
      · exact ⟨need.endColumn, by simp [Need.entries]⟩
    obtain ⟨column, inEntries⟩ := place
    rw [Table.get?_of_mem distinct inEntries]
    simp [isColumn]
  · have inEntries : (Key.text name, Value.text (String.ofList text)) ∈ need.entries := by
      refine List.mem_append_left _ (fields ▸ mem_withoutColumns_iff.mpr ⟨listed, ?_, ?_⟩)
      · intro isStart
        exact isColumn (by simp [columnNames, Key.text.inj isStart])
      · intro isEnd
        exact isColumn (by simp [columnNames, Key.text.inj isEnd])
    rw [Table.get?_of_mem distinct inEntries]
    simp [isColumn, String.ofList_inj]

theorem holdsFirst_iff {names : List String} {values : List (List Char)}
    (listed : List.Forall₂ (Lists found) (names.take values.length) values) :
    need.HoldsFirst names values ↔ ∀ name ∈ names.take values.length, name ∉ columnNames := by
  have each : ∀ name value, Lists found name value →
      (need.entries.get? name = some (.text (String.ofList value)) ↔ name ∉ columnNames) := by
    intro name value isListed
    rw [get?_entries_iff fields distinct isListed, and_iff_right rfl]
  constructor
  · intro holds
    have apart := List.Forall₂.mp (fun name value isListed found =>
      And.intro ((each name value isListed).mp found) isListed) listed holds
    exact ((List.forall₂_and_left _ _).mp apart).1
  · intro apart
    refine ((List.forall₂_and_left _ _).mpr ⟨apart, listed⟩).imp fun name value both => ?_
    exact (each name value both.2).mpr both.1

end Entries

/-! ## Reading joined values -/

namespace Layout

variable {layout : Layout} (texts : ∀ field ∈ layout.fields, field.kind = .text)
include texts

theorem listPositions_eq_nil : layout.listPositions = [] := by
  rw [listPositions, List.filterMap_eq_nil_iff]
  intro entry member
  have inFields : entry.1 ∈ layout.fields := List.fst_mem_of_mem_zipIdx member
  simp [texts entry.1 inFields]

theorem given_of_trimmed {mark : List Char} (trimmed : Text.IsTrimmed mark) :
    layout.given mark =
      (split (separatorOf? layout.separator.toList) [] mark).map Text.trimSpaces := by
  rw [given, listPositions_eq_nil texts, trimmed.trim_eq]

theorem lists_of_readMark {mark : List Char} {found : Table Value}
    (read : layout.readMark mark = .ok found) :
    List.Forall₂ (Lists found) (layout.names.take (layout.given mark).length)
      (layout.given mark) := by
  simp only [readMark] at read
  split at read
  · cases read
  · split at read
    · cases read
    · rename_i _ notMore
      exact lists_of_entriesOf texts (Nat.le_of_not_lt notMore) read

theorem exists_readMark {mark : List Char} {given : List (List Char)}
    (gives : layout.given mark = given) (oneLine : ∀ text ∈ given, '\n' ∉ text)
    (enough : layout.least ≤ given.length) (notMore : given.length ≤ layout.fields.length) :
    ∃ found, layout.readMark mark = .ok found := by
  obtain ⟨found, read⟩ := exists_entriesOf texts oneLine
  refine ⟨found, ?_⟩
  simp only [readMark, gives]
  rw [if_neg (Nat.not_lt.mpr enough), if_neg (Nat.not_lt.mpr notMore), read]

variable {values : List (List Char)}
  (literal : ∀ value ∈ values, IsLiteral layout.separator value)
include literal

theorem given_joined (given : values ≠ []) (apart : values.length ≤ 1 ∨ Divides layout.separator) :
    layout.given (layout.separator.toList.intercalate values) = values := by
  have divided : split (separatorOf? layout.separator.toList) []
      (layout.separator.toList.intercalate values) = values := by
    rcases apart with single | divides
    · exact split_alone literal (Nat.le_antisymm single (List.length_pos_iff.mpr given))
    · exact split_joined literal divides given
  rw [given_of_trimmed texts (isTrimmed_joined literal _).1, divided]
  refine (List.map_congr_left fun value member => ?_).trans (List.map_id _)
  exact (literal value member).trimmed.trimSpaces_eq

theorem exists_readMark_joined (some : layout.fields ≠ []) (enough : layout.least ≤ values.length)
    (notMore : values.length ≤ layout.fields.length)
    (apart : values.length ≤ 1 ∨ Divides layout.separator) :
    ∃ found, layout.readMark (layout.separator.toList.intercalate values) = .ok found ∧
      List.Forall₂ (Lists found) (layout.names.take values.length) values := by
  cases values with
  | nil =>
      -- Where no value is given, the first field is an empty text.
      have nothing : layout.given (layout.separator.toList.intercalate []) = [[]] := by
        rw [given_of_trimmed texts (isTrimmed_joined literal _).1]
        rfl
      obtain ⟨found, read⟩ := exists_readMark texts nothing (by simp)
        (Nat.le_trans enough (Nat.zero_le 1)) (List.length_pos_iff.mpr some)
      exact ⟨found, read, .nil⟩
  | cons first rest =>
      have gives := given_joined texts literal (List.cons_ne_nil _ _) apart
      obtain ⟨found, read⟩ := exists_readMark texts gives
        (fun value member => (literal value member).oneLine) enough notMore
      exact ⟨found, read, gives ▸ lists_of_readMark texts read⟩

theorem not_holdsFirst_joined (apart : ¬ (values.length ≤ 1 ∨ Divides layout.separator))
    {found : Table Value}
    (read : layout.readMark (layout.separator.toList.intercalate values) = .ok found) {need : Need}
    (fields : need.fields = withoutColumns found) (distinct : (need.entries.map (·.1)).Nodup) :
    ¬ need.HoldsFirst layout.names values := by
  intro holds
  obtain ⟨several, never⟩ := not_or.mp apart
  obtain ⟨first, second, rest, rfl⟩ : ∃ first second rest, values = first :: second :: rest := by
    rcases values with _ | ⟨first, _ | ⟨second, rest⟩⟩
    · exact absurd (Nat.zero_le 1) several
    · exact absurd (Nat.le_refl 1) several
    · exact ⟨first, second, rest, rfl⟩
  obtain ⟨field, single, different⟩ := @exists_split_joined _ never first second rest
    (literal second (by simp))
  have listed := lists_of_readMark texts read
  rw [given_of_trimmed texts (isTrimmed_joined literal _).1, single] at listed
  rw [Need.HoldsFirst] at holds
  cases names : layout.names with
  | nil => simp [names] at listed
  | cons name later =>
      rw [names] at listed holds
      have found := (get?_entries_iff fields distinct (List.forall₂_cons.mp listed).1).mp
        (List.forall₂_cons.mp holds).1
      exact different found.1

end Layout

theorem map_nameOf {fields : List Field} {objects : List Members}
    (described : List.Forall₂ Field.DescribedBy fields objects) :
    objects.map nameOf = fields.map Field.name := by
  induction described with
  | nil => rfl
  | cons first _ ih => simp [nameOf, first.name, ih]

/-- Literal values that an accepted separator joins are read as the values of the first fields
exactly when there is at most one of them or the separator divides, and no column takes the place
of one of these fields. -/
theorem read_joined_iff [Libraries] {settings : Value} {style : Style}
    (made : (Style.ofSettings settings).2 = .ok style) (accepted : style.check = .ok [])
    {objects : List Members} (described : style.fieldMembers = .ok objects)
    (texts : ∀ members ∈ objects, Style.hasType textType members = true)
    {startSequence endSequence separator : String} (starts : style.startSequence = .text startSequence)
    (ends : style.endSequence = .text endSequence) (separated : style.separator = .text separator)
    {values : List (List Char)} (literal : ∀ value ∈ values, IsLiteral separator value)
    (enough : (objects.filter Style.isRequired).length ≤ values.length)
    (notMore : values.length ≤ objects.length) :
    (∃ need, read style (startSequence.toList ++ separator.toList.intercalate values ++
        endSequence.toList) = .ok (.need need) ∧
      need.HoldsFirst (objects.map nameOf) values) ↔
      (values.length ≤ 1 ∨ Divides separator) ∧
        ∀ name ∈ (objects.map nameOf).take values.length, name ∉ columnNames := by
  obtain ⟨layout, members, has, required⟩ := Style.exists_layout made accepted
  cases has.fieldMembers.symm.trans described
  cases has.startSequence.symm.trans starts
  cases has.endSequence.symm.trans ends
  cases has.separator.symm.trans separated
  rw [length_filter_isRequired has.described] at enough
  rw [← has.described.length_eq] at notMore
  have names : objects.map nameOf = layout.names := map_nameOf has.described
  rw [names]
  have kinds : ∀ field ∈ layout.fields, field.kind = .text := by
    intro field member
    obtain ⟨members, inObjects, isDescribed⟩ := exists_related has.described member
    exact @Field.DescribedBy.kind_eq _ _ isDescribed .text (texts members inObjects)
  have some : layout.fields ≠ [] := by
    intro none
    simpa [Layout.names, none] using required "title" (by decide)
  have line := @Layout.read_line layout [] (layout.separator.toList.intercalate values) (by simp)
  rw [List.nil_append] at line
  by_cases apart : values.length ≤ 1 ∨ Divides layout.separator
  · obtain ⟨found, readsMark, listed⟩ :=
      layout.exists_readMark_joined kinds literal some enough notMore apart
    rw [readsMark] at line
    have distinct := (has.fits line).distinct
    rw [has.read_eq, line, and_iff_right apart, ← holdsFirst_iff rfl distinct listed]
    constructor
    · intro ⟨need, isNeed, holds⟩
      cases isNeed
      exact holds
    · intro holds
      exact ⟨_, rfl, holds⟩
  · refine ⟨fun ⟨need, isNeed, holds⟩ => ?_, fun both => absurd both.1 apart⟩
    rw [has.read_eq, Except.ok.injEq] at isNeed
    have distinct := (has.fits isNeed).distinct
    rw [line] at isNeed
    cases readsMark : layout.readMark (layout.separator.toList.intercalate values) with
    | error cause =>
        rw [readsMark] at isNeed
        cases isNeed
    | ok found =>
        rw [readsMark] at isNeed
        cases isNeed
        exact absurd holds (layout.not_holdsFirst_joined kinds literal apart readsMark rfl distinct)

/-- Of two accepted styles that differ in their separator only, one reads the values that its
separator joins, and the one with the longer separator does not. -/
theorem read_joined_of_two_separators :
    let style (separator : String) : Style :=
      { separator := .text separator
        fields := .list [.object [("name", .text "title"), ("type", .text "str")],
          .object [("name", .text "type"), ("type", .text "str")]] }
    let Reads (separator : String) (line : List Char) : Prop :=
      ∃ need, read (style separator) line = .ok (.need need) ∧
        need.HoldsFirst ["title", "type"] [['A'], ['B']]
    (style ";").check = .ok [] ∧ Reads ";" "@A;B\n".toList ∧
      (style "::").check = .ok [] ∧ ¬ Reads "::" "@A::B\n".toList := by
  intro style Reads
  have accepted : ∀ separator, (style separator).check = .ok [] := fun _ => rfl
  have reads_iff : ∀ separator : String, 'A' ∉ separator.toList → 'B' ∉ separator.toList →
      (Reads separator ("@".toList ++ separator.toList.intercalate [['A'], ['B']] ++ "\n".toList) ↔
        Divides separator) := by
    intro separator noA noB
    have literal : ∀ value ∈ [['A'], ['B']], IsLiteral separator value := by
      simp only [List.forall_mem_cons, List.not_mem_nil, false_imp_iff, implies_true, and_true]
      exact ⟨⟨by simp, by decide, by simp, by simp, by simpa using noA⟩,
        ⟨by simp, by decide, by simp, by simp, by simpa using noB⟩⟩
    have general := @read_joined_iff _ (.object [("field_split_char", .text separator),
      ("needs_fields", (style separator).fields)]) (style separator) rfl (accepted separator)
      _ rfl (by decide) "@" "\n" separator rfl rfl rfl _ literal (by decide) (by decide)
    refine general.trans ?_
    simp [columnNames, nameOf, Members.get?]
  refine ⟨accepted _, ?_, accepted _, ?_⟩
  · exact (reads_iff ";" (by decide) (by decide)).mpr ⟨';', rfl, by decide⟩
  · intro reads
    obtain ⟨c, isSingle, _⟩ := (reads_iff "::" (by decide) (by decide)).mp reads
    have lengths := congrArg String.length isSingle
    rw [String.length_singleton] at lengths
    exact absurd lengths (by decide)

end Tracemark.OneLine
