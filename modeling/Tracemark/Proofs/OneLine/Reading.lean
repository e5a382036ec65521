import Mathlib.Data.List.Nodup
import Tracemark.Libraries.Reference
import Tracemark.Proofs.OneLine.Layout
import Tracemark.Proofs.OneLine.Mark
import Tracemark.Proofs.Text.Search

/-!
# Reading by a layout

What a line is read as depends on a style only through its layout. A style that
has one never faults, and each field of a need that is read has a value of the
field's kind.
-/

set_option autoImplicit false

namespace Tracemark.OneLine

/-- The value of a field of the kind, read from the text that is given for it. -/
def FieldKind.read (kind : FieldKind) (name : String) (text : List Char) : Except Warning Value :=
  if text.contains '\n' then .error (.newlineInField name)
  else
    match kind with
    | .text => .ok (.text (String.ofList text))
    | .list => readList name text

def entriesOf : List Field → List (List Char) → Except Warning (Table Value)
  | [], _ => .ok []
  | field :: rest, [] =>
      (entriesOf rest []).map ((.text field.name, field.fallback.getD .null) :: ·)
  | field :: rest, text :: given =>
      match field.kind.read field.name text with
      | .error cause => .error cause
      | .ok value => (entriesOf rest given).map ((.text field.name, value) :: ·)

namespace Layout

def least (layout : Layout) : Nat :=
  (layout.fields.filter fun field => field.fallback.isNone).length

/-- The positions of the list fields, counted from one. -/
def listPositions (layout : Layout) : List Nat :=
  (layout.fields.zipIdx 1).filterMap fun (field, position) =>
    if field.kind = .list then some position else none

def given (layout : Layout) (mark : List Char) : List (List Char) :=
  (split (separatorOf? layout.separator.toList) layout.listPositions (Text.trim mark)).map
    Text.trimSpaces

def readMark (layout : Layout) (mark : List Char) : Except Warning (Table Value) :=
  let given := layout.given mark
  if given.length < layout.least then .error (.tooFewFields given.length layout.least)
  else if layout.fields.length < given.length then
    .error (.tooManyFields given.length layout.fields.length)
  else entriesOf layout.fields given

def read (layout : Layout) (line : List Char) : Reading :=
  match Text.find? layout.startSequence.toList line,
      Text.findLast? layout.endSequence.toList line with
  | some start, some stop =>
      let begin := start + layout.startSequence.toList.length
      match layout.readMark (Text.slice begin stop line) with
      | .error cause => .warning cause
      | .ok found => .need ⟨withoutColumns found, begin, stop⟩
  | _, _ => .nothing

end Layout

/-! ## Styles are read by their layouts -/

theorem readGiven_of_described {field : Field} {members : Members}
    (described : field.DescribedBy members) (text : List Char) :
    readGiven members field.name text = (field.kind.read field.name text).map some := by
  have isText := described.hasType .text
  have isList := described.hasType .list
  simp only [FieldKind.type] at isText isList
  simp only [readGiven, FieldKind.read, isText, isList]
  cases kind : field.kind <;> split <;> simp [Except.map]

theorem absentValue_of_described {field : Field} {members : Members}
    (described : field.DescribedBy members) : absentValue members = field.fallback := by
  simp only [absentValue, described.isRequired, described.fallback]
  cases field.fallback <;> simp

/-- Where fields that have to be given come first and enough are given, the others
have a default. -/
theorem fallback_of_mem_drop {fields : List Field}
    (ordered : fields.Pairwise fun earlier later => later.fallback = none → earlier.fallback = none)
    {count : Nat} (enough : (fields.filter fun field => field.fallback.isNone).length ≤ count)
    {field : Field} (member : field ∈ fields.drop count) : field.fallback ≠ none := by
  induction fields generalizing count with
  | nil => simp at member
  | cons first rest ih =>
      rw [List.pairwise_cons] at ordered
      cases fallback : first.fallback with
      | none =>
          simp only [List.filter_cons, fallback, Option.isNone_none, ↓reduceIte,
            List.length_cons] at enough
          cases count with
          | zero => omega
          | succ count => exact ih ordered.2 (Nat.le_of_succ_le_succ enough) member
      | some value =>
          -- From a field with a default on, every field has one, however few are given.
          intro missing
          rcases List.mem_cons.mp (List.mem_of_mem_drop member) with rfl | later
          · cases missing.symm.trans fallback
          · cases (ordered.1 field later missing).symm.trans fallback

theorem readFields_of_described {fields : List Field} {objects : List Members}
    (described : List.Forall₂ Field.DescribedBy fields objects)
    (distinct : (fields.map Field.name).Nodup) {given : List (List Char)}
    (covered : ∀ field ∈ fields.drop given.length, field.fallback ≠ none) {found : Table Value}
    (fresh : ∀ field ∈ fields, Key.text field.name ∉ found.map (·.1)) :
    readFields objects given found = .ok ((entriesOf fields given).map (found ++ ·)) := by
  induction described generalizing given found with
  | nil => simp [readFields, entriesOf, Except.map]
  | @cons field members fields objects first _ ih =>
      rw [List.map_cons, List.nodup_cons] at distinct
      have put (value : Value) : Table.put (.text field.name) value found =
          found ++ [(.text field.name, value)] :=
        Table.put_of_fresh (fresh field List.mem_cons_self)
      have freshRest (value : Value) : ∀ other ∈ fields,
          Key.text other.name ∉ (found ++ [(Key.text field.name, value)]).map (·.1) := by
        intro other member
        have differs : other.name ≠ field.name := fun same =>
          distinct.1 (same ▸ List.mem_map_of_mem member)
        simpa [differs] using fresh other (List.mem_cons_of_mem _ member)
      cases given with
      | nil =>
          obtain ⟨value, fallback⟩ :=
            Option.ne_none_iff_exists'.mp (covered field List.mem_cons_self)
          have rest := @ih distinct.2 [] (fun other member => covered other
            (List.mem_cons_of_mem _ member)) _ (freshRest value)
          simp only [readFields, first.name, absentValue_of_described first, fallback, Value.asKey,
            put, List.tail_nil, rest, entriesOf, Option.getD_some]
          cases entriesOf fields [] <;> simp [Except.map]
      | cons text given =>
          simp only [readFields, first.name, Value.shown, readGiven_of_described first, entriesOf]
          cases field.kind.read field.name text with
          | error cause => rfl
          | ok value =>
              have rest := @ih distinct.2 given covered _ (freshRest value)
              simp only [Except.map, Value.asKey, put, List.tail_cons, rest]
              cases entriesOf fields given <;> simp

theorem mapM_membersOf (objects : List Members) :
    (objects.map Value.object).mapM Value.membersOf = .ok objects := by
  induction objects with
  | nil => rfl
  | cons members rest ih =>
      simp only [List.map_cons, List.mapM_cons, Value.membersOf, ih]
      rfl

theorem length_filter_isRequired {fields : List Field} {objects : List Members}
    (described : List.Forall₂ Field.DescribedBy fields objects) :
    (objects.filter Style.isRequired).length =
      (fields.filter fun field => field.fallback.isNone).length := by
  induction described with
  | nil => rfl
  | cons first _ ih =>
      simp only [List.filter_cons, first.isRequired]
      split
      · exact congrArg (· + 1) ih
      · exact ih

theorem filterMap_listPositions {fields : List Field} {objects : List Members}
    (described : List.Forall₂ Field.DescribedBy fields objects) (start : Nat) :
    ((objects.zipIdx start).filterMap fun (members, position) =>
        if Style.hasType listType members then some position else none) =
      (fields.zipIdx start).filterMap fun (field, position) =>
        if field.kind = .list then some position else none := by
  induction described generalizing start with
  | nil => rfl
  | cons first _ ih =>
      have isList := first.hasType .list
      simp only [FieldKind.type] at isList
      simp only [List.zipIdx_cons, List.filterMap_cons, isList, ih (start + 1), decide_eq_true_eq]

namespace Style.HasLayout

variable {style : Style} {layout : Layout} {objects : List Members}

theorem fieldMembers (has : style.HasLayout layout objects) : style.fieldMembers = .ok objects := by
  simp only [Style.fieldMembers, has.fields, Value.items, bind, Except.bind, mapM_membersOf]

theorem given_eq (has : style.HasLayout layout objects) (mark : List Char) :
    style.given objects mark = layout.given mark := by
  have positions : Style.listPositionsOf objects = layout.listPositions :=
    filterMap_listPositions has.described 1
  simp only [Style.given, has.separator, positions, Layout.given]

/-- A style with a layout never faults, and reads a mark as its layout says. -/
theorem readMark_eq (has : style.HasLayout layout objects) (mark : List Char) :
    style.readMark mark = .ok (layout.readMark mark) := by
  have least : (objects.filter Style.isRequired).length = layout.least :=
    length_filter_isRequired has.described
  have count : objects.length = layout.fields.length := has.described.length_eq.symm
  simp only [Style.readMark, has.fieldMembers, bind, Except.bind, readTexts, has.given_eq, least,
    count, Layout.readMark]
  split
  · rfl
  · rename_i enough
    split
    · rfl
    · -- Enough given texts leave out no required field, since required fields come first.
      have covered : ∀ field ∈ layout.fields.drop (layout.given mark).length,
          field.fallback ≠ none := fun field member =>
        fallback_of_mem_drop has.ordered (Nat.le_of_not_lt enough) member
      rw [readFields_of_described has.described has.distinct covered (by simp)]
      cases entriesOf layout.fields (layout.given mark) <;> rfl

theorem read_eq (has : style.HasLayout layout objects) (line : List Char) :
    OneLine.read style line = .ok (layout.read line) := by
  have starts : style.startSequence.asText = .ok layout.startSequence.toList := by
    rw [has.startSequence, Value.asText]
  have ends : style.endSequence.asText = .ok layout.endSequence.toList := by
    rw [has.endSequence, Value.asText]
  rw [Layout.read]
  cases located : Text.find? layout.startSequence.toList line with
  | none => exact read_of_not_located starts ends (.inl located)
  | some start =>
      cases ended : Text.findLast? layout.endSequence.toList line with
      | none => exact read_of_not_located starts ends (.inr ended)
      | some stop =>
          rw [read_of_located starts ends located ended, has.readMark_eq]
          dsimp only
          cases layout.readMark (Text.slice _ stop line) <;> rfl

end Style.HasLayout

/-! ## Values have the kinds of their fields -/

theorem admits_of_readList {name : String} {text : List Char} {value : Value}
    (read : readList name text = .ok value) : value.IsTextList := by
  simp only [readList] at read
  split at read
  · split at read
    · cases read
    · rename_i first last _ _ _
      cases read
      exact ⟨(listItems (Text.slice 1 last text)).map String.ofList, by
        simp only [List.map_map, Function.comp_def]⟩
  · cases read

theorem FieldKind.admits_of_read {kind : FieldKind} {name : String} {text : List Char}
    {value : Value} (read : kind.read name text = .ok value) : kind.Admits value := by
  unfold FieldKind.read at read
  split at read
  · cases read
  · cases kind with
    | text =>
        cases read
        exact ⟨String.ofList text, rfl⟩
    | list => exact admits_of_readList read

/-- An entry that stands for a field: it has the field's name and a value of its
kind. -/
def Field.Holds (field : Field) (entry : Key × Value) : Prop :=
  entry.1 = .text field.name ∧ field.kind.Admits entry.2

theorem holds_of_entriesOf {fields : List Field} {given : List (List Char)}
    (admitted : ∀ field ∈ fields, ∀ value ∈ field.fallback, field.kind.Admits value)
    (covered : ∀ field ∈ fields.drop given.length, field.fallback ≠ none) {found : Table Value}
    (read : entriesOf fields given = .ok found) : List.Forall₂ Field.Holds fields found := by
  induction fields generalizing given found with
  | nil =>
      cases read
      exact .nil
  | cons field rest ih =>
      have admittedRest : ∀ other ∈ rest, ∀ value ∈ other.fallback, other.kind.Admits value :=
        fun other member => admitted other (List.mem_cons_of_mem _ member)
      cases given with
      | nil =>
          simp only [entriesOf, Result.map_eq_ok_iff] at read
          obtain ⟨others, readRest, rfl⟩ := read
          obtain ⟨value, fallback⟩ :=
            Option.ne_none_iff_exists'.mp (covered field List.mem_cons_self)
          rw [fallback]
          exact .cons ⟨rfl, admitted field List.mem_cons_self value fallback⟩
            (@ih [] admittedRest (fun other member => covered other
              (List.mem_cons_of_mem _ member)) _ readRest)
      | cons text given =>
          simp only [entriesOf] at read
          cases first : field.kind.read field.name text with
          | error cause => simp [first] at read
          | ok value =>
              simp only [first, Result.map_eq_ok_iff] at read
              obtain ⟨others, readRest, rfl⟩ := read
              exact .cons ⟨rfl, FieldKind.admits_of_read first⟩ (ih admittedRest covered readRest)

/-! ## Needs fit the fields of their style -/

/-- All entries of a need: its fields and its columns. -/
def Need.entries (need : Need) : Table Value :=
  need.fields ++
    [(.text "start_column", .int need.startColumn), (.text "end_column", .int need.endColumn)]

/-- A need that has an entry for each described field and for each column and no
other, where a field that is no column has a value of its kind. -/
structure Need.Fits (need : Need) (objects : List Members) : Prop where
  distinct : (need.entries.map (·.1)).Nodup
  keys : ∀ key, key ∈ need.entries.map (·.1) ↔
    (∃ members ∈ objects, Members.get? members "name" = some key.value) ∨
      key = .text "start_column" ∨ key = .text "end_column"
  typed : ∀ members ∈ objects, ∃ name kind,
    Members.get? members "name" = some (.text name) ∧
      Members.get? members "type" = some (.text (FieldKind.type kind)) ∧
      (name ≠ "start_column" → name ≠ "end_column" →
        ∃ value, need.entries.get? name = some value ∧ kind.Admits value)

theorem Layout.read_eq_nothing_iff {layout : Layout} {line : List Char} :
    layout.read line = .nothing ↔
      ¬ (layout.startSequence.toList <:+: line ∧ layout.endSequence.toList <:+: line) := by
  have noStart := @Text.find?_eq_none_iff layout.startSequence.toList line
  have noStop := @Text.findLast?_eq_none_iff layout.endSequence.toList line
  rw [not_and_or, ← noStart, ← noStop, Layout.read]
  cases Text.find? layout.startSequence.toList line with
  | none => simp
  | some start =>
      cases Text.findLast? layout.endSequence.toList line with
      | none => simp
      | some stop =>
          simp only [reduceCtorEq, or_self, iff_false]
          split <;> exact Reading.noConfusion

/-- A need is read only from a mark that gives every field without a default. -/
theorem Layout.exists_given_of_read {layout : Layout} {line : List Char} {need : Need}
    (read : layout.read line = .need need) :
    ∃ given found, layout.least ≤ given.length ∧ entriesOf layout.fields given = .ok found ∧
      need.fields = withoutColumns found := by
  simp only [Layout.read, Layout.readMark] at read
  split at read
  · rename_i start stop _ _
    revert read
    generalize layout.given _ = given
    intro read
    split at read
    · cases read
    · rename_i found succeeded
      cases read
      split at succeeded
      · cases succeeded
      · rename_i enough
        split at succeeded
        · cases succeeded
        · exact ⟨given, found, Nat.le_of_not_lt enough, succeeded, rfl⟩
  · cases read

theorem exists_related {α β : Type} {related : α → β → Prop} {lefts : List α} {rights : List β}
    (all : List.Forall₂ related lefts rights) {left : α} (member : left ∈ lefts) :
    ∃ right ∈ rights, related left right := by
  induction all with
  | nil => cases member
  | @cons _ right _ rights first _ ih =>
      rcases List.mem_cons.mp member with rfl | later
      · exact ⟨right, List.mem_cons_self, first⟩
      · obtain ⟨other, otherMember, holds⟩ := ih later
        exact ⟨other, List.mem_cons_of_mem _ otherMember, holds⟩

theorem map_key_of_holds {fields : List Field} {found : Table Value}
    (holds : List.Forall₂ Field.Holds fields found) :
    found.map (·.1) = (fields.map Field.name).map Key.text := by
  induction holds with
  | nil => rfl
  | cons first _ ih => simp [first.1, ih]

theorem mem_names_iff {fields : List Field} {objects : List Members}
    (described : List.Forall₂ Field.DescribedBy fields objects) {key : Key} :
    key ∈ (fields.map Field.name).map Key.text ↔
      ∃ members ∈ objects, Members.get? members "name" = some key.value := by
  induction described with
  | nil => simp
  | @cons field _ _ _ first _ ih =>
      have same : key = .text field.name ↔ Value.text field.name = key.value := by
        cases key <;> simp [Key.value, eq_comm]
      simp [first.name, ← ih, same]

theorem mem_withoutColumns_iff {found : Table Value} {entry : Key × Value} :
    entry ∈ withoutColumns found ↔
      entry ∈ found ∧ entry.1 ≠ .text "start_column" ∧ entry.1 ≠ .text "end_column" := by
  simp only [withoutColumns, Table.mem_erase_iff, and_assoc]

namespace Need

variable {need : Need} {found : Table Value}

theorem distinct_entries (fields : need.fields = withoutColumns found)
    (distinct : (found.map (·.1)).Nodup) : (need.entries.map (·.1)).Nodup := by
  have kept : ((withoutColumns found).map (·.1)).Nodup :=
    distinct.sublist ((List.filter_sublist.trans List.filter_sublist).map _)
  rw [entries, fields, List.map_append, List.nodup_append]
  refine ⟨kept, by simp, ?_⟩
  intro key member column columnMember
  obtain ⟨entry, entryMember, rfl⟩ := List.mem_map.mp member
  obtain ⟨-, notStart, notEnd⟩ := mem_withoutColumns_iff.mp entryMember
  simp only [List.map_cons, List.map_nil, List.mem_cons, List.not_mem_nil, or_false] at columnMember
  rcases columnMember with rfl | rfl
  · exact notStart
  · exact notEnd

theorem mem_keys_iff (fields : need.fields = withoutColumns found) {key : Key} :
    key ∈ need.entries.map (·.1) ↔
      key ∈ found.map (·.1) ∨ key = .text "start_column" ∨ key = .text "end_column" := by
  have columns : key ∈ need.entries.map (·.1) ↔
      (∃ value, (key, value) ∈ withoutColumns found) ∨
        key = .text "start_column" ∨ key = .text "end_column" := by
    simp [entries, fields]
  have kept : key ∈ found.map (·.1) ↔ ∃ value, (key, value) ∈ found := by simp
  rw [columns, kept]
  simp only [mem_withoutColumns_iff, exists_and_right]
  tauto

end Need

theorem Style.HasLayout.fits {style : Style} {layout : Layout} {objects : List Members}
    (has : style.HasLayout layout objects) {line : List Char} {need : Need}
    (read : layout.read line = .need need) : need.Fits objects := by
  obtain ⟨given, found, enough, readEntries, fields⟩ := Layout.exists_given_of_read read
  have admitted : ∀ field ∈ layout.fields, ∀ value ∈ field.fallback, field.kind.Admits value := by
    intro field member
    obtain ⟨members, -, described⟩ := exists_related has.described member
    exact described.admitted
  have holds := holds_of_entriesOf admitted
    (fun field member => fallback_of_mem_drop has.ordered enough member) readEntries
  have keys := map_key_of_holds holds
  have distinctKeys : (found.map (·.1)).Nodup :=
    keys ▸ List.Nodup.map (fun _ _ same => Key.text.inj same) has.distinct
  have distinct := Need.distinct_entries fields distinctKeys
  refine ⟨distinct, ?_, ?_⟩
  · intro key
    rw [Need.mem_keys_iff fields, keys, mem_names_iff has.described]
  · intro members member
    obtain ⟨field, fieldMember, described⟩ := exists_related has.described.flip member
    refine ⟨field.name, field.kind, described.name, described.type, ?_⟩
    intro notStart notEnd
    obtain ⟨⟨key, value⟩, entryMember, rfl, admits⟩ := exists_related holds fieldMember
    refine ⟨value, Table.get?_of_mem distinct ?_, admits⟩
    refine List.mem_append_left _ (fields ▸ mem_withoutColumns_iff.mpr ⟨entryMember, ?_, ?_⟩)
    · simpa using notStart
    · simpa using notEnd

/-- A need that was read lacks exactly the fields that its layout does not have. -/
theorem Style.HasLayout.get?_eq_none_iff {style : Style} {layout : Layout} {objects : List Members}
    (has : style.HasLayout layout objects) {line : List Char} {need : Need}
    (read : layout.read line = .need need) {name : String} (notStart : name ≠ "start_column")
    (notEnd : name ≠ "end_column") : need.fields.get? name = none ↔ name ∉ layout.names := by
  have keys := (has.fits read).keys (.text name)
  rw [← mem_names_iff has.described, Need.entries, List.map_append, List.mem_append] at keys
  simp only [List.map_cons, List.map_nil, List.mem_cons, List.not_mem_nil, or_false,
    Key.text.injEq, notStart, notEnd, List.mem_map_of_injective (fun _ _ => Key.text.inj)] at keys
  rw [Table.get?_eq_none_iff, keys]
  rfl

/-- An accepted style reads every line: as nothing where one of its sequences is
missing, and otherwise as a warning or as a need that fits its fields. -/
theorem read_of_accepted [Libraries] {settings : Value} {style : Style}
    (made : (Style.ofSettings settings).2 = .ok style) (accepted : style.check = .ok [])
    (line : List Char) :
    ∃ startSequence endSequence objects reading,
      style.startSequence = .text startSequence ∧ style.endSequence = .text endSequence ∧
      style.fieldMembers = .ok objects ∧ read style line = .ok reading ∧
      (reading = .nothing ↔
        ¬ (startSequence.toList <:+: line ∧ endSequence.toList <:+: line)) ∧
      ∀ need, reading = .need need → need.Fits objects := by
  obtain ⟨layout, objects, has, -⟩ := Style.exists_layout made accepted
  exact ⟨layout.startSequence, layout.endSequence, objects, layout.read line, has.startSequence,
    has.endSequence, has.fieldMembers, has.read_eq line, Layout.read_eq_nothing_iff,
    fun need isNeed => has.fits isNeed⟩

theorem read_standard_line :
    (Style.ofSettings .null).2 = .ok Style.standard ∧ Style.standard.check = .ok [] ∧
      ∃ objects need, Style.standard.fieldMembers = .ok objects ∧
        read Style.standard "x @A title, ID_1, impl, [B\\,C, D]\n".toList = .ok (.need need) ∧
        need.Fits objects ∧ need.entries.get? "links" = some (.list [.text "B,C", .text "D"]) := by
  have accepted : Style.standard.check = .ok [] := by rfl
  have links : read Style.standard "x @A title, ID_1, impl, [B\\,C, D]\n".toList =
      .ok (.need ⟨[(.text "title", .text "A title"), (.text "id", .text "ID_1"),
        (.text "type", .text "impl"),
        (.text "links", .list [.text "B,C", .text "D"])], 3, 33⟩) := by
    rfl
  obtain ⟨_, _, objects, reading, -, -, members, found, -, fits⟩ :=
    @read_of_accepted _ .null _ rfl accepted
      "x @A title, ID_1, impl, [B\\,C, D]\n".toList
  cases found.symm.trans links
  exact ⟨rfl, accepted, objects, _, members, links, fits _ rfl, rfl⟩

end Tracemark.OneLine
