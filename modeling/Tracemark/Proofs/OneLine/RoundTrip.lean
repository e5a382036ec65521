import Tracemark.Proofs.OneLine.Reading
import Tracemark.Proofs.OneLine.Written
import Tracemark.Proofs.Text.Blank

/-!
# Reading undoes writing

Contents that are written as a mark between the two sequences of an accepted style
are read as a need with exactly these contents. Fields that are not written have
their defaults.
-/

set_option autoImplicit false

namespace Tracemark.OneLine

namespace Content

def value : Content → Value
  | .text characters => .text (String.ofList characters)
  | .list items => .list (items.map fun item => .text (String.ofList item))

/-- A content of one line without blank space at the ends of its parts. Items are not
empty and hold no closing bracket. -/
def Writable : Content → Prop
  | .text characters => '\n' ∉ characters ∧ Text.IsTrimmed characters
  | .list items => ∀ item ∈ items, item ≠ [] ∧ '\n' ∉ item ∧ ']' ∉ item ∧ Text.IsTrimmed item

instance : DecidablePred Writable
  | .text characters => inferInstanceAs (Decidable (_ ∧ Text.IsTrimmed characters))
  | .list items => inferInstanceAs (Decidable (∀ item ∈ items, _))

end Content

/-! ## Blank space at the ends -/

theorem isTrimmed_escaped {text : List Char} (trimmed : Text.IsTrimmed text)
    (special : Char → Bool) : Text.IsTrimmed (escaped special text) := by
  constructor
  · intro first found
    cases text with
    | nil => cases found
    | cons c rest =>
        simp only [escaped, List.flatMap_cons] at found
        split at found
        · cases found
          rfl
        · exact trimmed.first first found
  · intro last found
    -- The last character is written last, with a backslash in front of it or without.
    rcases List.eq_nil_or_concat text with rfl | ⟨front, c, rfl⟩
    · cases found
    · have isLast : c = last := by
        simp only [escaped, List.concat_eq_append, List.flatMap_append,
          List.flatMap_singleton] at found
        split at found <;> simpa using found
      exact isLast ▸ trimmed.last c (by simp)

theorem isTrimmed_bracketed (inner : List Char) : Text.IsTrimmed ('[' :: inner ++ [']']) := by
  constructor
  · intro first found
    cases found
    rfl
  · intro last found
    rw [List.getLast?_concat] at found
    cases found
    rfl

theorem Content.isTrimmed_written {content : Content} (writable : content.Writable)
    (separator : Char) : Text.IsTrimmed (content.written separator) := by
  cases content with
  | text characters => exact isTrimmed_escaped writable.2 _
  | list items => exact isTrimmed_bracketed _

theorem Content.isTrimmed_field {content : Content} (writable : content.Writable) :
    Text.IsTrimmed content.field := by
  cases content with
  | text characters => exact writable.2
  | list items => exact isTrimmed_bracketed _

theorem isTrimmed_writtenMark {separator : Char} (visible : Text.isBlank separator = false)
    {contents : List Content} (writable : ∀ content ∈ contents, content.Writable) :
    Text.IsTrimmed (writtenMark separator contents) := by
  induction contents with
  | nil => exact ⟨by simp [writtenMark], by simp [writtenMark]⟩
  | cons content rest ih =>
      have first := Content.isTrimmed_written (writable content List.mem_cons_self) separator
      cases rest with
      | nil => simpa [writtenMark] using first
      | cons next rest =>
          rw [writtenMark_cons_cons]
          exact first.append_cons
            (ih fun other member => writable other (List.mem_cons_of_mem _ member)) visible

/-! ## Lists -/

/-- Items without a closing bracket are written as texts are that commas divide. -/
theorem writtenItems_eq {items : List (List Char)} (unclosed : ∀ item ∈ items, ']' ∉ item) :
    Content.writtenItems items = writtenMark ',' (items.map Content.text) := by
  have same : ∀ item ∈ items, escaped isItemSpecial item = escaped (isSpecial (some ',')) item := by
    intro item member
    refine List.flatMap_congr fun c inItem => ?_
    have notClosing : c ≠ ']' := fun closing => unclosed item member (closing ▸ inItem)
    simp [isItemSpecial, isSpecial, notClosing]
  simp only [Content.writtenItems, writtenMark, List.map_map, Function.comp_def, Content.written]
  rw [List.map_congr_left same]

theorem aligned_texts (position : Nat) (texts : List (List Char)) :
    Aligned [] position (texts.map Content.text) := by
  induction texts generalizing position with
  | nil => trivial
  | cons text rest ih => exact ⟨by simp [Content.kind], ih (position + 1)⟩

/-- Texts of any characters come back when they are written with a separator between them. -/
theorem split_writtenTexts {separator : Char} (notBackslash : separator ≠ '\\')
    {texts : List (List Char)} (given : texts ≠ []) :
    split (some separator) [] (writtenMark separator (texts.map Content.text)) = texts := by
  rw [split, splitFrom_writtenMark notBackslash (by simpa using given) _ (aligned_texts 1 _)]
  · simp [Content.field, Function.comp_def]
  · intro content member
    obtain ⟨text, -, rfl⟩ := List.mem_map.mp member
    trivial

theorem listItems_writtenItems {items : List (List Char)}
    (writable : (Content.list items).Writable) :
    listItems (Content.writtenItems items) = items := by
  cases items with
  | nil => rfl
  | cons item rest =>
      have asTexts := writtenItems_eq fun other member => (writable other member).2.2.1
      have divided : split (some ',') [] (Content.writtenItems (item :: rest)) = item :: rest := by
        rw [asTexts, split_writtenTexts (by decide) (List.cons_ne_nil _ _)]
      have trimmed : Text.IsTrimmed (Content.writtenItems (item :: rest)) := by
        rw [asTexts]
        refine isTrimmed_writtenMark (by decide) fun content member => ?_
        obtain ⟨text, textMember, rfl⟩ := List.mem_map.mp member
        exact ⟨(writable text textMember).2.1, (writable text textMember).2.2.2⟩
      have written : Content.writtenItems (item :: rest) ≠ [] := by
        -- An empty text is split into one empty item, and no item is empty.
        intro empty
        rw [empty] at divided
        exact (writable item List.mem_cons_self).1 (List.cons.inj divided).1.symm
      rw [listItems, trimmed.isBlankText_eq_false written, divided]
      exact (List.map_congr_left fun other member => (writable other member).2.2.2.trim_eq).trans
        (List.map_id _)

theorem readList_bracketed (name : String) (inner : List Char) :
    readList name ('[' :: inner ++ [']']) =
      .ok (.list ((listItems inner).map fun item => .text (String.ofList item))) := by
  have first : Text.find? ['['] ('[' :: inner ++ [']']) = some 0 := by simp [Text.find?]
  have last : Text.findLast? [']'] ('[' :: inner ++ [']']) = some (inner.length + 1) :=
    Text.findLast?_append_self
  have between : Text.slice 1 (inner.length + 1) ('[' :: inner ++ [']']) = inner := by
    simp [Text.slice]
  simp only [readList, first, last]
  rw [between]
  simp

/-! ## Fields -/

theorem Content.read_field {content : Content} (writable : content.Writable) (name : String) :
    content.kind.read name content.field = .ok content.value := by
  cases content with
  | text characters => simp [Content.kind, Content.field, FieldKind.read, writable.1, Content.value]
  | list items =>
      have noNewline : '\n' ∉ Content.writtenItems items :=
        not_mem_writtenItems (by decide) (by decide) fun item member => (writable item member).2.1
      have oneLine : '\n' ∉ '[' :: Content.writtenItems items ++ [']'] := by simp [noNewline]
      simp only [Content.kind, Content.field, FieldKind.read, List.contains_iff_mem, oneLine,
        ↓reduceIte, readList_bracketed, listItems_writtenItems writable, Content.value]

/-- Contents that can be written for the first of the described fields, each of its
field's type. -/
def Fit : List Content → List Members → Prop
  | [], _ => True
  | _ :: _, [] => False
  | content :: contents, members :: rest =>
      Style.hasType content.kind.type members = true ∧ content.Writable ∧ Fit contents rest

instance Fit.decidable : (contents : List Content) → (objects : List Members) →
    Decidable (Fit contents objects)
  | [], _ => .isTrue trivial
  | _ :: _, [] => .isFalse id
  | content :: contents, members :: rest =>
      haveI := Fit.decidable contents rest
      inferInstanceAs (Decidable (Style.hasType content.kind.type members = true ∧
        content.Writable ∧ Fit contents rest))

def nameOf (members : Members) : String :=
  match members.get? "name" with
  | some (.text name) => name
  | _ => ""

/-- The entries of described fields of which the first have the given contents and
the others their defaults. -/
def filled : List Members → List Content → Table Value
  | [], _ => []
  | members :: rest, [] =>
      (.text (nameOf members), (members.get? "default").getD .null) :: filled rest []
  | members :: rest, content :: contents =>
      (.text (nameOf members), content.value) :: filled rest contents

namespace Fit

variable {contents : List Content} {objects : List Members} {fields : List Field}

theorem length_le (fit : Fit contents objects) : contents.length ≤ objects.length := by
  induction objects generalizing contents with
  | nil =>
      cases contents with
      | nil => exact Nat.le_refl 0
      | cons content rest => cases fit
  | cons members objects ih =>
      cases contents with
      | nil => exact Nat.zero_le _
      | cons content rest => exact Nat.succ_le_succ (ih fit.2.2)

theorem writable (fit : Fit contents objects) : ∀ content ∈ contents, content.Writable := by
  induction objects generalizing contents with
  | nil =>
      cases contents with
      | nil => simp
      | cons content rest => cases fit
  | cons members objects ih =>
      cases contents with
      | nil => simp
      | cons content rest => exact List.forall_mem_cons.mpr ⟨fit.2.1, ih fit.2.2⟩

theorem aligned (described : List.Forall₂ Field.DescribedBy fields objects)
    (fit : Fit contents objects) {listPositions : List Nat} {position : Nat}
    (listed : ∀ index, position + index ∈ listPositions ↔
      (fields[index]?).map Field.kind = some .list) :
    Aligned listPositions position contents := by
  -- `listPositions` stays that of all fields while the fields at hand become fewer.
  induction described generalizing contents position with
  | nil =>
      cases contents with
      | nil => trivial
      | cons content rest => cases fit
  | @cons field members fields objects first _ ih =>
      cases contents with
      | nil => trivial
      | cons content rest =>
          obtain ⟨typed, -, fitRest⟩ := fit
          refine ⟨?_, ih fitRest ?_⟩
          · have here := listed 0
            rwa [Nat.add_zero, List.getElem?_cons_zero, Option.map_some, Option.some.injEq,
              first.kind_eq typed] at here
          · intro index
            have later := listed (index + 1)
            rwa [List.getElem?_cons_succ, Nat.add_comm index 1, ← Nat.add_assoc] at later

theorem entriesOf_eq (described : List.Forall₂ Field.DescribedBy fields objects)
    (fit : Fit contents objects) :
    entriesOf fields (contents.map Content.field) = .ok (filled objects contents) := by
  induction described generalizing contents with
  | nil => rfl
  | @cons field members fields objects first _ ih =>
      have name : nameOf members = field.name := by simp [nameOf, first.name]
      cases contents with
      | nil =>
          have rest := @ih [] trivial
          simp only [List.map_nil] at rest
          simp [entriesOf, filled, rest, name, first.fallback, Except.map]
      | cons content rest =>
          obtain ⟨typed, writable, fitRest⟩ := fit
          simp only [List.map_cons, entriesOf, first.kind_eq typed, content.read_field writable,
            ih fitRest, filled, name]
          rfl

end Fit

theorem Layout.mem_listPositions_iff (layout : Layout) (index : Nat) :
    1 + index ∈ layout.listPositions ↔ (layout.fields[index]?).map Field.kind = some .list := by
  simp only [Layout.listPositions, List.mem_filterMap, Prod.exists,
    List.mk_mem_zipIdx_iff_le_and_getElem?_sub, Option.map_eq_some_iff]
  constructor
  · rintro ⟨field, position, ⟨-, found⟩, selected⟩
    split at selected
    · rename_i isList
      cases selected
      exact ⟨field, by simpa using found, isList⟩
    · cases selected
  · rintro ⟨field, found, isList⟩
    exact ⟨field, 1 + index, ⟨Nat.le_add_right 1 index, by simpa using found⟩, by simp [isList]⟩

/-! ## Marks -/

/-- A separator that is told apart from what is written around it. -/
structure IsDivider (separator : Char) : Prop where
  notBackslash : separator ≠ '\\'
  notOpening : separator ≠ '['
  notClosing : separator ≠ ']'
  visible : Text.isBlank separator = false

theorem Content.enclosed {content : Content} (writable : content.Writable) {separator : Char}
    (divider : IsDivider separator) : content.Enclosed separator := by
  cases content with
  | text characters => trivial
  | list items =>
      exact ⟨divider.notOpening, divider.notClosing,
        fun item member => (writable item member).2.2.1⟩

section Marks

variable {style : Style} {layout : Layout} {objects : List Members} {contents : List Content}
  {separator : Char}

theorem given_writtenMark (has : style.HasLayout layout objects)
    (separated : layout.separator = String.singleton separator) (divider : IsDivider separator)
    (given : contents ≠ []) (fit : Fit contents objects) :
    layout.given (writtenMark separator contents) = contents.map Content.field := by
  have trimmed := isTrimmed_writtenMark divider.visible fit.writable
  have enclosed : ∀ content ∈ contents, content.Enclosed separator := fun content member =>
    Content.enclosed (fit.writable content member) divider
  have aligned := fit.aligned has.described layout.mem_listPositions_iff
  simp only [Layout.given, separated, String.toList_singleton, separatorOf?, trimmed.trim_eq, split]
  rw [splitFrom_writtenMark divider.notBackslash given enclosed aligned, List.map_map]
  refine List.map_congr_left fun content member => ?_
  exact (Content.isTrimmed_field (fit.writable content member)).trimSpaces_eq

theorem readMark_writtenMark (has : style.HasLayout layout objects)
    (separated : layout.separator = String.singleton separator) (divider : IsDivider separator)
    (given : contents ≠ []) (enough : layout.least ≤ contents.length)
    (fit : Fit contents objects) :
    layout.readMark (writtenMark separator contents) = .ok (filled objects contents) := by
  have notMore : contents.length ≤ layout.fields.length :=
    has.described.length_eq ▸ fit.length_le
  simp only [Layout.readMark, given_writtenMark has separated divider given fit, List.length_map]
  rw [if_neg (Nat.not_lt.mpr enough), if_neg (Nat.not_lt.mpr notMore),
    fit.entriesOf_eq has.described]

end Marks

/-- A mark is found between the first start sequence and the end sequence at the end of
its line. -/
theorem Layout.read_line {layout : Layout} {before mark : List Char}
    (first : ∀ index < before.length, ¬ layout.startSequence.toList <+:
      (before ++ layout.startSequence.toList ++ mark ++ layout.endSequence.toList).drop index) :
    layout.read (before ++ layout.startSequence.toList ++ mark ++ layout.endSequence.toList) =
      match layout.readMark mark with
      | .error cause => .warning cause
      | .ok found => .need ⟨withoutColumns found, before.length + layout.startSequence.length,
          before.length + layout.startSequence.length + mark.length⟩ := by
  have start : Text.find? layout.startSequence.toList
      (before ++ layout.startSequence.toList ++ mark ++ layout.endSequence.toList) =
        some before.length :=
    Text.find?_eq_some_iff.mpr ⟨by simp, first⟩
  have stop : Text.findLast? layout.endSequence.toList
      (before ++ layout.startSequence.toList ++ mark ++ layout.endSequence.toList) =
        some (before.length + layout.startSequence.length + mark.length) := by
    simpa [String.length_toList, Nat.add_assoc] using
      @Text.findLast?_append_self layout.endSequence.toList
        (before ++ layout.startSequence.toList ++ mark)
  have between : Text.slice (before.length + layout.startSequence.length)
      (before.length + layout.startSequence.length + mark.length)
      (before ++ layout.startSequence.toList ++ mark ++ layout.endSequence.toList) = mark := by
    have leading : (before ++ layout.startSequence.toList).length =
        before.length + layout.startSequence.length := by simp [String.length_toList]
    rw [Text.slice, ← leading, ← List.length_append, List.take_left, List.drop_left]
  cases read : layout.readMark mark <;>
    simp only [Layout.read, start, stop, String.length_toList, between, read]

theorem key_not_mem_filled {objects : List Members} {name : String}
    (absent : ∀ members ∈ objects, nameOf members ≠ name) (contents : List Content) :
    Key.text name ∉ (filled objects contents).map (·.1) := by
  induction objects generalizing contents with
  | nil => simp [filled]
  | cons members rest ih =>
      rw [List.forall_mem_cons] at absent
      cases contents <;> simp [filled, Ne.symm absent.1, ih absent.2]

theorem withoutColumns_filled {objects : List Members}
    (noColumn : ∀ members ∈ objects,
      nameOf members ≠ "start_column" ∧ nameOf members ≠ "end_column") (contents : List Content) :
    withoutColumns (filled objects contents) = filled objects contents := by
  have noStart := key_not_mem_filled (fun members member => (noColumn members member).1) contents
  have noEnd := key_not_mem_filled (fun members member => (noColumn members member).2) contents
  rw [withoutColumns, Table.erase_of_absent noStart, Table.erase_of_absent noEnd]

/-- Reading undoes writing: what an accepted style reads between its sequences is what
was written there, with the defaults of the fields that were not written. -/
theorem read_writtenMark [Libraries] {settings : Value} {style : Style}
    (made : (Style.ofSettings settings).2 = .ok style) (accepted : style.check = .ok [])
    {startSequence endSequence : String} (starts : style.startSequence = .text startSequence)
    (ends : style.endSequence = .text endSequence) {separator : Char}
    (separated : style.separator = .text (String.singleton separator))
    (divider : IsDivider separator) {objects : List Members}
    (described : style.fieldMembers = .ok objects)
    (noColumn : ∀ members ∈ objects,
      nameOf members ≠ "start_column" ∧ nameOf members ≠ "end_column")
    {contents : List Content} (given : contents ≠ []) (fit : Fit contents objects)
    (enough : (objects.filter Style.isRequired).length ≤ contents.length)
    {before line : List Char}
    (written : line = before ++ startSequence.toList ++ writtenMark separator contents ++
      endSequence.toList)
    (first : ∀ index < before.length, ¬ startSequence.toList <+: line.drop index) :
    read style line = .ok (.need ⟨filled objects contents, before.length + startSequence.length,
      before.length + startSequence.length + (writtenMark separator contents).length⟩) := by
  obtain ⟨layout, members, has, -⟩ := Style.exists_layout made accepted
  cases has.fieldMembers.symm.trans described
  cases has.startSequence.symm.trans starts
  cases has.endSequence.symm.trans ends
  have separator_eq : layout.separator = String.singleton separator :=
    Value.text.inj (has.separator.symm.trans separated)
  rw [length_filter_isRequired has.described] at enough
  subst written
  rw [has.read_eq, Layout.read_line first,
    readMark_writtenMark has separator_eq divider given enough fit]
  simp only [withoutColumns_filled noColumn]

theorem read_writtenMark_standard :
    Style.standard.check = .ok [] ∧
      read Style.standard ("/* ".toList ++ "@".toList ++ writtenMark ','
          [.text "[a], b\\c".toList, .text [], .text "\\".toList,
            .list ["x, y".toList, "[z\\".toList]] ++ "\n".toList) =
        .ok (.need ⟨[(.text "title", .text "[a], b\\c"), (.text "id", .text ""),
          (.text "type", .text "\\"), (.text "links", .list [.text "x, y", .text "[z\\"])],
          4, 34⟩) := by
  have accepted : Style.standard.check = .ok [] := by rfl
  refine ⟨accepted, ?_⟩
  refine @read_writtenMark _ .null Style.standard rfl accepted "@" "\n" rfl rfl ',' rfl ?divider
    _ rfl ?noColumn _ (by simp) ?fit ?enough _ _ rfl ?first
  case divider => exact ⟨by decide, by decide, by decide, by decide⟩
  case noColumn => decide
  case fit => decide
  case enough => decide
  case first => decide

end Tracemark.OneLine
