import Tracemark.Proofs.OneLine.Reading

/-!
# Columns of needs

A mark begins after the first start sequence of its line and ends before the last end
sequence. The two sequences are looked for independently of each other, so the end of a
mark can come before its beginning. The mark is then empty, and a style that asks for at
most one text reads a need from it.
-/

set_option autoImplicit false

namespace Tracemark.OneLine

/-- A need whose columns are those of the two sequences in the line, and whose fields were
read from what stands between the columns. -/
structure Need.StandsBetween (need : Need) (style : Style)
    (startSequence endSequence line : List Char) : Prop where
  startColumn_le : need.startColumn ≤ line.length
  starts : startSequence <:+ line.take need.startColumn
  endColumn_le : need.endColumn ≤ line.length
  ends : endSequence <+: line.drop need.endColumn
  fields : ∃ found,
    style.readMark (Text.slice need.startColumn need.endColumn line) = .ok (.ok found) ∧
      need.fields = withoutColumns found

section Sequences

variable {style : Style} {line startSequence endSequence : List Char} {need : Need}
  (starts : style.startSequence.asText = .ok startSequence)
  (ends : style.endSequence.asText = .ok endSequence)
include starts ends

theorem read_eq_need_iff :
    read style line = .ok (.need need) ↔
      ∃ start found, Text.find? startSequence line = some start ∧
        Text.findLast? endSequence line = some need.endColumn ∧
        need.startColumn = start + startSequence.length ∧
        style.readMark (Text.slice need.startColumn need.endColumn line) = .ok (.ok found) ∧
        need.fields = withoutColumns found := by
  constructor
  · intro isRead
    cases located : Text.find? startSequence line with
    | none => cases (read_of_not_located starts ends (.inl located)).symm.trans isRead
    | some start =>
        cases ended : Text.findLast? endSequence line with
        | none => cases (read_of_not_located starts ends (.inr ended)).symm.trans isRead
        | some stop =>
            rw [read_of_located starts ends located ended, Result.map_eq_ok_iff] at isRead
            obtain ⟨outcome, readsMark, isNeed⟩ := isRead
            cases outcome with
            | error cause => cases isNeed
            | ok found =>
                cases isNeed
                exact ⟨start, found, rfl, rfl, rfl, readsMark, rfl⟩
  · intro isLocated
    obtain ⟨start, found, located, ended, column, readsMark, fields⟩ := isLocated
    obtain ⟨_, _, _⟩ := need
    dsimp only at ended column readsMark fields
    subst column fields
    rw [read_of_located starts ends located ended, readsMark]
    rfl

theorem standsBetween_of_read (isRead : read style line = .ok (.need need)) :
    need.StandsBetween style startSequence endSequence line := by
  obtain ⟨start, found, located, ended, column, readsMark, fields⟩ :=
    (read_eq_need_iff starts ends).mp isRead
  have begins := (Text.find?_eq_some_iff.mp located).1
  obtain ⟨endsWithin, occurs⟩ := Text.occurs_of_findLast? ended
  refine ⟨column ▸ Text.find?_add_length_le located, ?_, endsWithin, occurs, found, readsMark,
    fields⟩
  rw [column, List.take_add, ← List.prefix_iff_eq_take.mp begins]
  exact List.suffix_append _ _

theorem startColumn_le_endColumn_iff (isRead : read style line = .ok (.need need)) :
    need.startColumn ≤ need.endColumn ↔ endSequence <:+: line.drop need.startColumn := by
  obtain ⟨_, _, _, ended, _⟩ := (read_eq_need_iff starts ends).mp isRead
  exact Text.le_findLast?_iff ended (standsBetween_of_read starts ends isRead).startColumn_le

/-- A mark that ends before it begins is empty. -/
theorem exists_inverted_iff :
    (∃ need, read style line = .ok (.need need) ∧ need.endColumn < need.startColumn) ↔
      endSequence <:+: line ∧
        (∃ start, startSequence <+: line.drop start ∧
          (∀ earlier < start, ¬ startSequence <+: line.drop earlier) ∧
          ¬ endSequence <:+: line.drop (start + startSequence.length)) ∧
        ∃ found, style.readMark [] = .ok (.ok found) := by
  have emptyMark : ∀ begin stop, stop < begin → Text.slice begin stop line = [] := by
    intro begin stop inverted
    apply List.drop_eq_nil_of_le
    rw [List.length_take]
    omega
  constructor
  · intro isInverted
    obtain ⟨need, isRead, inverted⟩ := isInverted
    obtain ⟨start, found, located, ended, column, readsMark, _⟩ :=
      (read_eq_need_iff starts ends).mp isRead
    obtain ⟨begins, least⟩ := Text.find?_eq_some_iff.mp located
    have occurs := (Text.occurs_of_findLast? ended).2.isInfix
    rw [emptyMark _ _ inverted] at readsMark
    refine ⟨occurs.trans (List.drop_suffix _ _).isInfix, ⟨start, begins, least, ?_⟩, found,
      readsMark⟩
    rw [← column, ← startColumn_le_endColumn_iff starts ends isRead]
    exact Nat.not_le_of_lt inverted
  · intro isSeparate
    obtain ⟨occurs, ⟨start, begins, least, notAfter⟩, found, readsMark⟩ := isSeparate
    have located := Text.find?_eq_some_iff.mpr ⟨begins, least⟩
    obtain ⟨stop, ended⟩ : ∃ stop, Text.findLast? endSequence line = some stop := by
      apply Option.ne_none_iff_exists'.mp
      intro absent
      exact Text.findLast?_eq_none_iff.mp absent occurs
    -- The last end sequence is the only one to compare: no other begins later.
    have inverted : stop < start + startSequence.length := by
      rw [← Text.le_findLast?_iff ended (Text.find?_add_length_le located)] at notAfter
      exact Nat.lt_of_not_le notAfter
    refine ⟨⟨withoutColumns found, _, stop⟩, ?_, inverted⟩
    apply (read_eq_need_iff starts ends).mpr
    exact ⟨start, found, located, ended, rfl, emptyMark _ _ inverted ▸ readsMark, rfl⟩

end Sequences

/-! ## Empty marks -/

theorem exists_entriesOf_nil (fields : List Field) : ∃ found, entriesOf fields [] = .ok found := by
  induction fields with
  | nil => exact ⟨[], rfl⟩
  | cons field rest ih =>
      obtain ⟨found, readRest⟩ := ih
      rw [entriesOf, readRest]
      exact ⟨_, rfl⟩

/-- An empty mark gives one empty text, which no list field takes. -/
theorem Layout.exists_readMark_nil_iff {layout : Layout} :
    (∃ found, layout.readMark [] = .ok found) ↔
      layout.least ≤ 1 ∧ ∃ first rest, layout.fields = first :: rest ∧ first.kind = .text := by
  have given : layout.given [] = [[]] := rfl
  simp only [Layout.readMark, given, List.length_singleton]
  by_cases few : layout.least ≤ 1
  · rw [if_neg (Nat.not_lt.mpr few)]
    cases fields : layout.fields with
    | nil => simp
    | cons first rest =>
        have notMany : ¬ (first :: rest).length < 1 := by simp
        obtain ⟨found, readRest⟩ := exists_entriesOf_nil rest
        rw [if_neg notMany, entriesOf, readRest]
        cases kind : first.kind with
        | text => simp [few, FieldKind.read, Except.map, kind]
        | list => simp [FieldKind.read, readList, Text.find?, kind]
  · rw [if_pos (Nat.lt_of_not_le few)]
    simp [few]

theorem Style.HasLayout.exists_readMark_nil_iff {style : Style} {layout : Layout}
    {objects : List Members} (has : style.HasLayout layout objects) :
    (∃ found, style.readMark [] = .ok (.ok found)) ↔
      (objects.filter Style.isRequired).length ≤ 1 ∧
        ∃ first rest, objects = first :: rest ∧ Style.hasType textType first = true := by
  rw [has.readMark_eq, length_filter_isRequired has.described]
  simp only [Except.ok.injEq]
  rw [Layout.exists_readMark_nil_iff, Layout.least]
  apply and_congr_right
  intro _
  have described := has.described
  cases fields : layout.fields with
  | nil =>
      rw [fields] at described
      cases described
      simp
  | cons first rest =>
      rw [fields] at described
      cases described with
      | cons firstDescribed _ =>
          have isText := firstDescribed.hasType .text
          rw [FieldKind.type] at isText
          simp [isText]

/-! ## Needs of a line -/

/-- A need that is read by an accepted style has the columns of the two sequences and the fields
of what stands between. Its columns are in order exactly when an end sequence comes after the
first start sequence. Where one comes only before, a need is read all the same by the styles that
ask for at most one text. -/
theorem columns_of_read [Libraries] {settings : Value} {style : Style}
    (made : (Style.ofSettings settings).2 = .ok style) (accepted : style.check = .ok [])
    (line : List Char) :
    ∃ startSequence endSequence objects,
      style.startSequence = .text startSequence ∧ style.endSequence = .text endSequence ∧
      style.fieldMembers = .ok objects ∧
      (∀ need, read style line = .ok (.need need) →
        need.StandsBetween style startSequence.toList endSequence.toList line ∧
          (need.startColumn ≤ need.endColumn ↔
            endSequence.toList <:+: line.drop need.startColumn)) ∧
      ((∃ need, read style line = .ok (.need need) ∧ need.endColumn < need.startColumn) ↔
        endSequence.toList <:+: line ∧
          (∃ start, startSequence.toList <+: line.drop start ∧
            (∀ earlier < start, ¬ startSequence.toList <+: line.drop earlier) ∧
            ¬ endSequence.toList <:+: line.drop (start + startSequence.toList.length)) ∧
          (objects.filter Style.isRequired).length ≤ 1 ∧
          ∃ first rest, objects = first :: rest ∧ Style.hasType textType first = true) := by
  obtain ⟨layout, objects, has, -⟩ := Style.exists_layout made accepted
  have starts : style.startSequence.asText = .ok layout.startSequence.toList := by
    rw [has.startSequence, Value.asText]
  have ends : style.endSequence.asText = .ok layout.endSequence.toList := by
    rw [has.endSequence, Value.asText]
  refine ⟨layout.startSequence, layout.endSequence, objects, has.startSequence, has.endSequence,
    has.fieldMembers, ?_, ?_⟩
  · intro need isRead
    exact ⟨standsBetween_of_read starts ends isRead,
      startColumn_le_endColumn_iff starts ends isRead⟩
  · rw [← has.exists_readMark_nil_iff]
    exact exists_inverted_iff starts ends

/-- Of two brackets that are put the wrong way round, a need without a title is read. -/
theorem columns_of_reversed_brackets :
    let field (name : String) : String × Value := ("name", .text name)
    let settings : Value := .object [("start_sequence", .text "[["), ("end_sequence", .text "]]"),
      ("needs_fields", .list [.object [field "title"],
        .object [field "type", ("default", .text "impl")]])]
    ∃ style need, (Style.ofSettings settings).2 = .ok style ∧ style.check = .ok [] ∧
      read style "]] [[".toList = .ok (.need need) ∧ need.endColumn < need.startColumn ∧
      need.StandsBetween style "[[".toList "]]".toList "]] [[".toList := by
  intro field settings
  obtain ⟨style, made⟩ : ∃ style, (Style.ofSettings settings).2 = .ok style := ⟨_, rfl⟩
  have accepted : style.check = .ok [] := by
    cases made
    exact Result.eq_ok_of_toOption (by decide +kernel)
  obtain ⟨startSequence, endSequence, objects, isStart, isEnd, isFields, stands, inverted⟩ :=
    columns_of_read made accepted "]] [[".toList
  cases made
  cases isStart
  cases isEnd
  cases isFields
  obtain ⟨need, isRead, isInverted⟩ := inverted.mpr
    ⟨by decide, ⟨3, by decide, by decide, by decide⟩, by decide, _, _, rfl, by decide⟩
  exact ⟨_, need, rfl, accepted, isRead, isInverted, (stands need isRead).1⟩

end Tracemark.OneLine
