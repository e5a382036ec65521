import Tracemark.Proofs.OneLine.Mark
import Tracemark.Proofs.Text.Lines

/-!
# Line breaks in fields

Where line breaks stand at the end of a line only, none gets into a value that is read
from the line. The values of a need that hold one are defaults of fields that the line
does not give.
-/

set_option autoImplicit false

namespace Tracemark

/-- A text, or a list of texts, without line breaks. -/
def Value.Unbroken : Value → Prop
  | .text characters => Text.Unbroken characters.toList
  | .list items => ∀ item ∈ items, ∃ characters, item = .text characters ∧
      Text.Unbroken characters.toList
  | _ => False

theorem Table.mem_put {α : Type} {table : Table α} {key : Key} {new : α} {entry : Key × α}
    (member : entry ∈ table.put key new) :
    entry ∈ table ∨ entry.2 = new ∧ (entry.1 = key ∨ entry.1.same key = true) := by
  induction table with
  | nil =>
      cases List.mem_singleton.mp member
      exact .inr ⟨rfl, .inl rfl⟩
  | cons current rest ih =>
      simp only [Table.put] at member
      split at member
      · rename_i same
        rcases List.mem_cons.mp member with rfl | inRest
        · exact .inr ⟨rfl, .inr same⟩
        · exact .inl (List.mem_cons_of_mem _ inRest)
      · rcases List.mem_cons.mp member with rfl | later
        · exact .inl List.mem_cons_self
        · rcases ih later with inRest | isNew
          · exact .inl (List.mem_cons_of_mem _ inRest)
          · exact .inr isNew

namespace OneLine

/-! ## Characters of fields -/

theorem mem_extendFirst {characters field : List Char} {fields : List (List Char)} {c : Char}
    (member : field ∈ extendFirst characters fields) (inField : c ∈ field) :
    c ∈ characters ∨ ∃ other ∈ fields, c ∈ other := by
  cases fields with
  | nil =>
      cases List.mem_singleton.mp member
      exact .inl inField
  | cons first rest =>
      rcases List.mem_cons.mp member with rfl | later
      · rcases List.mem_append.mp inField with inFront | inFirst
        · exact .inl inFront
        · exact .inr ⟨first, List.mem_cons_self, inFirst⟩
      · exact .inr ⟨field, List.mem_cons_of_mem _ later, inField⟩

/-- Splitting adds no character but backslashes. -/
theorem mem_splitFrom {separator : Option Char} {listPositions : List Nat} {state : SplitState}
    {text field : List Char} {c : Char}
    (member : field ∈ splitFrom separator listPositions state text) (inField : c ∈ field) :
    c = '\\' ∨ c ∈ text := by
  induction text generalizing state field with
  | nil =>
      cases List.mem_singleton.mp member
      cases inField
  | cons first rest ih =>
      have inRest : ∀ state, (∃ other ∈ splitFrom separator listPositions state rest, c ∈ other) →
          c = '\\' ∨ c ∈ first :: rest := by
        rintro state ⟨other, otherMember, inOther⟩
        exact (ih otherMember inOther).imp_right (List.mem_cons_of_mem _)
      have extended : ∀ characters state, (∀ other ∈ characters, other = '\\' ∨ other = first) →
          field ∈ extendFirst characters (splitFrom separator listPositions state rest) →
          c = '\\' ∨ c ∈ first :: rest := by
        intro characters state own isField
        rcases mem_extendFirst isField inField with inFront | later
        · rcases own c inFront with backslash | rfl
          · exact .inl backslash
          · exact .inr List.mem_cons_self
        · exact inRest _ later
      simp only [splitFrom] at member
      split at member
      · refine extended _ _ (fun other inLiteral => ?_) member
        split at inLiteral <;> simp_all
      · split at member
        · exact inRest _ ⟨field, member, inField⟩
        · split at member
          · split at member
            · exact extended _ _ (by simp) member
            · rcases List.mem_cons.mp member with rfl | later
              · cases inField
              · exact inRest _ ⟨field, later, inField⟩
          · exact extended _ _ (by simp) member

theorem unbroken_of_mem_split {separator : Option Char} {listPositions : List Nat}
    {text field : List Char} (unbroken : Text.Unbroken text)
    (member : field ∈ split separator listPositions text) : Text.Unbroken field := by
  intro c inField
  rcases mem_splitFrom member inField with rfl | inText
  · decide
  · exact unbroken c inText

/-! ## Values of fields -/

theorem unbroken_of_mem_listItems {text item : List Char} (unbroken : Text.Unbroken text)
    (member : item ∈ listItems text) : Text.Unbroken item := by
  unfold listItems at member
  split at member
  · cases member
  · obtain ⟨field, isField, rfl⟩ := List.mem_map.mp member
    exact (unbroken_of_mem_split unbroken isField).of_subset fun c inItem =>
      Text.mem_of_mem_trimBy inItem

theorem unbroken_of_readList {name : String} {text : List Char} {value : Value}
    (unbroken : Text.Unbroken text) (isRead : readList name text = .ok value) : value.Unbroken := by
  simp only [readList] at isRead
  split at isRead
  · split at isRead
    · cases isRead
    · rename_i first last _ _ _
      cases isRead
      intro item member
      obtain ⟨characters, isItem, rfl⟩ := List.mem_map.mp member
      have inside : Text.Unbroken (Text.slice 1 last text) := unbroken.of_subset fun c inSlice =>
        List.mem_of_mem_take (List.mem_of_mem_drop inSlice)
      exact ⟨_, rfl, by simpa using unbroken_of_mem_listItems inside isItem⟩
  · cases isRead

theorem feed_not_mem_of_unbroken {text : List Char} (unbroken : Text.Unbroken text) :
    '\n' ∉ text :=
  fun member => absurd (unbroken '\n' member) (by decide)

theorem unbroken_of_readGiven {field : Members} {name : String} {text : List Char} {value : Value}
    (unbroken : Text.Unbroken text) (isRead : readGiven field name text = .ok (some value)) :
    value.Unbroken := by
  simp only [readGiven, List.contains_iff_mem, feed_not_mem_of_unbroken unbroken,
    if_false] at isRead
  split at isRead
  · cases isRead
    simpa [Value.Unbroken] using unbroken
  · split at isRead
    · obtain ⟨content, isList, same⟩ := Result.map_eq_ok_iff.mp isRead
      cases same
      exact unbroken_of_readList unbroken isList
    · cases isRead

theorem readList_ne_newlineInField {name : String} {text : List Char} {cause : Warning}
    (refused : readList name text = .error cause) (field : String) :
    cause ≠ .newlineInField field := by
  simp only [readList] at refused
  split at refused
  · split at refused
    · cases refused
      exact Warning.noConfusion
    · cases refused
  · cases refused
    exact Warning.noConfusion

theorem readGiven_ne_newlineInField {field : Members} {name : String} {text : List Char}
    {cause : Warning} (unbroken : Text.Unbroken text)
    (refused : readGiven field name text = .error cause) (other : String) :
    cause ≠ .newlineInField other := by
  simp only [readGiven, List.contains_iff_mem, feed_not_mem_of_unbroken unbroken,
    if_false] at refused
  split at refused
  · cases refused
  · split at refused
    · cases isList : readList name text with
      | error other =>
          rw [isList] at refused
          cases refused
          exact readList_ne_newlineInField isList _
      | ok value =>
          rw [isList] at refused
          cases refused
    · cases refused

/-! ## Fields of a need -/

/-- The entry that a field falls back to when no text is given for it. -/
def FallsBack (field : Members) (entry : Key × Value) : Prop :=
  ∃ name key, field.get? "name" = some name ∧ name.asKey = .ok key ∧
    (entry.1 = key ∨ entry.1.same key = true) ∧ absentValue field = some entry.2

theorem entries_of_readFields {objects : List Members} {given : List (List Char)}
    {found table : Table Value} (unbroken : ∀ text ∈ given, Text.Unbroken text)
    (isRead : readFields objects given found = .ok (.ok table)) :
    ∀ entry ∈ table, entry ∈ found ∨ entry.2.Unbroken ∨
      ∃ field ∈ objects.drop given.length, FallsBack field entry := by
  induction objects generalizing given found with
  | nil =>
      cases isRead
      exact fun entry member => .inl member
  | cons field rest ih =>
      intro entry member
      simp only [readFields] at isRead
      split at isRead
      · cases isRead
      · rename_i name named
        cases given with
        | nil =>
            have later : ∀ {found}, readFields rest [] found = .ok (.ok table) →
                entry ∈ found ∨ entry.2.Unbroken ∨ ∃ other ∈ field :: rest, FallsBack other entry := by
              intro found readsRest
              rcases ih unbroken readsRest entry member with inFound | taken | ⟨other, isOther, falls⟩
              · exact .inl inFound
              · exact .inr (.inl taken)
              · exact .inr (.inr ⟨other, List.mem_cons_of_mem _ isOther, falls⟩)
            simp only [List.tail_nil] at isRead
            split at isRead
            · cases isRead
            · exact later isRead
            · rename_i value absent
              split at isRead
              · cases isRead
              · rename_i key isKey
                rcases later isRead with inPut | others
                · rcases Table.mem_put inPut with inFound | ⟨isValue, isNamed⟩
                  · exact .inl inFound
                  · refine .inr (.inr ⟨field, List.mem_cons_self, name, key, named, isKey, isNamed, ?_⟩)
                    exact (Except.ok.inj absent).trans (congrArg some isValue.symm)
                · exact .inr others
        | cons text given =>
            obtain ⟨first, others⟩ := List.forall_mem_cons.mp unbroken
            simp only [List.tail_cons] at isRead
            split at isRead
            · cases isRead
            · exact ih others isRead entry member
            · rename_i value isGiven
              split at isRead
              · cases isRead
              · rcases ih others isRead entry member with inPut | later
                · rcases Table.mem_put inPut with inFound | ⟨isValue, _⟩
                  · exact .inl inFound
                  · exact .inr (.inl (isValue ▸ unbroken_of_readGiven first isGiven))
                · exact .inr later

theorem readFields_ne_newlineInField {objects : List Members} {given : List (List Char)}
    {found : Table Value} {cause : Warning} (unbroken : ∀ text ∈ given, Text.Unbroken text)
    (refused : readFields objects given found = .ok (.error cause)) (name : String) :
    cause ≠ .newlineInField name := by
  induction objects generalizing given found with
  | nil => cases refused
  | cons field rest ih =>
      have others : ∀ text ∈ given.tail, Text.Unbroken text := fun text member =>
        unbroken text (List.mem_of_mem_tail member)
      simp only [readFields] at refused
      split at refused
      · cases refused
      · split at refused
        · rename_i warned
          cases refused
          cases given with
          | nil => cases warned
          | cons text given =>
              exact readGiven_ne_newlineInField (unbroken text List.mem_cons_self) warned name
        · exact ih others refused
        · split at refused
          · cases refused
          · exact ih others refused

/-! ## Lines -/

theorem unbroken_of_mem_given {style : Style} {objects : List Members} {mark text : List Char}
    (breaks : Text.BreaksAtEnd mark) (member : text ∈ style.given objects mark) :
    Text.Unbroken text := by
  obtain ⟨field, isField, rfl⟩ := List.mem_map.mp member
  exact (unbroken_of_mem_split breaks.unbroken_trim isField).of_subset fun c inText =>
    Text.mem_of_mem_trimBy inText

variable {style : Style} {line : List Char}

/-- The values of a need are without line breaks, but for the defaults of fields after those
that the line gives. -/
theorem entries_of_read {need : Need} (breaks : Text.BreaksAtEnd line)
    (isRead : read style line = .ok (.need need)) :
    ∃ objects, style.fieldMembers = .ok objects ∧
      let given := style.given objects (Text.slice need.startColumn need.endColumn line)
      ∀ entry ∈ need.fields, entry.2.Unbroken ∨
        ∃ field ∈ objects.drop given.length, FallsBack field entry := by
  obtain ⟨begin, stop, outcome, readsMark, isNeed⟩ := exists_mark_of_read isRead Reading.noConfusion
  cases outcome with
  | error cause => cases isNeed
  | ok found =>
      cases isNeed
      obtain ⟨objects, described, readsTexts⟩ := Result.bind_eq_ok_iff.mp readsMark
      refine ⟨objects, described, ?_⟩
      intro given entry member
      have unbroken : ∀ text ∈ given, Text.Unbroken text := fun text isGiven =>
        unbroken_of_mem_given (breaks.slice begin stop) isGiven
      have inFound : entry ∈ found :=
        (List.filter_sublist.trans List.filter_sublist).subset member
      simp only [readTexts] at readsTexts
      split at readsTexts
      · cases readsTexts
      · split at readsTexts
        · cases readsTexts
        · exact (entries_of_readFields unbroken readsTexts entry inFound).resolve_left List.not_mem_nil

theorem read_ne_newlineInField {cause : Warning} (breaks : Text.BreaksAtEnd line)
    (isRead : read style line = .ok (.warning cause)) (name : String) :
    cause ≠ .newlineInField name := by
  obtain ⟨begin, stop, outcome, readsMark, isWarning⟩ :=
    exists_mark_of_read isRead Reading.noConfusion
  cases outcome with
  | ok found => cases isWarning
  | error other =>
      cases isWarning
      obtain ⟨objects, _, readsTexts⟩ := Result.bind_eq_ok_iff.mp readsMark
      simp only [readTexts] at readsTexts
      split at readsTexts
      · cases readsTexts
        exact Warning.noConfusion
      · split at readsTexts
        · cases readsTexts
          exact Warning.noConfusion
        · exact readFields_ne_newlineInField
            (fun text isGiven => unbroken_of_mem_given (breaks.slice begin stop) isGiven)
            readsTexts name

end OneLine

end Tracemark
