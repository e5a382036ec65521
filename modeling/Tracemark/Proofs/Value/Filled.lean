import Tracemark.Proofs.Keys
import Tracemark.Value.Filled

/-!
# Keys that a template misses

A template misses a key where a placeholder has no value, and where a placeholder goes on to a
member of its value and the way from there ends at a missing key. Nothing else in a template can
miss one.
-/

set_option autoImplicit false

namespace Tracemark.Value

open Result (FindsKeys MissesOnly findsKeys_ok findsKeys_error)
open Text.Template

theorem findsKeys_itemAt {α : Type} (items : List α) (kindName : String) (key : List Char) :
    FindsKeys (itemAt items kindName key) := by
  unfold itemAt
  split
  · exact findsKeys_error rfl
  · exact findsKeys_error rfl
  · split
    · exact findsKeys_ok _
    · exact findsKeys_error rfl

theorem findsKeys_part (value : Value) (key : List Char) : FindsKeys (value.part key) := by
  unfold part
  split
  · exact findsKeys_error rfl
  · exact (findsKeys_itemAt _ _ _).map _
  · exact findsKeys_error rfl

theorem findsKeys_arranged (characters specification : List Char) :
    FindsKeys (Reached.arranged characters specification) := by
  unfold Reached.arranged
  split
  · split
    · exact findsKeys_ok _
    · exact findsKeys_error rfl
  · exact findsKeys_error rfl

theorem findsKeys_laidOut (value : Value) (specification : List Char) :
    FindsKeys ((Reached.ofValue value).laidOut specification) := by
  unfold Reached.ofValue
  dsimp only
  split
  · exact findsKeys_ok _
  · split
    · exact findsKeys_arranged _ _
    · exact findsKeys_error rfl

theorem findsKeys_converted (reached : Reached) (conversion : Option Char) :
    FindsKeys (converted reached conversion) := by
  unfold converted
  split
  · exact findsKeys_ok _
  · exact findsKeys_ok _
  · exact findsKeys_ok _
  · exact findsKeys_ok _
  · exact findsKeys_error rfl

variable {values : Members}

theorem get?_of_startOf {first : List Char} {value : Value}
    (isStart : startOf values first = .ok value) :
    values.get? (String.ofList first) = some value := by
  unfold startOf at isStart
  split at isStart
  · cases isStart
  · cases isStart
  · split at isStart
    · cases isStart
    · split at isStart
      · rename_i found
        cases isStart
        exact found
      · cases isStart

section

variable [Libraries]

/-- Without a member on the way, it leads to a value. -/
theorem findsKeys_reach {path : List Access} (noMember : ∀ name, .member name ∉ path)
    (value : Value) (specification : List Char) :
    FindsKeys (value.reach path >>= fun reached => reached.laidOut specification) := by
  induction path generalizing value with
  | nil => exact findsKeys_laidOut value specification
  | cons access rest ih =>
      cases access with
      | member name => exact absurd List.mem_cons_self (noMember name)
      | item key =>
          rw [reach, bind_assoc]
          refine (findsKeys_part value key).bind fun part _ => ih ?_ part
          intro name member
          exact noMember name (List.mem_cons_of_mem _ member)

/-- Why a template that is filled with the values misses a key. -/
inductive Misses (values : Members) : Value → Prop where
  /-- A placeholder has no value. -/
  | word {word : String} (unknown : values.get? word = none) : Misses values (.text word)
  /-- A placeholder has a value, and goes on to a member. -/
  | member {word : String} {value key : Value} {path : List Access} {specification : List Char}
      (known : values.get? word = some value) (goesOn : ∃ name, .member name ∈ path)
      (fails : (value.reach path >>= fun reached => reached.laidOut specification) =
        .error (.missingKey key)) : Misses values key

theorem missesOnly_startOf (first : List Char) :
    MissesOnly (Misses values) (startOf values first) := by
  unfold startOf
  split
  · exact (findsKeys_error rfl).missesOnly _
  · exact (findsKeys_error rfl).missesOnly _
  · split
    · exact (findsKeys_error rfl).missesOnly _
    · split
      · exact (findsKeys_ok _).missesOnly _
      · rename_i absent
        intro key failed
        cases failed
        exact .word absent

theorem missesOnly_reach {word : String} {value : Value} (known : values.get? word = some value)
    (path : List Access) (specification : List Char) :
    MissesOnly (Misses values)
      (value.reach path >>= fun reached => reached.laidOut specification) := by
  intro key failed
  by_cases goesOn : ∃ name, .member name ∈ path
  · exact .member known goesOn failed
  · cases findsKeys_reach (not_exists.mp goesOn) value specification _ failed

/-- The name of a field leads to a part of a value. -/
theorem exists_reach_of_named {name : List Char} {reached : Reached}
    (isNamed : named values name = .ok reached) :
    ∃ word value path, values.get? word = some value ∧ value.reach path = .ok reached := by
  obtain ⟨value, isStart, goesOn⟩ := Result.bind_eq_ok_iff.mp isNamed
  obtain ⟨other, isReached, isLast⟩ := Result.bind_eq_ok_iff.mp goesOn
  split at isLast
  · cases isLast
  · cases isLast
    exact ⟨_, value, _, get?_of_startOf isStart, isReached⟩

theorem missesOnly_named (name : List Char) : MissesOnly (Misses values) (named values name) := by
  refine (missesOnly_startOf _).bind fun value isStart =>
    Result.MissesOnly.bind ?_ fun reached _ => ?_
  · intro key missed
    exact missesOnly_reach (get?_of_startOf isStart) _ [] key
      (congrArg (· >>= fun reached => reached.laidOut []) missed)
  · split
    · exact (findsKeys_error rfl).missesOnly _
    · exact (findsKeys_ok _).missesOnly _

/-- What is converted is a text. -/
theorem missesOnly_laidOut {name : List Char} {reached shown : Reached} {conversion : Option Char}
    (isNamed : named values name = .ok reached) (isShown : converted reached conversion = .ok shown)
    (specification : List Char) : MissesOnly (Misses values) (shown.laidOut specification) := by
  unfold converted at isShown
  split at isShown
  · cases isShown
    obtain ⟨word, value, path, known, isReached⟩ := exists_reach_of_named isNamed
    intro key failed
    refine missesOnly_reach known path specification key ?_
    rw [isReached]
    exact failed
  · cases isShown
    exact (findsKeys_laidOut _ _).missesOnly _
  · cases isShown
    exact (findsKeys_laidOut _ _).missesOnly _
  · cases isShown
    exact (findsKeys_laidOut _ _).missesOnly _
  · cases isShown

theorem missesOnly_fillPieces {fillSpecification : List Char → Except Fault (List Char)}
    (misses : ∀ text, MissesOnly (Misses values) (fillSpecification text)) (parts : List Piece)
    (problem : Option Problem) :
    MissesOnly (Misses values) (fillPieces values fillSpecification parts problem) := by
  induction parts with
  | nil =>
      cases problem with
      | none => exact (findsKeys_ok _).missesOnly _
      | some cause => exact (findsKeys_error rfl).missesOnly _
  | cons piece rest ih =>
      cases piece with
      | literal characters => exact ih.bind fun _ _ => (findsKeys_ok _).missesOnly _
      | field field =>
          refine (missesOnly_named field.name).bind fun reached isNamed =>
            ((findsKeys_converted reached _).missesOnly _).bind fun shown isShown => ?_
          have laid : ∀ specification, MissesOnly (Misses values) (do
              let text ← shown.laidOut specification
              return text ++ (← fillPieces values fillSpecification rest problem)) := by
            intro specification
            exact (missesOnly_laidOut isNamed isShown specification).bind fun _ _ =>
              ih.bind fun _ _ => (findsKeys_ok _).missesOnly _
          -- A specification with placeholders of its own is filled in first, by the same values.
          dsimp only
          split
          · exact (misses _).bind fun specification _ => laid specification
          · exact laid field.specification

theorem missesOnly_fillTo (depth : Nat) (template : List Char) :
    MissesOnly (Misses values) (fillTo depth values template) := by
  induction depth generalizing template with
  | zero => exact (findsKeys_error rfl).missesOnly _
  | succ depth ih => exact missesOnly_fillPieces ih _ _

theorem missesOnly_fill (template : String) :
    MissesOnly (Misses values) (fill values template) := by
  intro key failed
  exact missesOnly_fillTo 2 template.toList key (Result.map_eq_error_iff.mp failed)

end

end Tracemark.Value
