import Tracemark.Proofs.Result
import Tracemark.Text.Utf8

/-!
# Beginnings of UTF-8

Where bytes spell a text, a beginning of them spells a text of its own exactly
when it ends between two characters, which the byte after it tells. Where a
beginning spells a text, what is refused comes after it.
-/

set_option autoImplicit false

namespace Tracemark.Utf8

def isContinuation (byte : UInt8) : Bool :=
  0x80 ≤ byte.toNat && byte.toNat < 0xC0

/-- Does the byte at a position continue the character before it? Bytes that are
divided there are divided within a character. -/
def cutsCharacter (bytes : Bytes) (position : Nat) : Bool :=
  bytes[position]?.any isContinuation

theorem isContinuation_iff {byte : UInt8} :
    isContinuation byte = true ↔ 0x80 ≤ byte.toNat ∧ byte.toNat < 0xC0 := by
  simp [isContinuation]

theorem lead?_of_isContinuation {byte : UInt8} (continues : isContinuation byte = true) :
    lead? byte = none := by
  obtain ⟨low, high⟩ := isContinuation_iff.mp continues
  simp only [lead?]
  rw [if_neg (by omega), if_pos (by omega)]

/-- The range of the next byte of a pending character lies among the bytes that
continue characters. -/
def Pending.Continues (pending : Pending) : Prop :=
  0x80 ≤ pending.low ∧ pending.high < 0xC0

theorem lead?_range {byte : UInt8} {lead : Lead} (found : lead? byte = some lead) :
    0x80 ≤ lead.low ∧ lead.high < 0xC0 := by
  simp only [lead?] at found
  repeat' split at found
  all_goals cases found
  all_goals exact ⟨by simp, by simp⟩

private theorem nothing_readable {rest : Bytes} {position : Nat} {pending : Option Pending}
    {text : List Char} (continues : ∀ character ∈ pending, character.Continues)
    (valid : decodeFrom position pending rest = .ok text) :
    (decodeFrom position pending []).isOk = !rest.head?.any isContinuation := by
  cases pending with
  | none =>
      have readable : (decodeFrom position none []).isOk = true := rfl
      cases rest with
      | nil => exact readable
      | cons byte rest =>
          cases next : isContinuation byte with
          | false => simp [readable, next]
          | true =>
              simp only [decodeFrom, lead?_of_isContinuation next] at valid
              cases valid
  | some character =>
      have unreadable : (decodeFrom position (some character) []).isOk = false := rfl
      obtain ⟨low, high⟩ := continues character rfl
      cases rest with
      | nil => cases valid
      | cons byte rest =>
          simp only [decodeFrom] at valid
          split at valid
          · rename_i inside
            simp only [Bool.and_eq_true, decide_eq_true_eq] at inside
            have next : isContinuation byte = true := isContinuation_iff.mpr (by omega)
            simp [unreadable, next]
          · cases valid

/-- A beginning of readable bytes is readable exactly when the byte after it, if
there is one, does not continue a character. -/
theorem isOk_decodeFrom_append {front rest : Bytes} {position : Nat} {pending : Option Pending}
    {text : List Char} (continues : ∀ character ∈ pending, character.Continues)
    (valid : decodeFrom position pending (front ++ rest) = .ok text) :
    (decodeFrom position pending front).isOk = !rest.head?.any isContinuation := by
  -- The range of a pending character is the invariant of the induction: a byte that
  -- is accepted in the middle of a character continues it.
  induction front generalizing position pending text with
  | nil => exact nothing_readable continues valid
  | cons byte front ih =>
      cases pending with
      | none =>
          simp only [List.cons_append, decodeFrom] at valid ⊢
          cases found : lead? byte with
          | none =>
              simp only [found] at valid
              cases valid
          | some lead =>
              simp only [found] at valid ⊢
              split at valid
              · rename_i single
                obtain ⟨decoded, accepted, _⟩ := Result.map_eq_ok_iff.mp valid
                rw [if_pos single, Result.isOk_map]
                exact ih (by simp) accepted
              · rename_i several
                rw [if_neg several]
                refine ih ?_ valid
                rintro character ⟨⟩
                exact lead?_range found
      | some character =>
          simp only [List.cons_append, decodeFrom] at valid ⊢
          split at valid
          · rename_i inside
            rw [if_pos inside]
            split at valid
            · rename_i last
              obtain ⟨decoded, accepted, _⟩ := Result.map_eq_ok_iff.mp valid
              rw [if_pos last, Result.isOk_map]
              exact ih (by simp) accepted
            · rename_i more
              rw [if_neg more]
              refine ih ?_ valid
              rintro next ⟨⟩
              exact ⟨Nat.le_refl _, by simp⟩
          · cases valid

theorem isValid_eq_isOk (bytes : Bytes) : isValid bytes = (decode bytes).isOk := by
  unfold isValid decode?
  cases decode bytes <;> rfl

/-- The first bytes of valid ones are valid unless they end within a character. -/
theorem isValid_take {bytes : Bytes} {text : List Char} (valid : decode bytes = .ok text)
    (size : Nat) : isValid (bytes.take size) = !cutsCharacter bytes size := by
  rw [← List.take_append_drop size bytes] at valid
  rw [isValid_eq_isOk, decode, isOk_decodeFrom_append (by simp) valid, List.head?_drop,
    cutsCharacter]

/-! ## Bytes after a valid beginning -/

def Fault.start : Fault → Nat
  | .badStart position _ => position
  | .badContinuation start _ _ => start
  | .truncated start _ _ => start

/-- Bytes after readable ones are read from where these end. -/
theorem decodeFrom_append {front : Bytes} (rest : Bytes) {position : Nat} {pending : Option Pending}
    {text : List Char} (valid : decodeFrom position pending front = .ok text) :
    decodeFrom position pending (front ++ rest) =
      (decodeFrom (position + front.length) none rest).map (text ++ ·) := by
  induction front generalizing position pending text with
  | nil =>
      cases pending with
      | some character => cases valid
      | none =>
          obtain rfl : [] = text := Except.ok.inj valid
          rw [List.nil_append, List.length_nil, Nat.add_zero]
          cases decodeFrom position none rest <;> rfl
  | cons byte front ih =>
      have ends : position + (byte :: front).length = position + 1 + front.length := by
        rw [List.length_cons]
        omega
      have extend : ∀ {character : Char} {decoded : List Char},
          decodeFrom (position + 1) none front = .ok decoded →
          (decodeFrom (position + 1) none (front ++ rest)).map (character :: ·) =
            (decodeFrom (position + 1 + front.length) none rest).map
              ((character :: decoded) ++ ·) := by
        intro character decoded accepted
        rw [ih accepted]
        cases decodeFrom (position + 1 + front.length) none rest <;> rfl
      rw [ends]
      cases pending with
      | none =>
          simp only [List.cons_append, decodeFrom] at valid ⊢
          cases found : lead? byte with
          | none =>
              rw [found] at valid
              cases valid
          | some lead =>
              simp only [found] at valid ⊢
              split at valid
              · rename_i single
                obtain ⟨decoded, accepted, rfl⟩ := Result.map_eq_ok_iff.mp valid
                rw [if_pos single]
                exact extend accepted
              · rename_i several
                rw [if_neg several]
                exact ih valid
      | some character =>
          simp only [List.cons_append, decodeFrom] at valid ⊢
          split at valid
          · rename_i inside
            rw [if_pos inside]
            split at valid
            · rename_i last
              obtain ⟨decoded, accepted, rfl⟩ := Result.map_eq_ok_iff.mp valid
              rw [if_pos last]
              exact extend accepted
            · rename_i more
              rw [if_neg more]
              exact ih valid
          · cases valid

/-- Nothing is refused before the position from which bytes are read. -/
theorem le_start_of_decodeFrom {bytes : Bytes} {limit position : Nat} {pending : Option Pending}
    {fault : Fault} (after : limit ≤ position)
    (begun : ∀ character ∈ pending, limit ≤ character.start)
    (refused : decodeFrom position pending bytes = .error fault) : limit ≤ fault.start := by
  induction bytes generalizing position pending with
  | nil =>
      cases pending with
      | none => cases refused
      | some character =>
          cases refused
          exact begun character rfl
  | cons byte rest ih =>
      have next : limit ≤ position + 1 := Nat.le_succ_of_le after
      cases pending with
      | none =>
          simp only [decodeFrom] at refused
          split at refused
          · cases refused
            exact after
          · split at refused
            · exact ih next (by simp) (Result.map_eq_error_iff.mp refused)
            · refine ih next ?_ refused
              rintro character ⟨⟩
              exact after
      | some character =>
          simp only [decodeFrom] at refused
          split at refused
          · split at refused
            · exact ih next (by simp) (Result.map_eq_error_iff.mp refused)
            · refine ih next ?_ refused
              rintro other ⟨⟩
              exact begun character rfl
          · cases refused
            exact begun character rfl

/-- What is refused in bytes whose beginning is valid comes after that beginning. -/
theorem le_start_of_decode {bytes : Bytes} {size : Nat} {fault : Fault}
    (valid : isValid (bytes.take size) = true) (refused : decode bytes = .error fault) :
    size ≤ fault.start := by
  rw [isValid_eq_isOk, decode] at valid
  cases decoded : decodeFrom 0 none (bytes.take size) with
  | error cause =>
      rw [decoded] at valid
      cases valid
  | ok text =>
      have whole := decodeFrom_append (bytes.drop size) decoded
      rw [List.take_append_drop] at whole
      have later := Result.map_eq_error_iff.mp (whole.symm.trans refused)
      have reached : size ≤ (bytes.take size).length := by
        by_contra short
        have nothing : bytes.drop size = [] := by
          rw [List.length_take] at short
          exact List.drop_eq_nil_of_le (by omega)
        rw [nothing] at later
        cases later
      exact le_start_of_decodeFrom (by omega) (by simp) later

end Tracemark.Utf8
