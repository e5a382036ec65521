import Tracemark.Text.Utf8

/-!
# Reading what was written in UTF-8

Reading undoes writing: the bytes of a text spell the text, so no two texts have the
same bytes.
-/

set_option autoImplicit false

namespace Tracemark.Utf8

/-! ## Lead bytes -/

theorem lead?_single : ∀ code < 0x80, lead? (UInt8.ofNat code) = some ⟨0, code, 0x80, 0xBF⟩ := by
  decide

theorem lead?_pair : ∀ bits < 32, 2 ≤ bits →
    lead? (UInt8.ofNat (0xC0 + bits)) = some ⟨1, bits, 0x80, 0xBF⟩ := by
  decide

theorem lead?_triple : ∀ bits < 16,
    lead? (UInt8.ofNat (0xE0 + bits)) =
      some ⟨2, bits, if bits = 0 then 0xA0 else 0x80, if bits = 13 then 0x9F else 0xBF⟩ := by
  decide

theorem lead?_quadruple : ∀ bits < 5,
    lead? (UInt8.ofNat (0xF0 + bits)) =
      some ⟨3, bits, if bits = 0 then 0x90 else 0x80, if bits = 4 then 0x8F else 0xBF⟩ := by
  decide

/-! ## Bytes that continue a character -/

section

variable {position bits : Nat} {pending : Pending} {rest : Bytes}

theorem decodeFrom_last (small : bits < 64) (last : pending.missing = 1)
    (low : pending.low ≤ 0x80 + bits) (high : 0x80 + bits ≤ pending.high) :
    decodeFrom position (some pending) (UInt8.ofNat (0x80 + bits) :: rest) =
      (decodeFrom (position + 1) none rest).map (Char.ofNat (pending.bits * 64 + bits) :: ·) := by
  have byte : (0x80 + bits) % 256 = 0x80 + bits := Nat.mod_eq_of_lt (by omega)
  simp [decodeFrom, byte, low, high, last]

theorem decodeFrom_next {missing : Nat} (small : bits < 64) (more : pending.missing = missing + 2)
    (low : pending.low ≤ 0x80 + bits) (high : 0x80 + bits ≤ pending.high) :
    decodeFrom position (some pending) (UInt8.ofNat (0x80 + bits) :: rest) =
      decodeFrom (position + 1)
        (some ⟨pending.start, pending.lead, missing + 1, pending.bits * 64 + bits, 0x80, 0xBF⟩)
        rest := by
  have byte : (0x80 + bits) % 256 = 0x80 + bits := Nat.mod_eq_of_lt (by omega)
  simp [decodeFrom, byte, low, high, more]

end

/-! ## Characters -/

/-- A character's code is no surrogate, and at most U+10FFFF. -/
theorem toNat_cases (c : Char) : c.toNat < 0xD800 ∨ 0xDFFF < c.toNat ∧ c.toNat < 0x110000 :=
  c.valid

section

variable {code : Nat} (position : Nat) (rest : Bytes)

theorem decodeFrom_pair (least : 0x80 ≤ code) (greatest : code < 0x800) :
    decodeFrom position none
        (UInt8.ofNat (0xC0 + code / 64) :: UInt8.ofNat (0x80 + code % 64) :: rest) =
      (decodeFrom (position + 2) none rest).map (Char.ofNat code :: ·) := by
  have whole : code / 64 * 64 + code % 64 = code := by omega
  rw [decodeFrom, lead?_pair (code / 64) (by omega) (by omega)]
  simp only [Nat.reduceBEq, Bool.false_eq_true, if_false]
  rw [decodeFrom_last (by omega) rfl (by simp only; omega) (by simp only; omega), whole]

theorem decodeFrom_triple (least : 0x800 ≤ code) (greatest : code < 0x10000)
    (valid : code < 0xD800 ∨ 0xDFFF < code) :
    decodeFrom position none
        (UInt8.ofNat (0xE0 + code / 4096) :: UInt8.ofNat (0x80 + code / 64 % 64) ::
          UInt8.ofNat (0x80 + code % 64) :: rest) =
      (decodeFrom (position + 3) none rest).map (Char.ofNat code :: ·) := by
  have whole : (code / 4096 * 64 + code / 64 % 64) * 64 + code % 64 = code := by omega
  rw [decodeFrom, lead?_triple (code / 4096) (by omega)]
  simp only [Nat.reduceBEq, Bool.false_eq_true, if_false]
  rw [decodeFrom_next (by omega) rfl (by simp only; split <;> omega) (by simp only; split <;> omega),
    decodeFrom_last (by omega) rfl (by simp only; omega) (by simp only; omega), whole]

theorem decodeFrom_quadruple (least : 0x10000 ≤ code) (greatest : code < 0x110000) :
    decodeFrom position none
        (UInt8.ofNat (0xF0 + code / 262144) :: UInt8.ofNat (0x80 + code / 4096 % 64) ::
          UInt8.ofNat (0x80 + code / 64 % 64) :: UInt8.ofNat (0x80 + code % 64) :: rest) =
      (decodeFrom (position + 4) none rest).map (Char.ofNat code :: ·) := by
  have whole : ((code / 262144 * 64 + code / 4096 % 64) * 64 + code / 64 % 64) * 64 + code % 64 =
      code := by omega
  rw [decodeFrom, lead?_quadruple (code / 262144) (by omega)]
  simp only [Nat.reduceBEq, Bool.false_eq_true, if_false]
  rw [decodeFrom_next (by omega) rfl (by simp only; split <;> omega) (by simp only; split <;> omega),
    decodeFrom_next (by omega) rfl (by simp only; omega) (by simp only; omega),
    decodeFrom_last (by omega) rfl (by simp only; omega) (by simp only; omega), whole]

end

theorem decodeFrom_encodeChar (position : Nat) (c : Char) (rest : Bytes) :
    ∃ next, decodeFrom position none (encodeChar c ++ rest) =
      (decodeFrom next none rest).map (c :: ·) := by
  have valid := toNat_cases c
  have same := Char.ofNat_toNat c
  simp only [encodeChar]
  generalize c.toNat = code at valid same ⊢
  subst same
  split
  · rename_i single
    refine ⟨position + 1, ?_⟩
    simp [decodeFrom, lead?_single code single]
  · simp only [Nat.pow_eq, Nat.reducePow, Nat.div_one]
    split
    · exact ⟨_, decodeFrom_pair position rest (by omega) (by omega)⟩
    · split
      · exact ⟨_, decodeFrom_triple position rest (by omega) (by omega) (by omega)⟩
      · exact ⟨_, decodeFrom_quadruple position rest (by omega) (by omega)⟩

theorem decode_encode (text : List Char) : decode (encode text) = .ok text := by
  have anywhere : ∀ position, decodeFrom position none (encode text) = .ok text := by
    induction text with
    | nil => exact fun position => rfl
    | cons c rest ih =>
        intro position
        obtain ⟨next, first⟩ := decodeFrom_encodeChar position c (encode rest)
        rw [encode, List.flatMap_cons, ← encode, first, ih next]
        rfl
  exact anywhere 0

theorem encode_injective {left right : List Char} (same : encode left = encode right) :
    left = right := by
  have decoded := decode_encode left
  rw [same, decode_encode right] at decoded
  exact (Except.ok.inj decoded).symm

end Tracemark.Utf8
