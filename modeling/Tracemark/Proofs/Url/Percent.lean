import Tracemark.Proofs.Text.Encoding
import Tracemark.Url.Percent

/-!
# Percent decoding

Decoding undoes encoding, and what is encoded holds none of the characters that end a
path in a link.
-/

set_option autoImplicit false

namespace Tracemark.Url.Percent

def hexValue? (c : Char) : Option Nat :=
  let code := c.toNat
  if 0x30 ≤ code && code ≤ 0x39 then some (code - 0x30)
  else if 0x41 ≤ code && code ≤ 0x46 then some (code - 0x37)
  else if 0x61 ≤ code && code ≤ 0x66 then some (code - 0x57)
  else none

/-- The bytes that a text stands for: a percent sign and two hexadecimal digits stand for
one byte, and any other character for its own bytes. -/
def decode : List Char → Option Bytes
  | [] => some []
  | '%' :: high :: low :: rest =>
      match hexValue? high, hexValue? low with
      | some upper, some lower => (decode rest).map (UInt8.ofNat (upper * 16 + lower) :: ·)
      | _, _ => none
  | c :: rest => if c == '%' then none else (decode rest).map (Utf8.encodeChar c ++ ·)

theorem hexValue?_hexDigit : ∀ value < 16, hexValue? (hexDigit value) = some value := by
  decide

/-- A byte that stands for itself is a character of its own, and not a percent sign. -/
theorem plain_byte : ∀ code < 256, isPlain (UInt8.ofNat code) = true →
    Char.ofNat code ≠ '%' ∧ Utf8.encodeChar (Char.ofNat code) = [UInt8.ofNat code] := by
  decide +kernel

theorem decode_encodeByte (byte : UInt8) (rest : List Char) :
    decode (encodeByte byte ++ rest) = (decode rest).map (byte :: ·) := by
  have small : byte.toNat < 256 := byte.toNat_lt
  have same : UInt8.ofNat byte.toNat = byte := UInt8.ofNat_toNat
  unfold encodeByte
  split
  · rename_i plain
    obtain ⟨notSign, own⟩ := plain_byte byte.toNat small (same.symm ▸ plain)
    rw [List.singleton_append, decode]
    · simp [notSign, own]
    · intro high low more isSign
      exact absurd isSign notSign
  · have value : byte.toNat / 16 * 16 + byte.toNat % 16 = byte.toNat := by omega
    simp [decode, hexValue?_hexDigit (byte.toNat / 16) (by omega),
      hexValue?_hexDigit (byte.toNat % 16) (by omega), value]

/-- Decoding gives the bytes of the text that was encoded. -/
theorem decode_encode (text : List Char) : decode (encode text) = some (Utf8.encode text) := by
  unfold encode
  generalize Utf8.encode text = bytes
  induction bytes with
  | nil => rfl
  | cons byte rest ih => rw [List.flatMap_cons, decode_encodeByte, ih, Option.map_some]

theorem encode_injective {left right : List Char} (same : encode left = encode right) :
    left = right := by
  have bytes := congrArg decode same
  rw [decode_encode, decode_encode] at bytes
  exact Utf8.encode_injective (Option.some.inj bytes)

theorem hash_not_mem_encode (text : List Char) : '#' ∉ encode text := by
  have inByte : ∀ code < 256, '#' ∉ encodeByte (UInt8.ofNat code) := by decide +kernel
  intro member
  obtain ⟨byte, _, written⟩ := List.mem_flatMap.mp member
  have same : UInt8.ofNat byte.toNat = byte := UInt8.ofNat_toNat
  exact inByte byte.toNat byte.toNat_lt (same.symm ▸ written)

end Tracemark.Url.Percent
