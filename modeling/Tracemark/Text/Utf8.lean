/-!
# UTF-8

Strict reading and writing of UTF-8. Overlong forms, surrogate codes and codes
above U+10FFFF are refused, and a refusal tells where the reading stopped.
-/

set_option autoImplicit false

namespace Tracemark

abbrev Bytes := List UInt8

namespace Utf8

/-- Why bytes are not UTF-8. Positions count bytes; `stop` is the first byte
that does not belong to the refused sequence. -/
inductive Fault where
  | badStart (position : Nat) (byte : UInt8)
  | badContinuation (start stop : Nat) (lead : UInt8)
  | truncated (start stop : Nat) (lead : UInt8)
deriving Repr, DecidableEq

/-- What a lead byte announces: how many bytes follow, the bits it contributes,
and the range of the byte after it. -/
structure Lead where
  following : Nat
  bits : Nat
  low : Nat
  high : Nat
deriving Repr, DecidableEq

def lead? (byte : UInt8) : Option Lead :=
  let b := byte.toNat
  if b < 0x80 then some ⟨0, b, 0x80, 0xBF⟩
  else if b < 0xC2 then none
  else if b < 0xE0 then some ⟨1, b - 0xC0, 0x80, 0xBF⟩
  else if b == 0xE0 then some ⟨2, 0, 0xA0, 0xBF⟩
  else if b == 0xED then some ⟨2, 0xD, 0x80, 0x9F⟩
  else if b < 0xF0 then some ⟨2, b - 0xE0, 0x80, 0xBF⟩
  else if b == 0xF0 then some ⟨3, 0, 0x90, 0xBF⟩
  else if b < 0xF4 then some ⟨3, b - 0xF0, 0x80, 0xBF⟩
  else if b == 0xF4 then some ⟨3, 4, 0x80, 0x8F⟩
  else none

/-- A character of which some bytes are read: where it began, its lead byte, how
many bytes are missing, the bits so far and the range of the next byte. -/
structure Pending where
  start : Nat
  lead : UInt8
  missing : Nat
  bits : Nat
  low : Nat
  high : Nat
deriving Repr, DecidableEq

/-- Reads bytes from the given position on, in the middle of a character if one
is pending. -/
def decodeFrom (position : Nat) : Option Pending → Bytes → Except Fault (List Char)
  | none, [] => .ok []
  | some pending, [] => .error (.truncated pending.start position pending.lead)
  | none, byte :: rest =>
      match lead? byte with
      | none => .error (.badStart position byte)
      | some lead =>
          if lead.following == 0 then
            (decodeFrom (position + 1) none rest).map (Char.ofNat lead.bits :: ·)
          else
            decodeFrom (position + 1)
              (some ⟨position, byte, lead.following, lead.bits, lead.low, lead.high⟩) rest
  | some pending, byte :: rest =>
      let b := byte.toNat
      if pending.low ≤ b && b ≤ pending.high then
        let bits := pending.bits * 64 + (b - 0x80)
        if pending.missing == 1 then
          (decodeFrom (position + 1) none rest).map (Char.ofNat bits :: ·)
        else
          decodeFrom (position + 1)
            (some { pending with missing := pending.missing - 1, bits := bits, low := 0x80, high := 0xBF })
            rest
      else .error (.badContinuation pending.start position pending.lead)

def decode (bytes : Bytes) : Except Fault (List Char) :=
  decodeFrom 0 none bytes

def decode? (bytes : Bytes) : Option (List Char) :=
  (decode bytes).toOption

def isValid (bytes : Bytes) : Bool :=
  (decode? bytes).isSome

def encodeChar (c : Char) : Bytes :=
  let code := c.toNat
  let tail (shift : Nat) : UInt8 := UInt8.ofNat (0x80 + code / Nat.pow 2 shift % 64)
  if code < 0x80 then [UInt8.ofNat code]
  else if code < 0x800 then [UInt8.ofNat (0xC0 + code / 64), tail 0]
  else if code < 0x10000 then [UInt8.ofNat (0xE0 + code / 4096), tail 6, tail 0]
  else [UInt8.ofNat (0xF0 + code / 262144), tail 12, tail 6, tail 0]

def encode (text : List Char) : Bytes :=
  text.flatMap encodeChar

namespace Fault

def hexByte (byte : UInt8) : String :=
  let digits := Nat.toDigits 16 byte.toNat
  String.ofList (if digits.length < 2 then '0' :: digits else digits)

/-- The place of a refused sequence: one byte is shown, several are counted. -/
def place (start stop : Nat) (lead : UInt8) : String :=
  if stop == start + 1 then s!"byte 0x{hexByte lead} in position {start}"
  else s!"bytes in position {start}-{stop - 1}"

def message : Fault → String
  | .badStart position byte =>
      s!"'utf-8' codec can't decode {place position (position + 1) byte}: invalid start byte"
  | .badContinuation start stop lead =>
      s!"'utf-8' codec can't decode {place start stop lead}: invalid continuation byte"
  | .truncated start stop lead =>
      s!"'utf-8' codec can't decode {place start stop lead}: unexpected end of data"

end Fault

end Utf8

end Tracemark
