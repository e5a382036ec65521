import Tracemark.Text.Utf8

/-!
# Percent encoding

A path in a link is written in ASCII: letters, digits, and the characters
underscore, dot, hyphen, tilde and slash stand for themselves, and every other
byte of the UTF-8 form is written as a percent sign and two hexadecimal digits in
upper case.
-/

set_option autoImplicit false

namespace Tracemark.Url.Percent

/-- The bytes that stand for themselves. -/
def isPlain (byte : UInt8) : Bool :=
  let b := byte.toNat
  (0x30 ≤ b && b ≤ 0x39) || (0x41 ≤ b && b ≤ 0x5A) || (0x61 ≤ b && b ≤ 0x7A) ||
    b == 0x5F || b == 0x2E || b == 0x2D || b == 0x7E || b == 0x2F

/-- A hexadecimal digit in upper case. -/
def hexDigit (value : Nat) : Char :=
  if value < 10 then Char.ofNat (0x30 + value) else Char.ofNat (0x41 + (value - 10))

def encodeByte (byte : UInt8) : List Char :=
  if isPlain byte then [Char.ofNat byte.toNat]
  else ['%', hexDigit (byte.toNat / 16), hexDigit (byte.toNat % 16)]

def encode (text : List Char) : List Char :=
  (Utf8.encode text).flatMap encodeByte

end Tracemark.Url.Percent
