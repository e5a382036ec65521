import Tracemark.Fault

/-!
# What a file's first bytes tell

Whether a file is a text and whether a data file begins with a comment is decided
from a sample of its first bytes.
-/

set_option autoImplicit false

namespace Tracemark.Discovery

/-- The length from which on no memory can be had for a sample. -/
def memoryLimit : Int := Int.pow 2 40

/-- The largest length of bytes in memory. -/
def lengthLimit : Int := Int.pow 2 63 - 34

/-- The sample of a given length; a length of -1 asks for everything. -/
def sampleOf (length : Int) (content : Bytes) : Except Fault Bytes :=
  if lengthLimit < length || length < -Int.pow 2 63 then .error .tooLarge
  else if memoryLimit ≤ length then .error .outOfMemory
  else if length < -1 then .error .negativeLength
  else .ok (if length < 0 then content else content.take length.toNat)

/-- The sample that a value asks for: nothing asks for everything, and only whole
numbers are lengths. -/
def sampleFor (length : Value) (content : Bytes) : Except Fault Bytes :=
  match length with
  | .null => .ok content
  | .bool holds => sampleOf (if holds then 1 else 0) content
  | .int number => sampleOf number content
  | _ => .error (.mismatch .unfit)

/-- A sample of a text holds no zero byte and is UTF-8 by itself. -/
def isTextSample (bytes : Bytes) : Bool :=
  !bytes.contains 0 && Utf8.isValid bytes

/-- How many bytes decide whether a file is a text. -/
def textSampleSize : Nat := 2048

/-- How many bytes decide whether a data file begins with a comment. -/
def commentSampleSize : Nat := 256

/-- Blank space in ASCII. -/
def isBlankByte (byte : UInt8) : Bool :=
  (9 ≤ byte && byte ≤ 13) || byte == 32

/-- The bytes without a leading byte-order mark. -/
def withoutMark : Bytes → Bytes
  | 0xEF :: 0xBB :: 0xBF :: rest => rest
  | bytes => bytes

/-- Do the bytes begin with a comment, after a byte-order mark and blank space? -/
def beginsWithComment (bytes : Bytes) : Bool :=
  match (withoutMark bytes).dropWhile isBlankByte with
  | 0x2F :: 0x2F :: _ => true
  | 0x2F :: 0x2A :: _ => true
  | _ => false

end Tracemark.Discovery
