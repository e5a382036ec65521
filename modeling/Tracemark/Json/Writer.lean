import Tracemark.Text.Quoted
import Tracemark.Value.Basic

/-!
# Writing JSON

Values as JSON text in ASCII: items are divided by a comma and a space, a key
and its value by a colon and a space, and every character outside the printable
ASCII range is written by its UTF-16 units. Members keep their order.
-/

set_option autoImplicit false

namespace Tracemark.Json

def unitEscape (unit : Nat) : List Char :=
  '\\' :: 'u' :: Text.hexPadded 4 unit

def escapedChar (c : Char) : List Char :=
  let code := c.toNat
  if c == '"' then ['\\', '"']
  else if c == '\\' then ['\\', '\\']
  else if c == '\n' then ['\\', 'n']
  else if c == '\r' then ['\\', 'r']
  else if c == '\t' then ['\\', 't']
  else if code == 0x0C then ['\\', 'f']
  else if code == 0x08 then ['\\', 'b']
  else if 0x20 ≤ code && code ≤ 0x7E then [c]
  else if code < 0x10000 then unitEscape code
  else
    let offset := code - 0x10000
    unitEscape (0xD800 + offset / 0x400) ++ unitEscape (0xDC00 + offset % 0x400)

def writeText (text : String) : String :=
  String.ofList ('"' :: text.toList.flatMap escapedChar ++ ['"'])

def writeReal : Binary64 → String
  | .undefined => "NaN"
  | .infinite negative => if negative then "-Infinity" else "Infinity"
  | number => number.toText

mutual

def write : Value → String
  | .null => "null"
  | .bool truth => if truth then "true" else "false"
  | .int number => toString number
  | .real number => writeReal number
  | .text characters => writeText characters
  | .list items => "[" ++ String.intercalate ", " (writeItems items) ++ "]"
  | .object members => "\x7b" ++ String.intercalate ", " (writeMembers members) ++ "\x7d"

def writeItems : List Value → List String
  | [] => []
  | item :: rest => write item :: writeItems rest

def writeMembers : List (String × Value) → List String
  | [] => []
  | (key, value) :: rest => (writeText key ++ ": " ++ write value) :: writeMembers rest

end

end Tracemark.Json
