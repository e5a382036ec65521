import Tracemark.Console.Width
import Tracemark.Text.Search

/-!
# Plain text on a console

What a console without colours makes of a text: some control characters are left
out and tabs become spaces. Output that does not go through a console keeps both
and loses the sequences that switch colours.
-/

set_option autoImplicit false

namespace Tracemark.Console

/-- The control characters that a console leaves out: the bell, the backspace and
what moves the cursor other than by a tab or a line feed. -/
def isLeftOut (c : Char) : Bool :=
  [7, 8, 11, 12, 13].contains c.toNat

/-- The distance of tab stops, in cells. -/
def tabStop : Nat := 8

/-- A text from a column on, with spaces up to the next tab stop in place of each
tab. -/
def expandTabs (column : Nat) : List Char → List Char
  | [] => []
  | '\n' :: rest => '\n' :: expandTabs 0 rest
  | '\t' :: rest =>
      let spaces := tabStop - column % tabStop
      List.replicate spaces ' ' ++ expandTabs (column + spaces) rest
  | c :: rest => c :: expandTabs (column + cellWidth c) rest

/-- A text without the characters that are left out. -/
def withoutControls (text : List Char) : List Char :=
  text.filter fun c => !isLeftOut c

def plain (text : String) : String :=
  String.ofList (expandTabs 0 (withoutControls text.toList))

/-- The rest of a text after a sequence that switches colours, of which the escape
character and the bracket are already read. -/
def afterSequence? : List Char → Option (List Char)
  | [] => none
  | c :: rest =>
      if c.isAlpha then some rest
      else if c.isDigit || c == ';' || c == '?' then afterSequence? rest
      else none

/-- A text without the sequences that switch colours. The number bounds the
characters that are read. -/
def withoutSequences : Nat → List Char → List Char
  | 0, text => text
  | _ + 1, [] => []
  | fuel + 1, c :: rest =>
      match c.toNat, rest with
      | 0x1B, '[' :: inside =>
          match afterSequence? inside with
          | some after => withoutSequences fuel after
          | none => c :: withoutSequences fuel rest
      | _, _ => c :: withoutSequences fuel rest

def colorless (text : String) : String :=
  String.ofList (withoutSequences text.length text.toList)

end Tracemark.Console
