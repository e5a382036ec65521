/-!
# Lines of a text

A text is divided at every character that ends a line: the line feed, the
carriage return, both together as one ending, the vertical tab, the form feed,
three of the information separators, the next-line character, and the Unicode
line and paragraph separators. Only the last line may lack an ending, and it is
then not empty.
-/

set_option autoImplicit false

namespace Tracemark.Text

def isLineBreak (c : Char) : Bool :=
  let code := c.toNat
  (0x0A ≤ code && code ≤ 0x0D) || (0x1C ≤ code && code ≤ 0x1E) || code == 0x85 ||
    code == 0x2028 || code == 0x2029

/-- A line and the characters that end it; the ending of the last line may be
empty. -/
structure Line where
  body : List Char
  ending : List Char
deriving Repr, DecidableEq

namespace Line

/-- The line as written, with its ending. -/
def full (line : Line) : List Char :=
  line.body ++ line.ending

end Line

def lines : List Char → List Line
  | [] => []
  | '\r' :: '\n' :: rest => ⟨[], ['\r', '\n']⟩ :: lines rest
  | c :: rest =>
      if isLineBreak c then ⟨[], [c]⟩ :: lines rest
      else
        match lines rest with
        | [] => [⟨[c], []⟩]
        | line :: more => { line with body := c :: line.body } :: more

/-- The text with each carriage return before a line feed left out. -/
def joinReturns : List Char → List Char
  | [] => []
  | '\r' :: '\n' :: rest => '\n' :: joinReturns rest
  | c :: rest => c :: joinReturns rest

/-- The text with each of the three common line endings written as a line feed. -/
def unifyNewlines (text : List Char) : List Char :=
  (joinReturns text).map fun c => if c == '\r' then '\n' else c

end Tracemark.Text
