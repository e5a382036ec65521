/-!
# Blank characters and trimming

The characters that count as blank space in a text, and the operations that
remove them at the ends or divide a text at them. Zero-width characters and the
byte-order mark are not blank.
-/

set_option autoImplicit false

namespace Tracemark.Text

/-- Blank space: the ASCII blanks, the four ASCII information separators, and
the Unicode separators of every width. -/
def isBlank (c : Char) : Bool :=
  let code := c.toNat
  (0x09 ≤ code && code ≤ 0x0D) || (0x1C ≤ code && code ≤ 0x20) || code == 0x85 ||
    code == 0xA0 || code == 0x1680 || (0x2000 ≤ code && code ≤ 0x200A) ||
    code == 0x2028 || code == 0x2029 || code == 0x202F || code == 0x205F || code == 0x3000

/-- The text without the longest tail whose characters all satisfy the test. -/
def dropTail (test : Char → Bool) (text : List Char) : List Char :=
  (text.reverse.dropWhile test).reverse

def trimBy (test : Char → Bool) (text : List Char) : List Char :=
  dropTail test (text.dropWhile test)

def trim (text : List Char) : List Char :=
  trimBy isBlank text

/-- The text without spaces at both ends; other blank characters stay. -/
def trimSpaces (text : List Char) : List Char :=
  trimBy (· == ' ') text

/-- A text of which nothing is left after trimming. -/
def isBlankText (text : List Char) : Bool :=
  text.all isBlank

/-- The maximal runs of characters that fail the test, in order. A run starts at
the text's beginning or after a character that satisfies the test. -/
def runsOutside (test : Char → Bool) : List Char → List (List Char)
  | [] => []
  | c :: rest =>
      if test c then runsOutside test rest
      else
        match rest with
        | [] => [[c]]
        | next :: _ =>
            if test next then [c] :: runsOutside test rest
            else
              match runsOutside test rest with
              | [] => [[c]]
              | run :: more => (c :: run) :: more

/-- The words of a text: the maximal runs without blank space. -/
def words (text : List Char) : List (List Char) :=
  runsOutside isBlank text

end Tracemark.Text
