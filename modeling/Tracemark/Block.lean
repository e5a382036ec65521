import Tracemark.Text.Blank
import Tracemark.Text.Lines
import Tracemark.Text.Search

/-!
# Marked blocks of documentation

A block stands between the first start sequence and the last end sequence of a
comment. When the text between them runs over several lines, the block begins
after the first line feed.
-/

set_option autoImplicit false

namespace Tracemark

/-- A block: its text, the number of lines before its start sequence, and the
indices in the comment between which the text stands. -/
structure Block where
  text : List Char
  row : Nat
  startIndex : Nat
  endIndex : Nat
deriving Repr, DecidableEq

namespace Block

/-- The block of a comment, if both sequences occur and the text between them is
not blank. -/
def find? (startSequence endSequence text : List Char) : Option Block :=
  match Text.find? startSequence text, Text.findLast? endSequence text with
  | some start, some stop =>
      let begin := start + startSequence.length
      let inner := Text.slice begin stop text
      let row := (Text.lines (text.take start)).length
      if Text.isBlankText inner then none
      else
        match Text.find? ['\n'] inner with
        | none => some ⟨inner, row, begin, stop⟩
        | some newline => some ⟨inner.drop (newline + 1), row, begin + newline + 1, stop⟩
  | _, _ => none

/-- A line without its part up to the first of the sequences that occurs in it. -/
def afterSequence (sequences : List (List Char)) (line : List Char) : List Char :=
  match sequences.findSome? fun sequence =>
      (Text.find? sequence line).map fun index => line.drop (index + sequence.length) with
  | some rest => rest
  | none => line

/-- The text with each line cut after the sequence that leads it. -/
def withoutLeading (sequences : List (List Char)) (text : List Char) : List Char :=
  (Text.lines text).flatMap fun line => afterSequence sequences line.full

/-- The text of a block as it is documented: over several lines, a star and what
is before it are cut from each line. -/
def documented (block : Block) : List Char :=
  if block.text.contains '\n' then withoutLeading [['*']] block.text else block.text

end Block

end Tracemark
