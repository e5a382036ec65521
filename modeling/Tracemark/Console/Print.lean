import Tracemark.Console.Markup
import Tracemark.Console.Plain
import Tracemark.Value.Written

/-!
# Printing values

A call that prints takes any number of values. Neighbouring values are written in
one line with a space between them; a list or an object has a line of its own.
-/

set_option autoImplicit false

namespace Tracemark.Console

/-- How a call wants its values to look. The console takes texts only; a call can
name another one. -/
structure Appearance where
  style : Value := .null
  markup : Value := .bool false
  console : Value := .null
deriving Repr

/-- Are tags in texts read? Unless a call says otherwise, they are. -/
def Appearance.readsTags (appearance : Appearance) : Bool :=
  appearance.markup.isNull || appearance.markup.truthy

def wordsOf (appearance : Appearance) : Value → Except Fault String
  | .text characters =>
      if appearance.readsTags then withoutMarkup characters else .ok characters
  | value => .ok value.written

/-- The line of words that came one after the other, the last one first. -/
def lineOf (words : List String) : List String :=
  if words.isEmpty then [] else [plain (String.intercalate " " words.reverse)]

/-- The lines of values after words that were not yet written, the last of these
first. -/
def linesAfter (appearance : Appearance) (words : List String) :
    List Value → Except Fault (List String)
  | [] => .ok (lineOf words)
  | value :: rest =>
      if value.isScalar then do
        linesAfter appearance ((← wordsOf appearance value) :: words) rest
      else return lineOf words ++ value.written :: (← linesAfter appearance [] rest)

/-- What a call prints. Without values it is an empty line. -/
def printed (appearance : Appearance) (values : List Value) : Except Fault String := do
  if appearance.console.truthy then throw .noSuchMember
  let lines ← linesAfter appearance [] values
  Style.check appearance.style
  return String.intercalate "\n" lines

end Tracemark.Console
