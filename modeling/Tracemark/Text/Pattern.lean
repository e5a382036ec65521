/-!
# Patterns

Patterns of texts, matched at the front of a text by trying their alternatives in
order. Repetition is of single characters only. A capture remembers the text that
a part of the pattern took.
-/

set_option autoImplicit false

namespace Tracemark.Text

inductive CharClass where
  /-- The character, in upper or lower case. -/
  | letter (character : Char)
  /-- Any character but a line feed. -/
  | any
  /-- Any character but a slash. -/
  | notSlash
  /-- An ASCII digit. -/
  | digit
deriving Repr, DecidableEq

inductive Pattern where
  | empty
  | one (class_ : CharClass)
  | sequence (first second : Pattern)
  | either (first second : Pattern)
  /-- The pattern, or nothing; the pattern is tried first. -/
  | optional (pattern : Pattern)
  /-- At least `least` characters; as many as possible are tried first if `greedy`,
  as few as possible otherwise. -/
  | many (class_ : CharClass) (least : Nat) (greedy : Bool)
  | capture (name : String) (pattern : Pattern)
  /-- The pattern if the capture took part, nothing otherwise. -/
  | ifCaptured (name : String) (pattern : Pattern)
  /-- The end of the text, or a line feed before it. -/
  | ending
deriving Repr, DecidableEq

namespace CharClass

/-- Letters that differ only in case, with the long s and the two i's that have an
ASCII partner. -/
def sameLetter (left right : Char) : Bool :=
  left.toLower == right.toLower ||
    (left.toLower == 's' && right.toNat == 0x17F) ||
    (left.toLower == 'i' && (right.toNat == 0x130 || right.toNat == 0x131))

def holds : CharClass → Char → Bool
  | .letter expected, c => sameLetter expected c
  | .any, c => c != '\n'
  | .notSlash, c => c != '/'
  | .digit, c => '0' ≤ c && c ≤ '9'

end CharClass

/-- Texts that captures took, the newest first. -/
abbrev Captures := List (String × List Char)

namespace Captures

def get? (captures : Captures) (name : String) : Option (List Char) :=
  (captures.find? fun entry => entry.1 == name).map (·.2)

end Captures

namespace Pattern

/-- Characters of a class as long as possible, then the rest of the match; if that
fails, fewer. -/
def takeMost {α : Type} (class_ : CharClass) (next : List Char → Option α) :
    Nat → List Char → Option α
  | least, [] => if least == 0 then next [] else none
  | least, c :: rest =>
      let longer := if class_.holds c then takeMost class_ next (least - 1) rest else none
      match longer with
      | some found => some found
      | none => if least == 0 then next (c :: rest) else none

/-- As few characters of a class as possible, then the rest of the match; if that
fails, more. -/
def takeLeast {α : Type} (class_ : CharClass) (next : List Char → Option α) :
    Nat → List Char → Option α
  | least, [] => if least == 0 then next [] else none
  | least, c :: rest =>
      let here := if least == 0 then next (c :: rest) else none
      match here with
      | some found => some found
      | none => if class_.holds c then takeLeast class_ next (least - 1) rest else none

def consumed (input rest : List Char) : List Char :=
  input.take (input.length - rest.length)

/-- Matches at the front of a text and goes on with the rest; the first way in
which all succeeds is taken. -/
def matchThen {α : Type} : Pattern → List Char → Captures →
    (List Char → Captures → Option α) → Option α
  | .empty, input, captures, next => next input captures
  | .one class_, input, captures, next =>
      match input with
      | [] => none
      | c :: rest => if class_.holds c then next rest captures else none
  | .sequence first second, input, captures, next =>
      first.matchThen input captures fun rest found => second.matchThen rest found next
  | .either first second, input, captures, next =>
      match first.matchThen input captures next with
      | some found => some found
      | none => second.matchThen input captures next
  | .optional pattern, input, captures, next =>
      match pattern.matchThen input captures next with
      | some found => some found
      | none => next input captures
  | .many class_ least greedy, input, captures, next =>
      if greedy then takeMost class_ (fun rest => next rest captures) least input
      else takeLeast class_ (fun rest => next rest captures) least input
  | .capture name pattern, input, captures, next =>
      pattern.matchThen input captures fun rest found =>
        next rest ((name, consumed input rest) :: found)
  | .ifCaptured name pattern, input, captures, next =>
      if (captures.get? name).isSome then pattern.matchThen input captures next
      else next input captures
  | .ending, input, captures, next =>
      if input.isEmpty || input == ['\n'] then next input captures else none

def match? (pattern : Pattern) (text : List Char) : Option Captures :=
  pattern.matchThen text [] fun _ captures => some captures

def all : List Pattern → Pattern
  | [] => .empty
  | [only] => only
  | first :: rest => .sequence first (all rest)

/-- The characters of a text, in upper or lower case. -/
def word (text : String) : Pattern :=
  all (text.toList.map fun c => .one (.letter c))

end Pattern

end Tracemark.Text
