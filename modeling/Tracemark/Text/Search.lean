/-!
# Searching in texts

First and last occurrence of a pattern, as an index in characters. The empty
pattern occurs before every character and at the end.
-/

set_option autoImplicit false

namespace Tracemark.Text

def find? (pattern : List Char) : List Char → Option Nat
  | [] => if pattern.isEmpty then some 0 else none
  | c :: rest =>
      if pattern.isPrefixOf (c :: rest) then some 0
      else (find? pattern rest).map (· + 1)

def findLast? (pattern : List Char) : List Char → Option Nat
  | [] => if pattern.isEmpty then some 0 else none
  | c :: rest =>
      match findLast? pattern rest with
      | some index => some (index + 1)
      | none => if pattern.isPrefixOf (c :: rest) then some 0 else none

/-- The characters from index `start` up to, not including, index `stop`. -/
def slice (start stop : Nat) (text : List Char) : List Char :=
  (text.take stop).drop start

/-- The text before the first separator and the rest after it, if there is one. -/
def cut? (separator : Char) : List Char → Option (List Char × List Char)
  | [] => none
  | c :: rest =>
      if c == separator then some ([], rest)
      else (cut? separator rest).map fun (before, after) => (c :: before, after)

def pieces (separator : Char) : List Char → List (List Char)
  | [] => [[]]
  | c :: rest =>
      if c == separator then [] :: pieces separator rest
      else
        match pieces separator rest with
        | [] => [[c]]
        | piece :: more => (c :: piece) :: more

def replaceChar (old : Char) (new : List Char) (text : List Char) : List Char :=
  text.flatMap fun c => if c == old then new else [c]

def occursIn (pattern text : List Char) : Bool :=
  (find? pattern text).isSome

end Tracemark.Text
