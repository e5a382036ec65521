/-!
# Splitting a one-line mark into fields

A mark is divided at a separator. A backslash in front of the separator, a
bracket or a backslash makes that character literal; in front of any other
character it stands for itself, and at the end of the text it is dropped. In a
list field a backslash is an ordinary character, and the separator inside
brackets belongs to the field.
-/

set_option autoImplicit false

namespace Tracemark.OneLine

def extendFirst (characters : List Char) : List (List Char) → List (List Char)
  | [] => [characters]
  | field :: rest => (characters ++ field) :: rest

/-- The characters that a backslash makes literal. -/
def isSpecial (separator : Option Char) (c : Char) : Bool :=
  some c == separator || c == '[' || c == ']' || c == '\\'

/-- What the splitter remembers between two characters: the number of the field
it is in, counted from one, whether a backslash is pending, and whether a bracket
of a list field is open. -/
structure SplitState where
  position : Nat
  escaped : Bool
  bracketed : Bool
deriving Repr, DecidableEq

/-- The rest of the current field and the fields after it. -/
def splitFrom (separator : Option Char) (listPositions : List Nat) :
    SplitState → List Char → List (List Char)
  | _, [] => [[]]
  | state, c :: rest =>
      let isList := listPositions.contains state.position
      if state.escaped then
        let literal := if isSpecial separator c then [c] else ['\\', c]
        extendFirst literal
          (splitFrom separator listPositions { state with escaped := false } rest)
      else if c == '\\' && !isList then
        splitFrom separator listPositions { state with escaped := true } rest
      else if some c == separator then
        if isList && state.bracketed then
          extendFirst [c] (splitFrom separator listPositions state rest)
        else
          [] :: splitFrom separator listPositions { state with position := state.position + 1 } rest
      else
        let bracketed :=
          if isList && c == '[' then true
          else if isList && c == ']' then false
          else state.bracketed
        extendFirst [c] (splitFrom separator listPositions { state with bracketed := bracketed } rest)

/-- The fields of a text. `listPositions` are the numbers of the list fields,
counted from one; without a separator the text is one field. -/
def split (separator : Option Char) (listPositions : List Nat) (text : List Char) :
    List (List Char) :=
  splitFrom separator listPositions ⟨1, false, false⟩ text

/-- A separator of settings: only a text of one character divides fields. -/
def separatorOf? (text : List Char) : Option Char :=
  match text with
  | [c] => some c
  | _ => none

end Tracemark.OneLine
