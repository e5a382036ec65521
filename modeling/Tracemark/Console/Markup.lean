import Tracemark.Console.Style

/-!
# Marked-up text

Tags in brackets mark where a style begins and ends. A console without colours
shows the text without its tags, but a closing tag needs an open one. A backslash
keeps a tag from being one.
-/

set_option autoImplicit false

namespace Tracemark.Console

inductive MarkupPart where
  | text (characters : List Char)
  | tag (content : List Char)
deriving Repr, DecidableEq

def opensTag (c : Char) : Bool :=
  ('a' ≤ c && c ≤ 'z') || c == '#' || c == '/' || c == '@'

/-- The content of a tag whose opening bracket is already read, and what follows
the tag. -/
def tagAt? : List Char → Option (List Char × List Char)
  | [] => none
  | first :: rest =>
      let content := rest.takeWhile fun c => c != '[' && c != ']'
      match opensTag first, rest.dropWhile fun c => c != '[' && c != ']' with
      | true, ']' :: after => some (first :: content, after)
      | _, _ => none

/-- A backslash before a bracket stands for the bracket. -/
def unescaped : List Char → List Char
  | '\\' :: '[' :: rest => '[' :: unescaped rest
  | c :: rest => c :: unescaped rest
  | [] => []

/-- Puts the characters that were read, the last of them first, in front of the
parts that follow. -/
def endText (read : List Char) (parts : List MarkupPart) : List MarkupPart :=
  if read.isEmpty then parts else .text (unescaped read.reverse) :: parts

/-- A tag after some backslashes. Two of them stand for one, and one that is left
makes the tag a text. -/
def escapedTag (backslashes : Nat) (content : List Char) : List MarkupPart :=
  let kept := List.replicate (backslashes / 2) '\\'
  let literal := if kept.isEmpty then [] else [MarkupPart.text kept]
  if backslashes % 2 == 1 then literal ++ [.text ('[' :: content ++ [']'])]
  else literal ++ [.tag content]

/-- The parts of a marked-up text. The first argument bounds the steps, the second
one holds what was read since the last tag, the last character first. -/
def markupParts : Nat → List Char → List Char → List MarkupPart
  | 0, read, rest => endText read [.text rest]
  | fuel + 1, read, input =>
      let backslashes := input.takeWhile (· == '\\')
      match input.dropWhile (· == '\\') with
      | [] => endText (backslashes ++ read) []
      | '[' :: inside =>
          match tagAt? inside with
          | some (content, after) =>
              endText read (escapedTag backslashes.length content ++ markupParts fuel [] after)
          | none => markupParts fuel ('[' :: backslashes ++ read) inside
      | c :: rest => markupParts fuel (c :: backslashes ++ read) rest

/-- The name in a tag: what stands before an equals sign. -/
def tagName (content : List Char) : String :=
  String.ofList (content.takeWhile (· != '='))

/-- Closes the open style of a name, the last one first. -/
def closeStyle (name : String) : List String → Except Fault (List String)
  | [] => .error .unmatchedTag
  | style :: rest =>
      if style == name then .ok rest else return style :: (← closeStyle name rest)

/-- The open styles after a tag, the last one first. -/
def afterTag (opened : List String) (content : List Char) : Except Fault (List String) := do
  match (tagName content).toList with
  | '/' :: name =>
      let wanted := Text.trim name
      if wanted.isEmpty then
        match opened with
        | [] => throw .unmatchedTag
        | _ :: rest => return rest
      else closeStyle (← Style.normalForm (String.ofList wanted)) opened
  | name => return (← Style.normalForm (String.ofList name)) :: opened

/-- The text of the parts, where the given styles are open. -/
def textOfParts (opened : List String) : List MarkupPart → Except Fault (List Char)
  | [] => .ok []
  | .text characters :: rest => return characters ++ (← textOfParts opened rest)
  | .tag content :: rest => do textOfParts (← afterTag opened content) rest

def withoutMarkup (text : String) : Except Fault String := do
  return String.ofList (← textOfParts [] (markupParts text.length [] text.toList))

end Tracemark.Console
