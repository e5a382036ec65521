import Tracemark.OneLine.Split
import Tracemark.OneLine.Style
import Tracemark.Text.Blank
import Tracemark.Text.Search
import Tracemark.Value.Key

/-!
# Reading one-line marks

A line holds a mark when the style's start and end sequences occur in it. The
text between the first start and the last end is split into fields, and the mark
is read as a need, or a warning says why it is none.
-/

set_option autoImplicit false

namespace Tracemark.OneLine

inductive Warning where
  | tooFewFields (given least : Nat)
  | tooManyFields (given most : Nat)
  | newlineInField (field : String)
  | missingBrackets (field : String)
  | notBracketed (field : String)
deriving Repr, DecidableEq

namespace Warning

def kind : Warning → String
  | .tooFewFields .. => "too_few_fields"
  | .tooManyFields .. => "too_many_fields"
  | .newlineInField _ => "newline_in_field"
  | .missingBrackets _ => "missing_square_brackets"
  | .notBracketed _ => "not_start_or_end_with_square_brackets"

def message : Warning → String
  | .tooFewFields given least => s!"{given} given fields. They shall be more than {least}"
  | .tooManyFields given most => s!"{given} given fields. They shall be less than {most}"
  | .newlineInField field => s!"Field {field} has newline character. It is not allowed"
  | .missingBrackets field =>
      s!"Field {field} with 'type': '{listType}' must be given with '[]' brackets"
  | .notBracketed field =>
      s!"Field {field} with 'type': '{listType}' must start with '[' and end with ']'"

end Warning

/-- A need: its fields in the style's order, and the columns between which it was
written. -/
structure Need where
  fields : Table Value
  startColumn : Nat
  endColumn : Nat
deriving Repr

inductive Reading where
  | nothing
  | warning (cause : Warning)
  | need (need : Need)
deriving Repr

/-- The items of a list field, given the text between its brackets. -/
def listItems (text : List Char) : List (List Char) :=
  if Text.isBlankText text then []
  else (split (some ',') [] text).map Text.trim

def readList (name : String) (text : List Char) : Except Warning Value :=
  match Text.find? ['['] text, Text.findLast? [']'] text with
  | some first, some last =>
      if first != 0 || last + 1 != text.length then .error (.notBracketed name)
      else .ok (.list ((listItems (Text.slice 1 last text)).map fun item => .text (String.ofList item)))
  | _, _ => .error (.missingBrackets name)

/-- The value of a given field. A field whose type is neither text nor list is not
read. -/
def readGiven (field : Members) (name : String) (text : List Char) :
    Except Warning (Option Value) :=
  if text.contains '\n' then .error (.newlineInField name)
  else if Style.hasType textType field then .ok (some (.text (String.ofList text)))
  else if Style.hasType listType field then (readList name text).map some
  else .ok none

/-- The value of a field that is not given: its default, if it has one. -/
def absentValue (field : Members) : Option Value :=
  if Style.isRequired field then none else field.get? "default"

/-- Reads the fields in order, the given ones first. The inner outcome is a
warning or the fields read; a field without a name is a fault. -/
def readFields : List Members → List (List Char) → Table Value →
    Except Fault (Except Warning (Table Value))
  | [], _, found => .ok (.ok found)
  | field :: rest, given, found =>
      match field.get? "name" with
      | none => .error (.missingKey (.text "name"))
      | some name =>
          let value : Except Warning (Option Value) :=
            match given with
            | [] => .ok (absentValue field)
            | text :: _ => readGiven field name.shown text
          match value with
          | .error cause => .ok (.error cause)
          | .ok none => readFields rest given.tail found
          | .ok (some content) =>
              match name.asKey with
              | .error cause => .error cause
              | .ok key => readFields rest given.tail (Table.put key content found)

/-- The columns take the place of fields of the same names. -/
def withoutColumns (fields : Table Value) : Table Value :=
  Table.erase (Table.erase fields "start_column") "end_column"

def read (style : Style) (line : List Char) : Except Fault Reading := do
  let startSequence ← style.startSequence.asText
  let start := Text.find? startSequence line
  let endSequence ← style.endSequence.asText
  let stop := Text.findLast? endSequence line
  match start, stop with
  | some startIndex, some stopIndex =>
      let begin := startIndex + startSequence.length
      let text := Text.trim (Text.slice begin stopIndex line)
      let fields ← style.fieldMembers
      let least := (fields.filter Style.isRequired).length
      let separator :=
        match style.separator with
        | .text characters => separatorOf? characters.toList
        | _ => none
      let given := (split separator (Style.listPositionsOf fields) text).map Text.trimSpaces
      if given.length < least then
        return .warning (.tooFewFields given.length least)
      else if fields.length < given.length then
        return .warning (.tooManyFields given.length fields.length)
      else
        match ← readFields fields given [] with
        | .error cause => return .warning cause
        | .ok found => return .need ⟨withoutColumns found, begin, stopIndex⟩
  | _, _ => return .nothing

end Tracemark.OneLine
