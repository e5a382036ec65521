import Tracemark.Text.Blank
import Tracemark.Text.Lines
import Tracemark.Text.Search
import Tracemark.Trail
import Tracemark.Value.Items

/-!
# References to needs

A marker in a comment line is followed by the ids of the needs it refers to,
divided by commas or blank space.
-/

set_option autoImplicit false

namespace Tracemark

/-- A reference: its marker, the ids after it, the row of its line within the
comment, and the columns between which the ids stand. -/
structure Reference where
  marker : String
  ids : List String
  row : Nat
  startColumn : Nat
  endColumn : Nat
deriving Repr, DecidableEq

namespace Reference

def idsIn (text : List Char) : List (List Char) :=
  Text.words (Text.replaceChar ',' [' '] text)

/-- The reference that a line makes with a marker, from its first occurrence. -/
def inLine? (marker : List Char) (row : Nat) (line : List Char) : Option Reference :=
  (Text.find? marker line).map fun index =>
    let start := index + marker.length
    let text := Text.trim (line.drop start)
    { marker := String.ofList marker
      ids := (idsIn text).map String.ofList
      row := row
      startColumn := start
      endColumn := start + text.length }

/-- The reference that a line makes with a marker of settings, which has to be a
text. -/
def withMarker (row : Nat) (line : List Char) (marker : Value) : Trail Reference :=
  match marker.asText with
  | .error fault => .failed fault
  | .ok characters => { found := (inLine? characters row line).toList }

def ofLine (markers : Value) (row : Nat) (line : List Char) : Trail Reference :=
  match markers.items with
  | .error fault => .failed fault
  | .ok candidates => Trail.along (withMarker row line) candidates

def scan (markers : Value) (text : List Char) : Trail Reference :=
  Trail.along (fun (line, row) => ofLine markers row line.body) (Text.lines text).zipIdx

end Reference

end Tracemark
