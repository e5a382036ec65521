import Tracemark.Discovery.Basic
import Tracemark.Libraries.Reference
import Tracemark.Session
import Tracemark.Text.Lines
import Tracemark.Value.Items

/-!
# Snapshots of files

A snapshot lists directories and files together with the syntax trees of their
contents. An entry is an object with a `path`. It is a directory if its member `dir`
says so; otherwise its content is the `text`, or the bytes that `hex` spells. A `tree`
is a list of a type, a start, an end and the trees below it; its offsets count the
bytes of the content with line feeds only.
-/

set_option autoImplicit false

namespace Tracemark.Snapshot

def member? (entry : Value) (name : String) : Option Value :=
  match entry with
  | .object members => Members.get? members name
  | _ => none

def memberText (entry : Value) (name : String) : String :=
  ((member? entry name).getD .null).shown

/-- The items of a list; what is no list has none. -/
def itemsOf : Value → List Value
  | .list items => items
  | _ => []

def bytesOfHex : List Char → Bytes
  | high :: low :: rest =>
      UInt8.ofNat ((Json.hexValue? high).getD 0 * 16 + (Json.hexValue? low).getD 0) ::
        bytesOfHex rest
  | _ => []

mutual

def shapeOf : Value → Syntax.Shape
  | .list [type, start, stop] => .mk type.shown (start.nat?.getD 0) (stop.nat?.getD 0) []
  | .list (type :: start :: stop :: .list children :: _) =>
      .mk type.shown (start.nat?.getD 0) (stop.nat?.getD 0) (shapesOf children)
  | _ => .mk "" 0 0 []

def shapesOf : List Value → List Syntax.Shape
  | [] => []
  | value :: rest => shapeOf value :: shapesOf rest

end

def pathOf (working : Path) (entry : Value) : Path :=
  working.join (.ofText (memberText entry "path"))

def contentOf (entry : Value) : Bytes :=
  match member? entry "hex" with
  | some digits => bytesOfHex digits.shown.toList
  | none => Utf8.encode (memberText entry "text").toList

/-- A store with a directory and those above it. -/
def withDirectory (store : Store) (directory : Path) : Except Fault Store :=
  match store.makeDirectories directory true with
  | (made, none) => .ok made
  | (_, some fault) => .error fault

def addEntry (store : Store) (entry : Value) : Except Fault Store := do
  let path := pathOf store.working entry
  if ((member? entry "dir").getD .null).truthy then withDirectory store path
  else (← withDirectory store path.parent).write path (contentOf entry)

def store (working : Path) (entries : Value) : Except Fault Store := do
  (itemsOf entries).foldlM addEntry (← withDirectory ⟨working, []⟩ working)

def listing (working : Path) (entries : Value) : List Path :=
  (itemsOf entries).map (pathOf working)

def below (store : Store) (directory : Path) (paths : List Path) : List Path :=
  let base := directory.collapsed store.working
  (paths.map fun path => path.collapsed store.working).filter fun path =>
    match Path.stripParts? base.parts path.parts with
    | some (_ :: _) => true
    | _ => false

/-- A list of paths answers a walk with those below its directory, whatever else is requested. -/
instance : Coe (List Path) Discovery.Listing :=
  ⟨fun paths => ⟨fun store directory _ => below store directory paths⟩⟩

/-- The syntax trees of a snapshot. Content that is no text has none. -/
def shapes (entries : Value) : Syntax.Parser :=
  .knowing <| (itemsOf entries).filterMap fun entry => do
    let tree ← member? entry "tree"
    let text ← Utf8.decode? (contentOf entry)
    return (Utf8.encode (Text.unifyNewlines text), shapeOf tree)

def session (working : Path) (entries : Value) : Except Fault Session := do
  return ⟨← store working entries, shapes entries, []⟩

end Tracemark.Snapshot
