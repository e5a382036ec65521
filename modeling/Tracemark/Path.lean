import Tracemark.Fault
import Tracemark.Text.Search

/-!
# Paths

A path is an anchor and a list of components. Empty components and single dots
are dropped when a path is read; two dots are kept until a path is resolved.
Exactly two leading slashes are an anchor of their own.
-/

set_option autoImplicit false

namespace Tracemark

inductive Anchor where
  | relative
  | absolute
  | doubled
deriving Repr, DecidableEq

structure Path where
  anchor : Anchor
  parts : List String
deriving Repr, DecidableEq

namespace Anchor

def text : Anchor → String
  | .relative => ""
  | .absolute => "/"
  | .doubled => "//"

end Anchor

namespace Path

def anchorOf (text : List Char) : Anchor :=
  match (text.takeWhile (· == '/')).length with
  | 0 => .relative
  | 2 => .doubled
  | _ => .absolute

def partsOf (text : List Char) : List String :=
  ((Text.pieces '/' text).map String.ofList).filter fun part => part != "" && part != "."

def ofText (text : String) : Path :=
  ⟨anchorOf text.toList, partsOf text.toList⟩

/-- The path as written; a path of no components is a dot. -/
def text (path : Path) : String :=
  let body := String.intercalate "/" path.parts
  if path.anchor == .relative && path.parts.isEmpty then "." else path.anchor.text ++ body

/-- The directory that a relative path starts from. -/
def here : Path := ⟨.relative, []⟩

def isAbsolute (path : Path) : Bool :=
  path.anchor != .relative

/-- A path below another one; an absolute path is taken as it is. -/
def join (base path : Path) : Path :=
  if path.isAbsolute then path else { base with parts := base.parts ++ path.parts }

def child (base : Path) (name : String) : Path :=
  join base (ofText name)

/-- The last component, empty if there is none. -/
def name (path : Path) : String :=
  path.parts.getLast?.getD ""

/-- The part of a name from its last dot on, unless the dot comes first or last. -/
def suffixOf (name : List Char) : List Char :=
  match Text.findLast? ['.'] name with
  | some index => if 0 < index && index + 1 < name.length then name.drop index else []
  | none => []

def suffix (path : Path) : String :=
  String.ofList (suffixOf path.name.toList)

/-- The path without its last component; a path without components is its own
parent. -/
def parent (path : Path) : Path :=
  { path with parts := path.parts.dropLast }

def parents (path : Path) : List Path :=
  (List.range path.parts.length).reverse.map fun count =>
    { path with parts := path.parts.take count }

/-- The path seen from a working directory. -/
def absolute (path working : Path) : Path :=
  working.join path

/-- Components with each pair of dots taken together with the component before
it. -/
def collapse (parts : List String) : List String :=
  (parts.foldl (fun done part => if part == ".." then done.tail else part :: done) []).reverse

/-- The absolute path without dots that a path stands for. -/
def collapsed (path working : Path) : Path :=
  ⟨.absolute, collapse (working.join path).parts⟩

/-- Does a component hold the null character? No file can have such a name. -/
def holdsNull (path : Path) : Bool :=
  path.parts.any fun part => part.toList.contains (Char.ofNat 0)

/-- The absolute path without dots that a path stands for. The components are
looked up on the way, so none may hold the null character. -/
def resolve (path working : Path) : Except Fault Path :=
  if path.holdsNull then .error .nullCharacter else .ok (path.collapsed working)

/-- The components after a leading part of the list. -/
def stripParts? : List String → List String → Option (List String)
  | [], parts => some parts
  | _ :: _, [] => none
  | first :: base, part :: parts => if first == part then stripParts? base parts else none

/-- The path of a place below a base, relative to the base. -/
def relativeTo (path base : Path) : Except Fault Path :=
  let refusal : Fault :=
    .notBelow path.text (base.anchor.text ++ String.intercalate "/" base.parts)
  if path.anchor == base.anchor then
    match stripParts? base.parts path.parts with
    | some parts => .ok ⟨.relative, parts⟩
    | none => .error refusal
  else .error refusal

def withSuffix (path : Path) (new : String) : Except Fault Path :=
  if path.name.isEmpty then .error (.emptyName path.text)
  else
    let name := path.name.toList
    let stem := name.take (name.length - (suffixOf name).length)
    .ok { path with parts := path.parts.dropLast ++ [String.ofList stem ++ new] }

/-- The components by which paths are put in order; an anchor comes first. -/
def sortKey (path : Path) : List String :=
  if path.isAbsolute then path.anchor.text :: path.parts else path.parts

def compareParts : List String → List String → Ordering
  | [], [] => .eq
  | [], _ :: _ => .lt
  | _ :: _, [] => .gt
  | left :: restLeft, right :: restRight =>
      (compare left right).then (compareParts restLeft restRight)

def compare (left right : Path) : Ordering :=
  compareParts left.sortKey right.sortKey

end Path

end Tracemark
