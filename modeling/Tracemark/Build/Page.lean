import Tracemark.Store
import Tracemark.Text.Lines
import Tracemark.Text.Search

/-!
# Pages of source files

Each source file with needs gets a page that shows its lines. A line from which a
need comes has a link back to the document with that need.
-/

set_option autoImplicit false

namespace Tracemark.Build

/-- Links by line, as lines were first given. Lines count from one. -/
abbrev LineLinks := List (Int × String)

namespace LineLinks

def get? (links : LineLinks) (line : Int) : Option String :=
  (links.find? fun entry => entry.1 == line).map (·.2)

/-- Gives a line a link; the last link given to a line counts. -/
def put (line : Int) (link : String) : LineLinks → LineLinks
  | [] => [(line, link)]
  | current :: rest =>
      if current.1 == line then (line, link) :: rest else current :: put line link rest

def sorted (links : LineLinks) : LineLinks :=
  links.mergeSort fun left right => left.1 ≤ right.1

end LineLinks

/-- The links of files, as files were first given. -/
abbrev BackLinks := List (String × LineLinks)

namespace BackLinks

def get? (links : BackLinks) (file : String) : Option LineLinks :=
  (links.find? fun entry => entry.1 == file).map (·.2)

def put (file : String) (line : Int) (link : String) : BackLinks → BackLinks
  | [] => [(file, [(line, link)])]
  | current :: rest =>
      if current.1 == file then (file, LineLinks.put line link current.2) :: rest
      else current :: put file line link rest

/-- Gives a file its links: a file that has some keeps its place. -/
def putFile (file : String) (fileLinks : LineLinks) : BackLinks → BackLinks
  | [] => [(file, fileLinks)]
  | current :: rest =>
      if current.1 == file then (file, fileLinks) :: rest
      else current :: putFile file fileLinks rest

end BackLinks

/-- The number of lines on the page of a text. The last line ends with a line feed,
also if it does not in the text. -/
def pageLineCount (text : List Char) : Nat :=
  let unified := Text.unifyNewlines text
  unified.count '\n' + (if unified.getLast? == some '\n' then 0 else 1)

/-- The links on the page of a text: those of lines that the page has. -/
def linksOnPage (text : List Char) (links : LineLinks) : LineLinks :=
  LineLinks.sorted (links.filter fun entry => 1 ≤ entry.1 && entry.1 ≤ (pageLineCount text : Int))

def pageLinks (store : Store) (file : Path) (links : LineLinks) : Except Fault LineLinks := do
  return linksOnPage (← store.readText file) links

def linkEnd : List Char := "</a>".toList

/-- How often a pattern occurs in a text, without overlaps. `skip` characters
belong to the occurrence before. -/
def occurrences (pattern : List Char) : Nat → List Char → Nat
  | _, [] => 0
  | skip + 1, _ :: rest => occurrences pattern skip rest
  | 0, c :: rest =>
      if pattern.isPrefixOf (c :: rest) then 1 + occurrences pattern (pattern.length - 1) rest
      else occurrences pattern 0 rest

/-- A line of a page has an anchor and a number, both links, and then its code. -/
def checkLine (line : List Char) : Except Fault Unit :=
  let parts := occurrences linkEnd 0 line + 1
  if parts < 3 then .error (.tooFewItems 3 parts)
  else if 3 < parts then .error (.tooManyItems 3)
  else .ok ()

/-- A part of a page: a line of code, or what stands around the lines. -/
structure PagePart where
  isLine : Bool
  text : String
deriving Repr, DecidableEq

def withBackLink (link text : String) : String :=
  "<a class=\"viewcode-back\" href=\"" ++ link ++ "\">[docs]</a>" ++ text

/-- Puts links in front of lines. `line` is the number of the line before the
parts. -/
def linkLines (links : LineLinks) (line : Nat) : List PagePart → Except Fault (List PagePart)
  | [] => .ok []
  | part :: rest =>
      if part.isLine then
        match links.get? (line + 1) with
        | some link => do
            checkLine part.text.toList
            return { part with text := withBackLink link part.text } ::
              (← linkLines links (line + 1) rest)
        | none => do return part :: (← linkLines links (line + 1) rest)
      else do return part :: (← linkLines links line rest)

def pageName (output : Path) (file : String) : Except Fault String := do
  return (← (← (Path.ofText file).relativeTo output).withSuffix "").text

structure Page where
  name : String
  title : String
  links : LineLinks
  template : String
deriving Repr

def pageTemplate : String := "page.html"

def pageOf (store : Store) (output : Path) (file : String) (links : LineLinks) :
    Except Fault Page := do
  let name ← pageName output file
  let path := Path.ofText file
  let shown ← pageLinks store path links
  return ⟨name, s!"Source Code Tracing: {path.name}", shown, pageTemplate⟩

end Tracemark.Build
