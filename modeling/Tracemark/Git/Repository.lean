import Tracemark.Git.Ini
import Tracemark.Session
import Tracemark.Text.Lines

/-!
# Repositories

The repository that a directory belongs to, the address of its remote and its
current revision, as they are found in the files of the repository.
-/

set_option autoImplicit false

namespace Tracemark.Git

def ownDirectory (root : Path) : Path :=
  root.child ".git"

/-- The directories in which a repository is looked for: those above the directory,
the nearest first, and last the directory itself. -/
def rootCandidates (directory : Path) : List Path :=
  directory.parents ++ [directory]

def firstRoot? (store : Store) : List Path → Except Fault (Option Path)
  | [] => .ok none
  | candidate :: rest => do
      if ← store.isDirectory (ownDirectory candidate) then return some candidate
      else firstRoot? store rest

def findRoot? (store : Store) (directory : Path) : Except Fault (Option Path) := do
  firstRoot? store (rootCandidates (← directory.resolve store.working))

def locateRoot (directory : Path) : Action (Option Path) := do
  match ← Action.ofExcept (findRoot? (← Action.store) directory) with
  | some root => return some root
  | none =>
      let shown := directory.text
      Action.note
        (.warning s!"git root is not found in the parent of {shown}" "git_root" (some shown))
      return none

def readUnified (store : Store) (path : Path) : Except Fault (List Char) :=
  (store.readText path).map Text.unifyNewlines

/-- The sections of a settings file; one that cannot be opened has none. -/
def readSections (store : Store) (path : Path) : Except Fault Ini.Sections :=
  match readUnified store path with
  | .ok text => Ini.read path.text text
  | .error (.undecodable cause) => .error (.undecodable cause)
  | .error .nullCharacter => .error .nullCharacter
  | .error _ => .ok []

def noteMissing (path : Path) (subtype : String) : Action Unit :=
  Action.note (.warning s!"{path.text} does not exist" subtype (some path.text))

/-- The address of a remote. An address without a value is nothing. -/
def remoteAddress (root : Path) (name : String) : Action (Option String) := do
  let store ← Action.store
  let path := (ownDirectory root).child "config"
  if ← Action.ofExcept (store.contains path) then
    let sections ← Action.ofExcept (readSections store path)
    let found ← Action.ofExcept (Ini.value? sections s!"remote \"{name}\"" "url")
    match found with
    | some address => return address.map String.ofList
    | none =>
        Action.note
          (.warning s!"remote-url is not found in {path.text}" "git_remote" (some path.text))
        return none
  else
    noteMissing path "git_config"
    return none

/-- What the head of a repository refers to: a revision, or a file that holds it. -/
inductive Head where
  | revision (text : List Char)
  | reference (path : List Char)
deriving Repr, DecidableEq

def readHead (content : List Char) : Head :=
  let text := Text.trim content
  if "ref: ".toList.isPrefixOf text then
    match Text.cut? ':' text with
    | some (_, path) => .reference (Text.trim path)
    | none => .revision text
  else .revision text

def currentRevision (root : Path) : Action (Option String) := do
  let store ← Action.store
  let headPath := (ownDirectory root).child "HEAD"
  if ← Action.ofExcept (store.contains headPath) then
    match readHead (← Action.ofExcept (readUnified store headPath)) with
    | .revision text => return some (String.ofList text)
    | .reference path =>
        let referencePath := (ownDirectory root).child (String.ofList path)
        if ← Action.ofExcept (store.contains referencePath) then
          let content ← Action.ofExcept (readUnified store referencePath)
          return some (String.ofList (Text.trim content))
        else
          noteMissing referencePath "git_ref"
          return none
  else
    noteMissing headPath "git_head"
    return none

end Tracemark.Git
