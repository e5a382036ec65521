import Tracemark.Path

/-!
# Files

A store holds directories and the contents of files, by absolute path. Looking a
path up follows its components one by one, so that a component that is passed
through has to be an existing directory, also in front of two dots.
-/

set_option autoImplicit false

namespace Tracemark

inductive Entry where
  | directory
  | file (content : Bytes)
deriving Repr, DecidableEq

/-- Directories and files by the components of their absolute paths, with the
directory in which relative paths start. The top directory always exists. -/
structure Store where
  working : Path
  entries : List (List String × Entry)
deriving Repr

namespace Store

def entry? (store : Store) (parts : List String) : Option Entry :=
  if parts.isEmpty then some .directory
  else (store.entries.find? fun entry => entry.1 == parts).map (·.2)

/-- The longest name of a file, in bytes. -/
def nameLimit : Nat := 255

/-- The length in bytes from which on a written path is too long. -/
def pathLimit : Nat := 4096

/-- The place that components lead to from a directory. It need not exist itself,
but all that is passed on the way does, and no name on the way may be too long. -/
def follow (store : Store) (place : List String) : List String → Except Fault (List String)
  | [] => .ok place
  | part :: rest =>
      match store.entry? place with
      | some .directory =>
          if nameLimit < part.utf8ByteSize then .error .nameTooLong
          else follow store (if part == ".." then place.dropLast else place ++ [part]) rest
      | some (.file _) => .error .notDirectory
      | none => .error .missingFile

def locate (store : Store) (path : Path) : Except Fault (List String) :=
  if path.holdsNull then .error .nullCharacter
  else if pathLimit ≤ path.text.utf8ByteSize then .error .nameTooLong
  else store.follow [] (store.working.join path).parts

/-- What stands at a path, if anything does. A path that cannot exist has nothing,
except that a name which is too long is a fault. -/
def find? (store : Store) (path : Path) : Except Fault (Option Entry) :=
  match store.locate path with
  | .ok place => .ok (store.entry? place)
  | .error .nameTooLong => .error .nameTooLong
  | .error _ => .ok none

def contains (store : Store) (path : Path) : Except Fault Bool := do
  return (← store.find? path).isSome

def isDirectory (store : Store) (path : Path) : Except Fault Bool := do
  return (← store.find? path) == some .directory

def isFile (store : Store) (path : Path) : Except Fault Bool := do
  match ← store.find? path with
  | some (.file _) => return true
  | _ => return false

def read (store : Store) (path : Path) : Except Fault Bytes := do
  match store.entry? (← store.locate path) with
  | some (.file content) => return content
  | some .directory => throw .isDirectory
  | none => throw .missingFile

def readText (store : Store) (path : Path) : Except Fault (List Char) := do
  match Utf8.decode (← store.read path) with
  | .ok text => return text
  | .error cause => throw (.undecodable cause)

/-- Puts an entry at a place: one that exists is replaced where it stands, a new
one comes last. -/
def putEntry (place : List String) (entry : Entry) :
    List (List String × Entry) → List (List String × Entry)
  | [] => [(place, entry)]
  | current :: rest =>
      if current.1 == place then (place, entry) :: rest
      else current :: putEntry place entry rest

def put (store : Store) (place : List String) (entry : Entry) : Store :=
  { store with entries := putEntry place entry store.entries }

/-- Writes a file; its directory has to exist. -/
def write (store : Store) (path : Path) (content : Bytes) : Except Fault Store := do
  let place ← store.locate path
  match store.entry? place with
  | some .directory => throw .isDirectory
  | _ =>
      match store.entry? place.dropLast with
      | some .directory => return store.put place (.file content)
      | some (.file _) => throw .notDirectory
      | none => throw .missingFile

/-- Makes a directory in one that exists. -/
def makeDirectory (store : Store) (path : Path) : Except Fault Store := do
  let place ← store.locate path
  match store.entry? place, store.entry? place.dropLast with
  | some _, _ => throw .alreadyExists
  | none, some .directory => return store.put place .directory
  | none, some (.file _) => throw .notDirectory
  | none, none => throw .missingFile

/-- A directory that could not be made is no fault if it may exist, and does. -/
def unlessDirectory (store : Store) (path : Path) (mayExist : Bool) (fault : Fault) :
    Store × Option Fault :=
  match fault with
  | .nullCharacter => (store, some fault)
  | _ =>
      match store.isDirectory path with
      | .error other => (store, if mayExist then some other else some fault)
      | .ok isDirectory => (store, if mayExist && isDirectory then none else some fault)

/-- Makes a directory, given by an anchor and its components from the last to the
first. Where a directory above it is missing, that one is made first, and stays
also if the directory itself cannot be made. -/
def makeAbove (store : Store) (anchor : Anchor) (mayExist : Bool) : List String → Store × Option Fault
  | [] =>
      match store.makeDirectory ⟨anchor, []⟩ with
      | .ok made => (made, none)
      | .error fault => store.unlessDirectory ⟨anchor, []⟩ mayExist fault
  | part :: above =>
      let path : Path := ⟨anchor, (part :: above).reverse⟩
      match store.makeDirectory path with
      | .ok made => (made, none)
      | .error .missingFile =>
          match store.makeAbove anchor true above with
          | (prepared, some fault) => (prepared, some fault)
          | (prepared, none) =>
              match prepared.makeDirectory path with
              | .ok made => (made, none)
              | .error .missingFile => (prepared, some .missingFile)
              | .error fault => prepared.unlessDirectory path mayExist fault
      | .error fault => store.unlessDirectory path mayExist fault

/-- Makes a directory and those above it that are missing. Only if `mayExist` holds
it may exist before. -/
def makeDirectories (store : Store) (path : Path) (mayExist : Bool) : Store × Option Fault :=
  store.makeAbove path.anchor mayExist path.parts.reverse

def remove (store : Store) (path : Path) : Except Fault Store := do
  let place ← store.locate path
  match store.entry? place with
  | some (.file _) => return { store with entries := store.entries.filter fun entry => entry.1 != place }
  | some .directory => throw .isDirectory
  | none => throw .missingFile

def changedSince (store earlier : Store) : List (List String × Bytes) :=
  store.entries.filterMap fun (place, entry) =>
    match entry with
    | .directory => none
    | .file content =>
        if earlier.entry? place == some (.file content) then none else some (place, content)

/-- The files of an earlier store that no longer exist. -/
def missingSince (store earlier : Store) : List (List String) :=
  earlier.entries.filterMap fun (place, entry) =>
    match entry, store.entry? place with
    | .file _, some (.file _) => none
    | .file _, _ => some place
    | .directory, _ => none

end Store

end Tracemark
