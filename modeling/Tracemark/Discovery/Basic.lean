import Tracemark.Discovery.Content
import Tracemark.Discovery.Settings
import Tracemark.Store
import Tracemark.Text.Case

/-!
# Discovery of source files

A walk below a directory yields entries; those that are files of the language are
kept, in the order of their paths. The walk itself, with its ignore rules and
glob patterns, is asked for by requests, and a listing answers it.
-/

set_option autoImplicit false

namespace Tracemark.Discovery

/-- A request to the walk: what is set, and to which value. -/
structure WalkRequest where
  name : String
  argument : Value
deriving Repr

/-- The glob patterns of a walk: those taken in, then those left out, each after an
exclamation mark. -/
def patterns (settings : Settings) : Except Fault (List Value) := do
  let included ← if settings.included.truthy then settings.included.items else .ok []
  let excluded ← if settings.excluded.truthy then settings.excluded.items else .ok []
  return included ++ excluded.map fun pattern => .text s!"!{pattern.shown}"

def baseRequests (settings : Settings) (directory : Path) : List WalkRequest :=
  [⟨"walk", .text directory.text⟩, ⟨"ignore", settings.gitignore⟩,
    ⟨"parents", settings.gitignore⟩, ⟨"git_ignore", settings.gitignore⟩,
    ⟨"git_global", settings.gitignore⟩, ⟨"git_exclude", settings.gitignore⟩,
    ⟨"hidden", .bool false⟩, ⟨"follow_links", settings.followLinks⟩]

/-- The entries that walks below directories yield, in the order in which they come. What is
left out of a walk, and what is ignored, is up to the requests. -/
structure Listing where
  walk : Store → Path → List WalkRequest → List Path

/-- Does a data file begin with a comment? A file that cannot be read does not. -/
def opensWithComment (store : Store) (path : Path) : Bool :=
  match store.read path with
  | .ok content => beginsWithComment (content.take commentSampleSize)
  | .error _ => false

/-- Is an entry a source file of the language? A plain data file has to begin with
a comment. -/
def accepts (store : Store) (language : Language) (path : Path) : Except Fault Bool := do
  let suffix := Text.lower path.suffix
  return (← store.isFile path) && language.suffixes.contains suffix &&
    !(language == .jsonc && suffix == ".json" && !opensWithComment store path)

def sortByText (paths : List Path) : List Path :=
  paths.mergeSort fun left right => decide (left.text ≤ right.text)

def select (store : Store) (language : Language) (entries : List Path) :
    Except Fault (List Path) := do
  let accepted ← entries.filterM (accepts store language)
  return sortByText (accepted.map fun path => path.collapsed store.working)

structure Found where
  suffixes : List String
  paths : List Path
deriving Repr

def walkRequests (settings : Settings) (directory : Path) (globs : List Value) : List WalkRequest :=
  let overridden := settings.included.truthy || settings.excluded.truthy
  baseRequests settings directory ++ if overridden then [⟨"overrides", .list globs⟩] else []

/-- Discovers source files. The requests to the walk are returned also when the
discovery fails. -/
def run (store : Store) (listing : Listing) (settings : Settings) :
    List WalkRequest × Except Fault Found :=
  match Language.lookUp settings.language with
  | .error fault => ([], .error fault)
  | .ok language =>
      match settings.directory.asPath with
      | .error fault => ([], .error fault)
      | .ok directory =>
          match store.isDirectory directory with
          | .error fault => ([], .error fault)
          | .ok false => ([], .ok ⟨language.suffixes, []⟩)
          | .ok true =>
              match patterns settings with
              | .error fault => (baseRequests settings directory, .error fault)
              | .ok globs =>
                  let requests := walkRequests settings directory globs
                  let found := select store language (listing.walk store directory requests)
                  (requests, found.map fun paths => ⟨language.suffixes, paths⟩)

end Tracemark.Discovery
