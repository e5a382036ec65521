import Tracemark.Libraries
import Tracemark.Log.Record
import Tracemark.Path
import Tracemark.Url.Percent

/-!
# Links to lines of files on the web

A file of a repository whose remote is on a known host has a page there, and a
line of the file is a place on that page.
-/

set_option autoImplicit false

namespace Tracemark.Git

def linkBase? (remote : Remote) (revision : String) : Option String :=
  let owner := String.ofList remote.owner
  let repository := String.ofList remote.repository
  match remote.host with
  | .github => some s!"https://github.com/{owner}/{repository}/blob/{revision}/"
  | .gitlab => some s!"https://gitlab.com/{owner}/{repository}/-/blob/{revision}/"
  | _ => none

/-- The link to a line of a file, given the part before the path, the path of the
file in its repository and the number of the line as it is written. -/
def linkTo (base : String) (path : List Char) (line : String) : String :=
  let file := String.ofList (Url.Percent.encode path)
  s!"{base}{file}#L{line}"

def unsupported (host : String) : Log.Record :=
  .warning s!"Unsupported Git host: {host}" "git_host" none

/-- The link to a line of a file in a project, with the warnings on the way. Without
a known host the address of the remote takes its place. -/
def webLink [Libraries] (working : Path) (address revision : String) (project file : Path)
    (line : String) : List Log.Record × Except Fault String :=
  match Libraries.remote? address.toList with
  | none => ([unsupported "None"], .ok address)
  | some remote =>
      match remote.host, linkBase? remote revision with
      | .generic, _ => ([], .error (.missingKey (.text "protocols")))
      | _, some base =>
          ([], ((file.absolute working).relativeTo project).map fun relative =>
            linkTo base relative.text.toList line)
      | host, none => ([unsupported host.text], .ok address)

end Tracemark.Git
