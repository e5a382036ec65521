/-!
# Remotes

A remote is a repository on a host.
-/

set_option autoImplicit false

namespace Tracemark.Git

/-- The hosts of repositories. `generic` stands for addresses that have a known
form but no known host. -/
inductive HostName where
  | github
  | bitbucket
  | friendcode
  | assembla
  | gitlab
  | generic
deriving Repr, DecidableEq

/-- A remote: its host, the owner of the repository and the repository's name. -/
structure Remote where
  host : HostName
  owner : List Char
  repository : List Char
deriving Repr, DecidableEq

namespace HostName

def text : HostName → String
  | .github => "github"
  | .bitbucket => "bitbucket"
  | .friendcode => "friendcode"
  | .assembla => "assembla"
  | .gitlab => "gitlab"
  | .generic => "base"

end HostName

end Tracemark.Git
