import Tracemark.Git.Remote
import Tracemark.Text.Pattern

/-!
# Forms of addresses

The hosts of repositories, told by the form of a remote's address. Each host has
some forms; the first form that fits, and whose domain the host accepts, decides.
-/

set_option autoImplicit false

namespace Tracemark.Git

inductive Domains where
  | only (domains : List String)
  | except (domains : List String)
deriving Repr, DecidableEq

structure Host where
  name : HostName
  domains : Domains
  forms : List Text.Pattern
deriving Repr

namespace Domains

/-- Does the host accept the domain? Case matters. -/
def accepts : Domains → String → Bool
  | .only domains, domain => domains.contains domain
  | .except domains, domain => !domains.contains domain

end Domains

open Text.Pattern

/-- One or more characters of a class, as few as possible. -/
def few (class_ : Text.CharClass) : Text.Pattern := .many class_ 1 false

/-- One or more characters of a class, as many as possible. -/
def most (class_ : Text.CharClass) : Text.Pattern := .many class_ 1 true

def webStart : List Text.Pattern := [.optional (word "git+"), word "https://"]

def shellStart : List Text.Pattern :=
  [.optional (.sequence (.optional (word "git+")) (word "ssh")), .optional (word "://"), word "git@"]

def domain (class_ : Text.CharClass) : Text.Pattern := .capture "domain" (few class_)

/-- The suffix of a repository, if there is one, and a place in it. -/
def placeIn (tree : String) : List Text.Pattern :=
  [.optional (.sequence (.either (word "/blob/") (word tree)) (most .any)), .ending]

/-- The groups between an owner and a repository, which may be missing. -/
def groupsAndRepository : List Text.Pattern :=
  [.optional (.capture "groups" (.many .any 0 false)),
    .optional (.ifCaptured "groups" (word "/")),
    .capture "repository" (few .notSlash), .optional (word ".git")] ++ placeIn "/-/tree/"

/-- Any character before the letters `git` at the end of a repository's name. -/
def looseSuffix : List Text.Pattern := [.one .any, word "git"]

/-- The domains of the first host, which no other host takes. -/
def githubDomains : List String := ["github.com", "gist.github.com"]

def hosts : List Host :=
  [{ name := .github
     domains := .only githubDomains
     forms := [
       all (webStart ++ [domain .notSlash, word "/", .capture "owner" (few .notSlash), word "/",
         .capture "repository" (few .notSlash), .optional (word ".git")] ++ placeIn "/tree/"),
       all (shellStart ++ [domain .any, .either (word ":") (word "/"),
         .capture "owner" (most .notSlash), word "/", .capture "repository" (few .notSlash),
         word ".git"] ++ placeIn "/tree/"),
       all ([word "git://", domain .any, word "/", .capture "owner" (most .notSlash), word "/",
         .capture "repository" (few .notSlash), .optional (word ".git")] ++ placeIn "/tree/")] },
   { name := .bitbucket
     domains := .only ["bitbucket.org"]
     forms := [
       all (webStart ++ [most .any, word "@", domain .any, word "/", .capture "owner" (most .any),
         word "/", .capture "repository" (few .any), .optional (word ".git"), .ending]),
       all (shellStart ++ [domain .any, word ":", .capture "owner" (most .any), word "/",
         .capture "repository" (few .any), .optional (word ".git"), .ending])] },
   { name := .friendcode
     domains := .only ["friendco.de"]
     forms := [
       all (webStart ++ [domain .any, word "/", .capture "owner" (most .any), word "@user/",
         .capture "repository" (most .any)] ++ looseSuffix)] },
   { name := .assembla
     domains := .only ["git.assembla.com"]
     forms := [
       all (shellStart ++ [domain .any, word ":", .capture "repository" (most .any)] ++ looseSuffix),
       all ([word "git://", domain .any, word "/", .capture "repository" (most .any)] ++
         looseSuffix)] },
   { name := .gitlab
     domains := .except githubDomains
     forms := [
       all (webStart ++ [domain .any, .optional (.sequence (word ":") (most .digit)), word "/",
         .capture "owner" (few .notSlash), word "/"] ++ groupsAndRepository),
       all (shellStart ++ [domain .any, word ":", .optional (most .digit), .optional (word "/"),
         .capture "owner" (most .notSlash), word "/"] ++ groupsAndRepository),
       all ([word "git://", domain .any, word ":", .optional (most .digit), .optional (word "/"),
         .capture "owner" (most .notSlash), word "/"] ++ groupsAndRepository)] },
   { name := .generic
     domains := .except githubDomains
     forms := [
       all ([most .any, word "@", domain .notSlash, word ":", .capture "repository" (most .any)] ++
         looseSuffix),
       all ([word "http://", domain .notSlash, word "/", .capture "repository" (most .any)] ++
         looseSuffix),
       all ([word "https://", domain .notSlash, word "/", .capture "repository" (most .any)] ++
         looseSuffix),
       all ([word "git://", domain .notSlash, word "/", .capture "repository" (most .any)] ++
         looseSuffix)] }]

def Host.remoteBy? (host : Host) (form : Text.Pattern) (address : List Char) : Option Remote := do
  let captures ← form.match? address
  let found ← captures.get? "domain"
  if host.domains.accepts (String.ofList found) then
    return ⟨host.name, (captures.get? "owner").getD [], (captures.get? "repository").getD []⟩
  else none

def remote? (address : List Char) : Option Remote :=
  hosts.findSome? fun host => host.forms.findSome? fun form => host.remoteBy? form address

end Tracemark.Git
