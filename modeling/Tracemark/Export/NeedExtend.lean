import Tracemark.Export.StoredEntry

/-!
# Extending needs by links

From stored references directives are written that give each need the links to
the places that refer to it. Either all references are sound and every need with
a link gets its directive, or nothing is written and the report says why.
-/

set_option autoImplicit false

namespace Tracemark.Export

/-- The references among stored objects. Each object is asked for its type. -/
def referencesOf (objects : List Value) : Except Fault (List Value) := do
  let types ← objects.mapM fun object => object.index "type"
  return ((objects.zip types).filter fun entry => entry.2.same (.text referenceType)).map (·.1)

/-- The report on one reference, under a headline that shows it. -/
def reportOn [Libraries] (object : Value) : List String :=
  match object with
  | .object members =>
      match StoredEntry.ofMembers members with
      | .error cause => [cause.message]
      | .ok entry =>
          let lines := entry.checkSchema ++ entry.checkRequired
          if lines.isEmpty then [] else s!"{object.written} has the following errors:" :: lines
  | _ => []

/-- Links by need, in the order in which needs first occur. -/
abbrev Links := List (String × List String)

/-- Adds a link to a need; an empty link only makes the need known. -/
def addLink (id link : String) : Links → Links
  | [] => [(id, if link.isEmpty then [] else [link])]
  | entry :: rest =>
      if entry.1 == id then
        (id, if link.isEmpty then entry.2 else entry.2 ++ [link]) :: rest
      else entry :: addLink id link rest

def textsAmong (values : List Value) : List String :=
  values.filterMap fun value =>
    match value with
    | .text characters => some characters
    | _ => none

def linkOf (object : Value) : List String × String :=
  match object with
  | .object members =>
      let ids :=
        match Members.get? members "need_ids" with
        | some (.list items) => textsAmong items
        | _ => []
      let link :=
        match Members.get? members "remote_url" with
        | some (.text characters) => characters
        | _ => ""
      (ids, link)
  | _ => ([], "")

def linksOf (objects : List Value) : Links :=
  objects.foldl (fun links object =>
    let (ids, link) := linkOf object
    ids.foldl (fun current id => addLink id link current) links) []

def directive (urlField : String) (id : String) (links : List String) : String :=
  let joined := String.intercalate "," links
  s!".. needextend:: {id}\n   :{urlField}: {joined}\n\n"

def headline (title : String) : String :=
  let underline := String.ofList (List.replicate title.length '=')
  s!"{title}\n{underline}\n\n"

/-- What is written and what is reported; one of both is empty. -/
structure Written where
  texts : List String
  report : List String
deriving Repr

def needExtend [Libraries] (urlField : String) (title : Option String) (objects : List Value) :
    Except Fault Written := do
  let references ← referencesOf objects
  let report := references.flatMap reportOn
  if report.isEmpty then
    let heading :=
      match title with
      | some text => if text.isEmpty then [] else [headline text]
      | none => []
    let directives := (linksOf references).filterMap fun (id, links) =>
      if links.isEmpty then none else some (directive urlField id links)
    return ⟨heading ++ directives, []⟩
  else return ⟨[], Report.arrange report⟩

end Tracemark.Export
