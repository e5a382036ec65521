import Tracemark.Value.Reached

/-!
# Members of values

Values have members that tell of their kind: what it is called, which kinds it is
based on, and what its values can do.
-/

set_option autoImplicit false

namespace Tracemark.Libraries

open Text.Template

inductive Kind where
  | text
  | nothing
  | anything
  | sort
  | sequence
  | ability
  | wrapper
  | boundAbility
  | boundWrapper
  | table
deriving Repr, DecidableEq

namespace Kind

def name : Kind → String
  | .text => "str"
  | .nothing => "NoneType"
  | .anything => "object"
  | .sort => "type"
  | .sequence => "tuple"
  | .ability => "method_descriptor"
  | .wrapper => "wrapper_descriptor"
  | .boundAbility => "builtin_function_or_method"
  | .boundWrapper => "method-wrapper"
  | .table => "mappingproxy"

def written (kind : Kind) : String :=
  "<class " ++ Text.quoted kind.name ++ ">"

/-- The kinds that a kind is based on. -/
def bases (kind : Kind) : List Kind :=
  if kind == .anything then [] else [.anything]

/-- A kind and those that it is based on, in the order in which members are looked
for. -/
def lineage (kind : Kind) : List Kind :=
  kind :: kind.bases

def documentation : Kind → Value
  | .text => .text ("str(object='') -> str\n" ++
      "str(bytes_or_buffer[, encoding[, errors]]) -> str\n\n" ++
      "Create a new string object from the given object. If encoding or\n" ++
      "errors is specified, then the object must expose a data buffer\n" ++
      "that will be decoded using the given encoding and error handler.\n" ++
      "Otherwise, returns the result of object.__str__() (if defined)\nor repr(object).\n" ++
      "encoding defaults to sys.getdefaultencoding().\nerrors defaults to 'strict'.")
  | .anything => .text ("The base class of the class hierarchy.\n\n" ++
      "When called, it accepts no arguments and returns a new featureless\n" ++
      "instance that has no instance attributes and cannot be given any.\n")
  | .sort => .text ("type(object) -> the object's type\n" ++
      "type(name, bases, dict, **kwds) -> a new type")
  | .sequence => .text ("Built-in immutable sequence.\n\n" ++
      "If no argument is given, the constructor returns an empty tuple.\n" ++
      "If iterable is specified the tuple is initialized from iterable's items.\n\n" ++
      "If the argument is a tuple, the return value is the same object.")
  | _ => .null

/-- What values of a kind can do beyond those of the kinds it is based on. -/
def abilities : Kind → List String
  | .text =>
      ["__format__", "__getnewargs__", "__sizeof__", "capitalize", "casefold", "center", "count",
        "encode", "endswith", "expandtabs", "find", "format", "format_map", "index", "isalnum",
        "isalpha", "isascii", "isdecimal", "isdigit", "isidentifier", "islower", "isnumeric",
        "isprintable", "isspace", "istitle", "isupper", "join", "ljust", "lower", "lstrip",
        "partition", "removeprefix", "removesuffix", "replace", "rfind", "rindex", "rjust",
        "rpartition", "rsplit", "rstrip", "split", "splitlines", "startswith", "strip", "swapcase",
        "title", "translate", "upper", "zfill"]
  | .anything =>
      ["__dir__", "__format__", "__getstate__", "__reduce__", "__reduce_ex__", "__sizeof__"]
  | _ => []

/-- The operators of a kind beyond those of the kinds it is based on. -/
def wrappers : Kind → List String
  | .text =>
      ["__add__", "__contains__", "__eq__", "__ge__", "__getattribute__", "__getitem__", "__gt__",
        "__hash__", "__iter__", "__le__", "__len__", "__lt__", "__mod__", "__mul__", "__ne__",
        "__repr__", "__rmod__", "__rmul__", "__str__"]
  | .nothing => ["__bool__", "__repr__"]
  | .anything =>
      ["__delattr__", "__eq__", "__ge__", "__getattribute__", "__gt__", "__hash__", "__init__",
        "__le__", "__lt__", "__ne__", "__repr__", "__setattr__", "__str__"]
  | _ => []

def owns (name : String) (kind : Kind) : Bool :=
  kind.abilities.contains name || kind.wrappers.contains name

def owner? (kind : Kind) (name : String) : Option Kind :=
  kind.lineage.find? (owns name)

end Kind

/-- A value, or what can be reached from one by its members. -/
inductive Part where
  | value (value : Value)
  | kind (kind : Kind)
  | kinds (kinds : List Kind)
  /-- A member of a kind. -/
  | member (owner : Kind) (name : String)
  /-- A member of a value. -/
  | bound (value : Value) (owner : Kind) (name : String)
  /-- The members of a kind, by name. -/
  | table (kind : Kind)
deriving Repr

namespace Part

def kindOf : Part → Kind
  | .value .null => .nothing
  | .value _ => .text
  | .kind _ => .sort
  | .kinds _ => .sequence
  | .member owner name => if owner.wrappers.contains name then .wrapper else .ability
  | .bound _ owner name => if owner.wrappers.contains name then .boundWrapper else .boundAbility
  | .table _ => .table

def memberWord (owner : Kind) (name : String) : String :=
  if owner.wrappers.contains name then "slot wrapper" else "method"

def written : Part → String
  | .value held => held.written
  | .kind single => single.written
  | .kinds [single] => "(" ++ single.written ++ ",)"
  | .kinds several => "(" ++ String.intercalate ", " (several.map Kind.written) ++ ")"
  | .member owner name =>
      "<" ++ memberWord owner name ++ " " ++ Text.quoted name ++ " of " ++ Text.quoted owner.name ++
        " objects>"
  | .bound _ owner name => "<" ++ memberWord owner name ++ " " ++ Text.quoted name ++ ">"
  | .table single => "<members of " ++ Text.quoted single.name ++ ">"

def ofText (characters : String) : Part :=
  .value (.text characters)

def trait? (kind : Kind) (name : String) : Option Part :=
  match name with
  | "__name__" => some (ofText kind.name)
  | "__qualname__" => some (ofText kind.name)
  | "__module__" => some (ofText "builtins")
  | "__doc__" => some (.value kind.documentation)
  | "__mro__" => some (.kinds kind.lineage)
  | "__bases__" => some (.kinds kind.bases)
  | "__dict__" => some (.table kind)
  | "__base__" => some ((kind.bases.head?.map Part.kind).getD (.value .null))
  | _ => none

def memberTrait? (owner : Kind) (own name : String) : Option Part :=
  match name with
  | "__name__" => some (ofText own)
  | "__qualname__" => some (ofText (owner.name ++ "." ++ own))
  | _ => none

def memberOf (reached : Part) (name : String) : Except Fault Part :=
  if name == "__class__" then .ok (.kind reached.kindOf)
  else
    let found : Option Part :=
      match reached with
      | .value held =>
          if name == "__doc__" then some (.value reached.kindOf.documentation)
          else (reached.kindOf.owner? name).map fun owner => .bound held owner name
      | .kind single =>
          match trait? single name with
          | some trait => some trait
          | none => (single.owner? name).map fun owner => .member owner name
      | .kinds _ | .table _ =>
          if name == "__doc__" then some (.value reached.kindOf.documentation) else none
      | .member owner own =>
          if name == "__objclass__" then some (.kind owner) else memberTrait? owner own name
      | .bound held owner own =>
          if name == "__self__" then some (.value held) else memberTrait? owner own name
    match found with
    | some part => .ok part
    | none => .error .noSuchMember

def entryOf (kind : Kind) (key : List Char) (index : Option Nat) : Except Fault Part :=
  let name := String.ofList key
  match index with
  | some number => .error (.missingKey (.int number))
  | none =>
      if name == "__doc__" then .ok (.value kind.documentation)
      else if kind.owns name then .ok (.member kind name)
      else .error (.missingKey (.text name))

/-- What an access leads to. A number that is too large is refused whatever it is
an index of. -/
def access (reached : Part) : Access → Except Fault Part
  | .member name => reached.memberOf (String.ofList name)
  | .item key =>
      match reached, readIndex key with
      | _, .error problem => .error (.badTemplate problem)
      | .value (.text characters), _ =>
          (itemAt characters.toList "str" key).map fun c => ofText (String.singleton c)
      | .kinds several, _ => (itemAt several "tuple" key).map .kind
      | .table single, .ok index => entryOf single key index
      | other, _ => .error (.mismatch (.notIndexable other.kindOf.name))

/-- Only texts can be laid out. -/
def toReached : Part → Reached
  | .value held => .ofValue held
  | part =>
      { shown := part.written
        written := part.written
        laidOut specification :=
          if specification.isEmpty then .ok part.written.toList else .error (.mismatch .unfit) }

end Part

def followMember (value : Value) (name : String) (path : List Access) : Except Fault Reached := do
  let part ← (Part.value value).memberOf name
  return (← path.foldlM Part.access part).toReached

end Tracemark.Libraries
