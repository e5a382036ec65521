import Tracemark.Fault

/-!
# Languages

The languages whose comments are read, with the suffixes of their files and the
node types of their syntax trees that form a scope. The two data languages have
no scopes; their comments belong to parts of the data.
-/

set_option autoImplicit false

namespace Tracemark

inductive Language where
  | python
  | cpp
  | cs
  | yaml
  | rust
  | go
  | jsonc
deriving Repr, DecidableEq

namespace Language

def all : List Language :=
  [.cpp, .cs, .go, .jsonc, .python, .rust, .yaml]

def name : Language → String
  | .python => "python"
  | .cpp => "cpp"
  | .cs => "cs"
  | .yaml => "yaml"
  | .rust => "rust"
  | .go => "go"
  | .jsonc => "jsonc"

def ofName? (name : String) : Option Language :=
  all.find? fun language => language.name == name

def ofSetting? : Value → Option Language
  | .text name => ofName? name
  | _ => none

/-- The suffixes of a language's files, in lower case. -/
def suffixes : Language → List String
  | .cpp => [".c", ".cc", ".ci", ".cpp", ".cxx", ".h", ".hh", ".hpp", ".hxx", ".ihl"]
  | .python => [".py"]
  | .cs => [".cs"]
  | .yaml => [".yaml", ".yml"]
  | .rust => [".rs"]
  | .go => [".go"]
  | .jsonc => [".json", ".jsonc"]

/-- The node types that form a scope. Data languages have none of their own. -/
def scopeTypes : Language → List String
  | .python => ["function_definition", "class_definition"]
  | .cpp => ["function_definition", "class_definition"]
  | .cs => ["method_declaration", "class_declaration", "property_declaration"]
  | .rust => ["function_item", "struct_item", "enum_item", "impl_item", "trait_item", "mod_item"]
  | .go => ["function_declaration", "method_declaration", "type_declaration", "type_spec"]
  | .yaml => ["function_definition", "class_definition"]
  | .jsonc => ["function_definition", "class_definition"]

/-- The language that settings name, where no other language can be parsed. -/
def ofSetting (value : Value) : Except Fault Language :=
  match ofSetting? value with
  | some language => .ok language
  | none => .error (.unknownLanguage value)

/-- The language that settings name, where the name is looked up in a table. -/
def lookUp (value : Value) : Except Fault Language :=
  match ofSetting? value with
  | some language => .ok language
  | none =>
      if value.isScalar then .error (.missingKey value)
      else .error (.mismatch (.notHashable value.kindName))

end Language

end Tracemark
