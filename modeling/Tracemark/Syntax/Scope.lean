import Tracemark.Syntax.Comment

/-!
# What a comment belongs to

In a programming language a comment belongs to the next scope after it, or else
to the scope around it. In a data language it belongs to what ends on its row, or
else to the next part of the data, or else to the part around it.
-/

set_option autoImplicit false

namespace Tracemark.Syntax

def isScope (language : Language) (node : Node) : Bool :=
  language.scopeTypes.contains node.type

/-- The scope that a sibling gives: a block gives its first scope. -/
def scopeIn (language : Language) (sibling : Node) : Option Node :=
  match (if sibling.type == "block" then sibling.children.find? (isScope language) else none) with
  | some scope => some scope
  | none => if isScope language sibling then some sibling else none

def jsonTypes : List String :=
  ["pair", "object", "array", "string", "number", "true", "false", "null"]

/-- The types of the parts of YAML that stand for themselves. -/
def yamlTypes : List String :=
  ["block_mapping_pair", "block_sequence_item", "flow_mapping", "flow_sequence"]

/-- The first pair of a mapping or item of a sequence in a block of YAML. -/
def inYamlBlock (block : Node) : Option Node :=
  block.children.findSome? fun child =>
    if child.type == "block_mapping" then
      child.children.find? fun part => part.type == "block_mapping_pair"
    else if child.type == "block_sequence" then
      child.children.find? fun part => part.type == "block_sequence_item"
    else none

def yamlPart (sibling : Node) : Option Node :=
  if yamlTypes.contains sibling.type then some sibling
  else if sibling.type == "document" then
    sibling.children.findSome? fun child =>
      if child.type == "block_node" then inYamlBlock child else none
  else if sibling.type == "block_node" then inYamlBlock sibling
  else none

/-- Of nodes from the nearest on, the one that ends on the row; nodes after one
that ends before the row are not looked at. -/
def endingOn (row : Nat) : List Node → Option Node
  | [] => none
  | node :: rest =>
      if node.data.endRow == row then some node
      else if node.data.endRow < row then none
      else endingOn row rest

namespace Cursor

def enclosingScope (language : Language) (cursor : Cursor) : Option Node :=
  (cursor.node :: cursor.above).find? (isScope language)

/-- The first scope that a node itself or the siblings after it give. -/
def nextScope (language : Language) (cursor : Cursor) : Option Node :=
  if isScope language cursor.node then some cursor.node
  else cursor.after.findSome? (scopeIn language)

/-- The nearest sibling before a node that ends on the row where the node starts. -/
def sameRow (cursor : Cursor) : Option Node :=
  endingOn cursor.node.data.startRow cursor.before

def nextYamlPart (cursor : Cursor) : Option Node :=
  cursor.after.findSome? yamlPart

def yamlScope (cursor : Cursor) : Option Node :=
  cursor.sameRow.or (cursor.nextYamlPart.or
    (cursor.above.find? fun node =>
      node.type == "block_mapping_pair" || node.type == "block_sequence_item"))

def jsonScope (cursor : Cursor) : Option Node :=
  cursor.sameRow.or ((cursor.after.find? fun node => jsonTypes.contains node.type).or
    (cursor.above.find? fun node =>
      node.type == "pair" || node.type == "object" || node.type == "array"))

def scope (language : Language) (cursor : Cursor) : Option Node :=
  match language with
  | .yaml => cursor.yamlScope
  | .jsonc => cursor.jsonScope
  | _ =>
      if cursor.node.type == statementType then cursor.enclosingScope language
      else (cursor.nextScope language).or (cursor.enclosingScope language)

end Cursor

end Tracemark.Syntax
