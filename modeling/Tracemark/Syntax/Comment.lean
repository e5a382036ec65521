import Tracemark.Language
import Tracemark.Syntax.Tree

/-!
# Comments of a syntax tree

Which nodes of a tree are comments. In Python a text that stands alone as the
statement of a module, a function or a class counts as one.
-/

set_option autoImplicit false

namespace Tracemark.Syntax

def commentTypes : Language → List String
  | .rust => ["line_comment", "block_comment"]
  | _ => ["comment"]

def statementType : String := "expression_statement"

namespace Cursor

/-- Does the statement stand directly in a module, a function or a class? -/
def isDocumented (cursor : Cursor) : Bool :=
  match cursor.above with
  | [] => false
  | parent :: rest =>
      parent.type == "module" ||
        (parent.type == "block" &&
          match rest with
          | [] => false
          | grandparent :: _ =>
              grandparent.type == "function_definition" || grandparent.type == "class_definition")

def isDocText (cursor : Cursor) : Bool :=
  cursor.node.type == statementType &&
    cursor.node.children.any (fun child => child.type == "string") && cursor.isDocumented

def isComment (language : Language) (cursor : Cursor) : Bool :=
  (commentTypes language).contains cursor.node.type ||
    (language == .python && cursor.isDocText)

end Cursor

/-- The comments of a tree, in preorder. -/
def comments (language : Language) (root : Node) : List Cursor :=
  (cursors root).filter (Cursor.isComment language)

end Tracemark.Syntax
