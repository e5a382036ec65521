import Tracemark.Syntax.Comment

/-!
# Parsers

A parser makes a tree of a content in a language, and captures the comments of the tree. The tree
settles which comments are captured, but not in which order.
-/

set_option autoImplicit false

namespace Tracemark.Syntax

structure Parser where
  shape : Language → Bytes → Shape
  captures : Language → Bytes → List Cursor
  captured : ∀ language content,
    (captures language content).Perm (comments language (treeOf content (shape language content)))

namespace Parser

/-- The parser that captures comments as they are met on the way through the tree. -/
def inPreorder (shape : Language → Bytes → Shape) : Parser where
  shape := shape
  captures language content := comments language (treeOf content (shape language content))
  captured _ _ := .refl _

/-- The parser that knows the trees of some contents, whatever the language. Another content has a
root without children. -/
def knowing (shapes : List (Bytes × Shape)) : Parser :=
  .inPreorder fun _ content =>
    match shapes.find? fun entry => entry.1 == content with
    | some entry => entry.2
    | none => .mk "" 0 content.length []

/-- Both parsers capture the comments of equal contents in the same order. -/
def CapturesAlike (left right : Parser) : Prop :=
  ∀ language content, left.captures language content = right.captures language content

end Parser

end Tracemark.Syntax
