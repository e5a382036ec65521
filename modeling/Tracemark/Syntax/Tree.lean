import Tracemark.Text.Utf8

/-!
# Syntax trees

A parser gives the shape of a tree: types and byte offsets. With the content of
the file a shape becomes a tree whose nodes know their number in preorder, their
rows and their text. A cursor is a node together with its neighbours and the
nodes above it.
-/

set_option autoImplicit false

namespace Tracemark.Syntax

/-- The shape of a tree, with byte offsets into a file. -/
inductive Shape where
  | mk (type : String) (start stop : Nat) (children : List Shape)
deriving Repr, Inhabited

structure NodeData where
  number : Nat
  type : String
  startRow : Nat
  endRow : Nat
  text : Bytes
deriving Repr, DecidableEq

inductive Node where
  | mk (data : NodeData) (children : List Node)
deriving Repr

namespace Node

def data : Node → NodeData
  | .mk data _ => data

def children : Node → List Node
  | .mk _ children => children

def type (node : Node) : String :=
  node.data.type

end Node

def rowAt (content : Bytes) (offset : Nat) : Nat :=
  (content.take offset).count 0x0A

def bytesBetween (content : Bytes) (start stop : Nat) : Bytes :=
  (content.take stop).drop start

mutual

/-- The tree of a shape over a content, its nodes numbered from the given number
on, and the next number. -/
def annotate (content : Bytes) (number : Nat) : Shape → Node × Nat
  | .mk type start stop children =>
      let data : NodeData :=
        ⟨number, type, rowAt content start, rowAt content stop, bytesBetween content start stop⟩
      let (nodes, next) := annotateAll content (number + 1) children
      (.mk data nodes, next)

def annotateAll (content : Bytes) (number : Nat) : List Shape → List Node × Nat
  | [] => ([], number)
  | shape :: rest =>
      let (node, next) := annotate content number shape
      let (nodes, last) := annotateAll content next rest
      (node :: nodes, last)

end

def treeOf (content : Bytes) (shape : Shape) : Node :=
  (annotate content 0 shape).1

/-- A node, its siblings before it with the nearest first, its siblings after it,
and the nodes above it with the nearest first. -/
structure Cursor where
  node : Node
  before : List Node
  after : List Node
  above : List Node
deriving Repr

mutual

def cursorsAt (before after above : List Node) : Node → List Cursor
  | .mk data children =>
      ⟨.mk data children, before, after, above⟩ ::
        cursorsAmong (.mk data children :: above) [] children

/-- The cursors on siblings and the nodes below them. -/
def cursorsAmong (above before : List Node) : List Node → List Cursor
  | [] => []
  | node :: rest =>
      cursorsAt before rest above node ++ cursorsAmong above (node :: before) rest

end

def cursors (root : Node) : List Cursor :=
  cursorsAt [] [] [] root

end Tracemark.Syntax
