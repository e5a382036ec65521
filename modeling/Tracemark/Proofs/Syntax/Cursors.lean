import Tracemark.Syntax.Comment

/-!
# Where cursors stand

A cursor stands in a tree when what it keeps around its node is what the tree has
around that node. The cursors of a tree are exactly those that stand in it, so the
comments of a tree are all of its nodes that count as one.
-/

set_option autoImplicit false

namespace Tracemark.Syntax

/-- There is nothing around the root. Around any other node are the children of its
parent, those before it with the nearest first, and all that is above its parent. -/
inductive StandsIn (root : Node) : Cursor → Prop where
  | root : StandsIn root ⟨root, [], [], []⟩
  | child {parent : Cursor} {before : List Node} {node : Node} {after : List Node}
      (above : StandsIn root parent)
      (siblings : parent.node.children = before.reverse ++ node :: after) :
      StandsIn root ⟨node, before, after, parent.node :: parent.above⟩

mutual

theorem standsIn_of_mem_cursorsAt {root : Node} (node : Node) {before after above : List Node}
    (stands : StandsIn root ⟨node, before, after, above⟩) {cursor : Cursor}
    (member : cursor ∈ cursorsAt before after above node) : StandsIn root cursor := by
  cases node with
  | mk data children =>
      rw [cursorsAt] at member
      rcases List.mem_cons.mp member with same | below
      · exact same ▸ stands
      · have all : (Node.mk data children).children = ([] : List Node).reverse ++ children := rfl
        exact standsIn_of_mem_cursorsAmong children stands all below

/-- The siblings that are left are looked at with those before them in reverse. -/
theorem standsIn_of_mem_cursorsAmong {root : Node} (rest : List Node) {parent : Cursor}
    (stands : StandsIn root parent) {before : List Node}
    (siblings : parent.node.children = before.reverse ++ rest) {cursor : Cursor}
    (member : cursor ∈ cursorsAmong (parent.node :: parent.above) before rest) :
    StandsIn root cursor := by
  cases rest with
  | nil =>
      rw [cursorsAmong] at member
      cases member
  | cons node rest =>
      rw [cursorsAmong] at member
      rcases List.mem_append.mp member with here | later
      · exact standsIn_of_mem_cursorsAt node (.child stands siblings) here
      · apply standsIn_of_mem_cursorsAmong rest stands _ later
        rw [siblings, List.reverse_cons, List.append_assoc, List.singleton_append]

end

theorem mem_cursorsAt_self (before after above : List Node) (node : Node) :
    ⟨node, before, after, above⟩ ∈ cursorsAt before after above node := by
  cases node with
  | mk data children =>
      rw [cursorsAt]
      exact List.mem_cons_self

theorem mem_cursorsAmong_of_split (above before front : List Node) (node : Node)
    (rest : List Node) :
    ⟨node, front.reverse ++ before, rest, above⟩ ∈
      cursorsAmong above before (front ++ node :: rest) := by
  induction front generalizing before with
  | nil =>
      rw [List.nil_append, cursorsAmong]
      exact List.mem_append_left _ (mem_cursorsAt_self _ _ _ _)
  | cons first front ih =>
      rw [List.cons_append, cursorsAmong]
      apply List.mem_append_right
      simpa using ih (first :: before)

section Children

variable {parent : Cursor} {front : List Node} {child : Node} {rest : List Node}

mutual

theorem mem_cursorsAt_child (siblings : parent.node.children = front.reverse ++ child :: rest)
    (node : Node) {before after above : List Node}
    (member : parent ∈ cursorsAt before after above node) :
    ⟨child, front, rest, parent.node :: parent.above⟩ ∈ cursorsAt before after above node := by
  cases node with
  | mk data children =>
      rw [cursorsAt] at member ⊢
      apply List.mem_cons_of_mem
      rcases List.mem_cons.mp member with same | below
      · -- The parent is the node itself, so the child is among those looked at first.
        subst same
        obtain rfl : children = front.reverse ++ child :: rest := siblings
        simpa using mem_cursorsAmong_of_split (.mk data (front.reverse ++ child :: rest) :: above)
          [] front.reverse child rest
      · exact mem_cursorsAmong_child siblings children below

theorem mem_cursorsAmong_child (siblings : parent.node.children = front.reverse ++ child :: rest)
    (nodes : List Node) {before above : List Node}
    (member : parent ∈ cursorsAmong above before nodes) :
    ⟨child, front, rest, parent.node :: parent.above⟩ ∈ cursorsAmong above before nodes := by
  cases nodes with
  | nil =>
      rw [cursorsAmong] at member
      cases member
  | cons node nodes =>
      rw [cursorsAmong] at member ⊢
      rcases List.mem_append.mp member with here | later
      · exact List.mem_append_left _ (mem_cursorsAt_child siblings node here)
      · exact List.mem_append_right _ (mem_cursorsAmong_child siblings nodes later)

end

end Children

theorem mem_cursors_iff {root : Node} {cursor : Cursor} :
    cursor ∈ cursors root ↔ StandsIn root cursor := by
  constructor
  · intro member
    exact standsIn_of_mem_cursorsAt root .root member
  · intro stands
    induction stands with
    | root => exact mem_cursorsAt_self _ _ _ _
    | child _ siblings ih => exact mem_cursorsAt_child siblings root ih

theorem mem_comments_iff {language : Language} {root : Node} {cursor : Cursor} :
    cursor ∈ comments language root ↔ StandsIn root cursor ∧ cursor.isComment language = true := by
  rw [comments, List.mem_filter, mem_cursors_iff]

/-! ## Siblings in order -/

/-- A tree in which no sibling ends on an earlier row than one before it. -/
def SiblingsInOrder (root : Node) : Prop :=
  ∀ parent, StandsIn root parent →
    parent.node.children.Pairwise fun earlier later => earlier.data.endRow ≤ later.data.endRow

instance (root : Node) : Decidable (SiblingsInOrder root) :=
  decidable_of_iff (∀ parent ∈ cursors root, parent.node.children.Pairwise
      fun earlier later => earlier.data.endRow ≤ later.data.endRow) <| by
    simp only [SiblingsInOrder, mem_cursors_iff]

/-- From a node backwards its siblings end on earlier and earlier rows. -/
theorem StandsIn.pairwise_before {root : Node} {cursor : Cursor} (stands : StandsIn root cursor)
    (ordered : SiblingsInOrder root) :
    cursor.before.Pairwise fun nearer farther => farther.data.endRow ≤ nearer.data.endRow := by
  cases stands with
  | root => exact .nil
  | child above siblings =>
      have inOrder := ordered _ above
      rw [siblings, List.pairwise_append] at inOrder
      exact List.pairwise_reverse.mp inOrder.1

end Tracemark.Syntax
