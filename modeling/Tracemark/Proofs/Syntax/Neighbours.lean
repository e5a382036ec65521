import Tracemark.Proofs.Syntax.Association

/-!
# Comments beside comments

The search for what ends on the row of a comment asks for no type, and the searches after
and around it do. So a comment in JSON belongs to something that is no part of the data,
such as another comment, exactly where that stands beside it.
-/

set_option autoImplicit false

namespace Tracemark.Syntax

/-- From the nearest node on, the first that does not end after the row ends on it. -/
inductive NearestOn (row : Nat) : List Node → Node → Prop where
  | here {node : Node} {rest : List Node} (ends : node.data.endRow = row) :
      NearestOn row (node :: rest) node
  | past {node : Node} {rest : List Node} {found : Node} (later : row < node.data.endRow)
      (nearest : NearestOn row rest found) : NearestOn row (node :: rest) found

theorem endingOn_eq_some_iff {row : Nat} {nodes : List Node} {found : Node} :
    endingOn row nodes = some found ↔ NearestOn row nodes found := by
  constructor
  · intro ended
    induction nodes with
    | nil => cases ended
    | cons node rest ih =>
        rw [endingOn] at ended
        split at ended
        · rename_i ends
          cases ended
          exact .here (beq_iff_eq.mp ends)
        · rename_i elsewhere
          split at ended
          · cases ended
          · rename_i notEarlier
            rw [beq_iff_eq] at elsewhere
            exact .past (by omega) (ih ended)
  · intro nearest
    induction nearest with
    | here ends => simp [endingOn, ends]
    | past later _ ih =>
        have elsewhere := Nat.ne_of_gt later
        have notEarlier := Nat.lt_asymm later
        simp [endingOn, elsewhere, notEarlier, ih]

namespace Cursor

/-- The sibling stands before the node, and no nearer one keeps it from being found on the
row where the node starts. -/
def Beside (cursor : Cursor) (sibling : Node) : Prop :=
  NearestOn cursor.node.data.startRow cursor.before sibling

variable {cursor : Cursor}

theorem sameRow_eq_some_iff {sibling : Node} :
    cursor.sameRow = some sibling ↔ cursor.Beside sibling :=
  endingOn_eq_some_iff

theorem jsonScope_of_beside {sibling : Node} (beside : cursor.Beside sibling) :
    cursor.jsonScope = some sibling := by
  rw [jsonScope, sameRow_eq_some_iff.mpr beside, Option.some_or]

theorem type_of_jsonScope {part : Node} (found : cursor.jsonScope = some part) :
    part.type ∈ jsonTypes ∨ cursor.Beside part := by
  simp only [jsonScope, Option.or_eq_some_iff] at found
  rcases found with beside | ⟨_, follows | ⟨_, encloses⟩⟩
  · exact .inr (sameRow_eq_some_iff.mp beside)
  · have isPart := List.find?_some follows
    exact .inl (List.contains_iff_mem.mp isPart)
  · have around : ∀ type ∈ ["pair", "object", "array"], type ∈ jsonTypes := by decide
    apply Or.inl
    apply around
    simpa [or_assoc] using List.find?_some encloses

end Cursor

theorem type_of_jsonComment {cursor : Cursor} (captured : cursor.isComment .jsonc = true) :
    cursor.node.type = "comment" := by
  simpa [Cursor.isComment, commentTypes] using captured

/-- Whatever stands beside a comment in JSON is what the comment belongs to, and all else that
it may belong to is a part of the data. In particular it belongs to another comment of the file
exactly where that one stands beside it. -/
theorem scope_of_jsonComment {root : Node} {cursor : Cursor}
    (captured : cursor ∈ comments .jsonc root) :
    StandsIn root cursor ∧
      (∀ part, cursor.scope .jsonc = some part → part.type ∈ jsonTypes ∨ cursor.Beside part) ∧
      (∀ sibling, cursor.Beside sibling → cursor.scope .jsonc = some sibling) ∧
      ((∀ part, cursor.scope .jsonc = some part → part.type ∈ jsonTypes) ↔
        ∀ sibling, cursor.Beside sibling → sibling.type ∈ jsonTypes) ∧
      ∀ other ∈ comments .jsonc root,
        cursor.scope .jsonc = some other.node ↔ cursor.Beside other.node := by
  have search : cursor.scope .jsonc = cursor.jsonScope := rfl
  rw [search]
  refine ⟨(mem_comments_iff.mp captured).1, fun _ => Cursor.type_of_jsonScope,
    fun _ => Cursor.jsonScope_of_beside, ⟨?_, ?_⟩, ?_⟩
  · intro typed sibling beside
    exact typed sibling (Cursor.jsonScope_of_beside beside)
  · intro typed part found
    rcases Cursor.type_of_jsonScope found with isPart | beside
    · exact isPart
    · exact typed part beside
  · intro other isOther
    constructor
    · intro found
      have isComment := type_of_jsonComment (mem_comments_iff.mp isOther).2
      have notPart : other.node.type ∉ jsonTypes := by
        rw [isComment]
        decide
      exact (Cursor.type_of_jsonScope found).resolve_left notPart
    · exact Cursor.jsonScope_of_beside

/-- Of two comments before a number the second belongs to the first. -/
theorem scope_of_two_jsonComments :
    let root := treeOf (Utf8.encode "/*a*/ /*b*/ 1".toList)
      (.mk "document" 0 13 [.mk "comment" 0 5 [], .mk "comment" 6 11 [], .mk "number" 12 13 []])
    let first : Node := .mk ⟨1, "comment", 0, 0, Utf8.encode "/*a*/".toList⟩ []
    let second : Node := .mk ⟨2, "comment", 0, 0, Utf8.encode "/*b*/".toList⟩ []
    let number : Node := .mk ⟨3, "number", 0, 0, Utf8.encode "1".toList⟩ []
    let cursor : Cursor := ⟨second, [first], [number], [root]⟩
    cursor ∈ comments .jsonc root ∧ cursor.Beside first ∧ cursor.scope .jsonc = some first ∧
      ¬ ∀ part, cursor.scope .jsonc = some part → part.type ∈ jsonTypes := by
  intro root first second number cursor
  have stands : StandsIn root cursor := .child .root rfl
  have captured : cursor ∈ comments .jsonc root := mem_comments_iff.mpr ⟨stands, rfl⟩
  have beside : cursor.Beside first := .here rfl
  obtain ⟨_, _, scopes, typed, _⟩ := scope_of_jsonComment captured
  refine ⟨captured, beside, scopes first beside, ?_⟩
  intro parts
  exact absurd (typed.mp parts first beside) (by decide)

end Tracemark.Syntax
