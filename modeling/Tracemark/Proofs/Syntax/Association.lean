import Tracemark.Proofs.Syntax.Cursors
import Tracemark.Syntax.Scope

/-!
# What comments belong to

Two rules say what a comment of a tree belongs to. In a programming language it is the
first scope among what follows the comment, or the nearest scope around it, which alone
counts for a text that documents. In a data language it is the nearest sibling that ends
where the comment starts, or else the first part of the data that follows, or else the
nearest part around. The searches find exactly what the rules name.
-/

set_option autoImplicit false

namespace Tracemark.Syntax

/-! ## First results -/

/-- What the first of the candidates that gives anything gives. -/
inductive FirstOf {α β : Type} (gives : α → β → Prop) : List α → β → Prop where
  | here {candidate : α} {rest : List α} {result : β} (given : gives candidate result) :
      FirstOf gives (candidate :: rest) result
  | later {candidate : α} {rest : List α} {result : β} (nothing : ∀ other, ¬ gives candidate other)
      (found : FirstOf gives rest result) : FirstOf gives (candidate :: rest) result

section Search

variable {α β : Type} {search : α → Option β} {gives : α → β → Prop}
  (agrees : ∀ candidate result, search candidate = some result ↔ gives candidate result)
include agrees

theorem search_eq_none_iff {candidate : α} :
    search candidate = none ↔ ∀ other, ¬ gives candidate other := by
  simp only [Option.eq_none_iff_forall_ne_some, ne_eq, agrees]

theorem findSome?_eq_some_iff_firstOf {candidates : List α} {result : β} :
    candidates.findSome? search = some result ↔ FirstOf gives candidates result := by
  induction candidates with
  | nil =>
      constructor
      · intro found
        cases found
      · intro first
        cases first
  | cons candidate rest ih =>
      rw [List.findSome?_cons]
      cases searched : search candidate with
      | some given =>
          have gave := (agrees candidate given).mp searched
          constructor
          · intro found
            cases found
            exact .here gave
          · intro first
            cases first with
            | here other => rw [← searched, (agrees candidate result).mpr other]
            | later nothing _ => exact absurd gave (nothing given)
      | none =>
          have nothing := (search_eq_none_iff agrees).mp searched
          constructor
          · intro found
            exact .later nothing (ih.mp found)
          · intro first
            cases first with
            | here other => exact absurd other (nothing result)
            | later _ found => exact ih.mpr found

theorem findSome?_eq_none_iff_nothing {candidates : List α} :
    candidates.findSome? search = none ↔
      ∀ candidate ∈ candidates, ∀ other, ¬ gives candidate other := by
  simp only [List.findSome?_eq_none_iff, search_eq_none_iff agrees]

end Search

/-- A node of which the condition holds gives itself. -/
def Itself (condition : Node → Prop) (node found : Node) : Prop :=
  condition node ∧ found = node

/-- A node of one of the types gives itself. -/
abbrev IsOf (types : List String) : Node → Node → Prop :=
  Itself fun node => node.type ∈ types

section Condition

variable {condition : Node → Prop} {test : Node → Bool}
  (tests : ∀ node, test node = true ↔ condition node)
include tests

theorem guard_eq_some_iff_itself (node found : Node) :
    Option.guard test node = some found ↔ Itself condition node found := by
  rw [Option.guard_eq_some_iff, tests, Itself, and_comm, eq_comm]

theorem find?_eq_some_iff_firstOf {nodes : List Node} {found : Node} :
    nodes.find? test = some found ↔ FirstOf (Itself condition) nodes found := by
  rw [List.find?_eq_findSome?_guard]
  exact findSome?_eq_some_iff_firstOf (guard_eq_some_iff_itself tests)

end Condition

/-! ## What follows, or else what is around -/

/-- The first that the siblings after the comment give, or else the nearest node above it
of one of the types. -/
inductive NextOrAround (gives : Node → Node → Prop) (types : List String) (cursor : Cursor) :
    Node → Prop where
  | next {found : Node} (follows : FirstOf gives cursor.after found) :
      NextOrAround gives types cursor found
  | around {found : Node} (nothing : ∀ sibling ∈ cursor.after, ∀ other, ¬ gives sibling other)
      (encloses : FirstOf (IsOf types) cursor.above found) : NextOrAround gives types cursor found

section NextOrAround

variable {search : Node → Option Node} {gives : Node → Node → Prop}
  (agrees : ∀ sibling found, search sibling = some found ↔ gives sibling found)
  {types : List String} {test : Node → Bool}
  (tests : ∀ node, test node = true ↔ node.type ∈ types) (cursor : Cursor)
include agrees tests

theorem findSome?_or_find?_eq_some_iff {found : Node} :
    (cursor.after.findSome? search).or (cursor.above.find? test) = some found ↔
      NextOrAround gives types cursor found := by
  rw [Option.or_eq_some_iff, findSome?_eq_some_iff_firstOf agrees,
    findSome?_eq_none_iff_nothing agrees, find?_eq_some_iff_firstOf tests]
  constructor
  · intro found
    rcases found with follows | ⟨nothing, encloses⟩
    · exact .next follows
    · exact .around nothing encloses
  · intro found
    cases found with
    | next follows => exact .inl follows
    | around nothing encloses => exact .inr ⟨nothing, encloses⟩

theorem findSome?_or_find?_eq_none_iff :
    (cursor.after.findSome? search).or (cursor.above.find? test) = none ↔
      (∀ sibling ∈ cursor.after, ∀ other, ¬ gives sibling other) ∧
        ∀ node ∈ cursor.above, node.type ∉ types := by
  simp only [Option.or_eq_none_iff, findSome?_eq_none_iff_nothing agrees, List.find?_eq_none, tests]

end NextOrAround

/-! ## Programming languages -/

def codeLanguages : List Language :=
  [.python, .cpp, .cs, .rust, .go]

/-- A scope gives itself, and a block gives the first scope in it. -/
inductive GivesScope (language : Language) : Node → Node → Prop where
  | itself {sibling : Node} (isScope : sibling.type ∈ language.scopeTypes) :
      GivesScope language sibling sibling
  | inBlock {sibling scope : Node} (isBlock : sibling.type = "block")
      (first : FirstOf (IsOf language.scopeTypes) sibling.children scope) :
      GivesScope language sibling scope

theorem isScope_iff {language : Language} (node : Node) :
    isScope language node = true ↔ node.type ∈ language.scopeTypes := by
  rw [isScope, List.contains_iff_mem]

theorem block_not_mem_scopeTypes (language : Language) : "block" ∉ language.scopeTypes := by
  cases language <;> decide

theorem scopeIn_of_block {language : Language} {sibling : Node} (isBlock : sibling.type = "block") :
    scopeIn language sibling = sibling.children.find? (isScope language) := by
  have notScope : isScope language sibling = false := by
    rw [Bool.eq_false_iff, ne_eq, isScope_iff, isBlock]
    exact block_not_mem_scopeTypes language
  simp only [scopeIn, isBlock, beq_self_eq_true, if_true, notScope]
  cases sibling.children.find? (isScope language) <;> rfl

theorem scopeIn_of_not_block {language : Language} {sibling : Node}
    (notBlock : sibling.type ≠ "block") :
    scopeIn language sibling = Option.guard (isScope language) sibling := by
  simp [scopeIn, notBlock, Option.guard]

theorem scopeIn_eq_some_iff {language : Language} (sibling scope : Node) :
    scopeIn language sibling = some scope ↔ GivesScope language sibling scope := by
  by_cases block : sibling.type = "block"
  · rw [scopeIn_of_block block, find?_eq_some_iff_firstOf isScope_iff]
    constructor
    · exact .inBlock block
    · intro given
      cases given with
      | itself isScope => exact absurd (block ▸ isScope) (block_not_mem_scopeTypes language)
      | inBlock _ first => exact first
  · rw [scopeIn_of_not_block block, guard_eq_some_iff_itself isScope_iff]
    constructor
    · intro isOf
      obtain ⟨isScope, rfl⟩ := isOf
      exact .itself isScope
    · intro given
      cases given with
      | itself isScope => exact ⟨isScope, rfl⟩
      | inBlock isBlock _ => exact absurd isBlock block

/-- A text that documents belongs to the nearest scope around it, any other comment to the
next scope or else to the nearest one around. -/
inductive BelongsToScope (language : Language) (cursor : Cursor) : Node → Prop where
  | documented {scope : Node} (isDocText : cursor.isDocText = true)
      (encloses : FirstOf (IsOf language.scopeTypes) cursor.above scope) :
      BelongsToScope language cursor scope
  | remarked {scope : Node} (isPlain : cursor.isDocText = false)
      (nearest : NextOrAround (GivesScope language) language.scopeTypes cursor scope) :
      BelongsToScope language cursor scope

section Comment

variable {language : Language} {cursor : Cursor}

theorem type_of_isComment (captured : cursor.isComment language = true) :
    cursor.node.type ∈ commentTypes language ∧ cursor.node.type ≠ statementType ∧
        cursor.isDocText = false ∨
      cursor.node.type = statementType ∧ cursor.isDocText = true := by
  rw [Cursor.isComment, Bool.or_eq_true, Bool.and_eq_true, List.contains_iff_mem] at captured
  rcases captured with isType | ⟨_, isDocText⟩
  · have notStatement : cursor.node.type ≠ statementType := by
      intro same
      rw [same] at isType
      exact absurd isType (by cases language <;> decide)
    exact .inl ⟨isType, notStatement, by simp [Cursor.isDocText, notStatement]⟩
  · have isStatement := isDocText
    simp only [Cursor.isDocText, Bool.and_eq_true, beq_iff_eq] at isStatement
    exact .inr ⟨isStatement.1.1, isDocText⟩

theorem type_eq_statementType_iff (captured : cursor.isComment language = true) :
    cursor.node.type = statementType ↔ cursor.isDocText = true := by
  rcases type_of_isComment captured with ⟨_, notStatement, isPlain⟩ | ⟨isStatement, isDocText⟩
  · simp [notStatement, isPlain]
  · simp [isStatement, isDocText]

/-- The searches begin at the comment, which is no scope itself. -/
theorem isScope_of_isComment (captured : cursor.isComment language = true) :
    isScope language cursor.node = false := by
  rw [Bool.eq_false_iff, ne_eq, isScope_iff]
  rcases type_of_isComment captured with ⟨isType, _⟩ | ⟨isStatement, _⟩
  · have apart : ∀ type ∈ commentTypes language, type ∉ language.scopeTypes := by
      cases language <;> decide
    exact apart _ isType
  · rw [isStatement]
    cases language <;> decide

theorem scope_of_isComment (code : language ∈ codeLanguages)
    (captured : cursor.isComment language = true) :
    cursor.scope language =
      if cursor.isDocText then cursor.above.find? (isScope language)
      else (cursor.after.findSome? (scopeIn language)).or
        (cursor.above.find? (isScope language)) := by
  have notScope := isScope_of_isComment captured
  have around : cursor.enclosingScope language = cursor.above.find? (isScope language) := by
    rw [Cursor.enclosingScope, List.find?_cons_of_neg (by simp [notScope])]
  have next : cursor.nextScope language = cursor.after.findSome? (scopeIn language) := by
    rw [Cursor.nextScope, notScope]
    rfl
  have searches : cursor.scope language =
      if cursor.node.type == statementType then cursor.enclosingScope language
      else (cursor.nextScope language).or (cursor.enclosingScope language) := by
    cases language with
    | yaml => exact absurd code (by decide)
    | jsonc => exact absurd code (by decide)
    | _ => rfl
  simp only [searches, around, next, beq_iff_eq, type_eq_statementType_iff captured]

theorem belongsToScope_iff {scope : Node} :
    BelongsToScope language cursor scope ↔
      if cursor.isDocText then FirstOf (IsOf language.scopeTypes) cursor.above scope
      else NextOrAround (GivesScope language) language.scopeTypes cursor scope := by
  constructor
  · intro belongs
    cases belongs with
    | documented isDocText encloses => simpa [isDocText] using encloses
    | remarked isPlain nearest => simpa [isPlain] using nearest
  · intro found
    cases isDocText : cursor.isDocText with
    | true => exact .documented isDocText (by simpa [isDocText] using found)
    | false => exact .remarked isDocText (by simpa [isDocText] using found)

end Comment

/-- A comment of a program is given exactly the scope that it belongs to, and none only
where there is none around it nor, unless it documents, after it. -/
theorem scope_of_codeComment {language : Language} (code : language ∈ codeLanguages) {root : Node}
    {cursor : Cursor} (captured : cursor ∈ comments language root) :
    StandsIn root cursor ∧
      (∀ scope, cursor.scope language = some scope ↔ BelongsToScope language cursor scope) ∧
      (cursor.scope language = none ↔
        (∀ node ∈ cursor.above, node.type ∉ language.scopeTypes) ∧
          (cursor.isDocText = false →
            ∀ sibling ∈ cursor.after, ∀ scope, ¬ GivesScope language sibling scope)) := by
  obtain ⟨stands, isComment⟩ := mem_comments_iff.mp captured
  rw [scope_of_isComment code isComment]
  refine ⟨stands, ?_, ?_⟩
  · intro scope
    rw [belongsToScope_iff]
    cases cursor.isDocText with
    | true => exact find?_eq_some_iff_firstOf isScope_iff
    | false => exact findSome?_or_find?_eq_some_iff scopeIn_eq_some_iff isScope_iff cursor
  · have around : cursor.above.find? (isScope language) = none ↔
        ∀ node ∈ cursor.above, node.type ∉ language.scopeTypes := by
      simp only [List.find?_eq_none, isScope_iff]
    cases cursor.isDocText with
    | true => simp [around]
    | false =>
        rw [if_neg Bool.false_ne_true,
          findSome?_or_find?_eq_none_iff scopeIn_eq_some_iff isScope_iff cursor]
        simp [and_comm]

theorem scope_of_comments_in_function :
    let root := treeOf [] (.mk "module" 0 0 [.mk "function_definition" 0 0 [.mk "block" 0 0 [
      .mk "expression_statement" 0 0 [.mk "string" 0 0 []], .mk "comment" 0 0 [],
      .mk "block" 0 0 [.mk "pass_statement" 0 0 [], .mk "class_definition" 0 0 []]]]])
    ((comments .python root).map fun cursor => (cursor.scope .python).map (·.data.number)) =
        [some 1, some 8] ∧
      ∀ cursor ∈ comments .python root, ∃ scope,
        cursor.scope .python = some scope ∧ BelongsToScope .python cursor scope := by
  intro root
  have isCode : Language.python ∈ codeLanguages := by decide
  have given : ∀ cursor ∈ comments .python root, (cursor.scope .python).isSome = true := by
    decide +kernel
  refine ⟨by decide +kernel, ?_⟩
  intro cursor captured
  obtain ⟨scope, isScope⟩ := Option.isSome_iff_exists.mp (given cursor captured)
  exact ⟨scope, isScope, ((scope_of_codeComment isCode captured).2.1 scope).mp isScope⟩

/-! ## Data languages -/

/-- A container of the type gives the first part of the other type in it. -/
def HoldsPart (container part : String) (node found : Node) : Prop :=
  node.type = container ∧ FirstOf (IsOf [part]) node.children found

/-- A mapping gives its first pair, a sequence its first item. -/
def GivesEntry (node found : Node) : Prop :=
  HoldsPart "block_mapping" "block_mapping_pair" node found ∨
    HoldsPart "block_sequence" "block_sequence_item" node found

/-- A block of YAML gives the first entry of the mappings and sequences in it. -/
def GivesBlockEntry (node found : Node) : Prop :=
  node.type = "block_node" ∧ FirstOf GivesEntry node.children found

/-- The part of the data that a sibling gives. -/
inductive GivesPart : Language → Node → Node → Prop where
  | value {sibling : Node}
      (isValue : sibling.type ∈
        ["pair", "object", "array", "string", "number", "true", "false", "null"]) :
      GivesPart .jsonc sibling sibling
  | entry {sibling : Node}
      (isEntry : sibling.type ∈
        ["block_mapping_pair", "block_sequence_item", "flow_mapping", "flow_sequence"]) :
      GivesPart .yaml sibling sibling
  | block {sibling part : Node} (inBlock : GivesBlockEntry sibling part) :
      GivesPart .yaml sibling part
  | document {sibling part : Node} (isDocument : sibling.type = "document")
      (inDocument : FirstOf GivesBlockEntry sibling.children part) : GivesPart .yaml sibling part

def typesAround : Language → List String
  | .yaml => ["block_mapping_pair", "block_sequence_item"]
  | .jsonc => ["pair", "object", "array"]
  | _ => []

/-- A comment belongs to the nearest sibling before it that ends on the row where the comment
starts, and else to the next part or to the nearest one around. -/
inductive BelongsToPart (language : Language) (cursor : Cursor) : Node → Prop where
  | sameRow {part : Node}
      (ends : FirstOf (Itself fun sibling => sibling.data.endRow = cursor.node.data.startRow)
        cursor.before part) :
      BelongsToPart language cursor part
  | ownRow {part : Node}
      (alone : ∀ sibling ∈ cursor.before, sibling.data.endRow ≠ cursor.node.data.startRow)
      (nearest : NextOrAround (GivesPart language) (typesAround language) cursor part) :
      BelongsToPart language cursor part

/-- Where rows do not increase from a node backwards, the search may stop at the first that
is too early. -/
theorem endingOn_eq_find? {row : Nat} {nodes : List Node}
    (ordered : nodes.Pairwise fun nearer farther => farther.data.endRow ≤ nearer.data.endRow) :
    endingOn row nodes = nodes.find? fun node => node.data.endRow == row := by
  induction nodes with
  | nil => rfl
  | cons node rest ih =>
      obtain ⟨farther, orderedRest⟩ := List.pairwise_cons.mp ordered
      rw [endingOn, List.find?_cons]
      cases onRow : node.data.endRow == row with
      | true => rfl
      | false =>
          rw [if_neg Bool.false_ne_true]
          split
          · -- The search stops here, and all that is farther away ends earlier still.
            rename_i early
            have allEarly : ∀ other ∈ rest, ¬ (other.data.endRow == row) = true := by
              intro other member same
              have notLater := farther other member
              rw [beq_iff_eq] at same
              omega
            exact (List.find?_eq_none.mpr allEarly).symm
          · exact ih orderedRest

/-! The searches for parts. -/

theorem find?_type_eq_some_iff {type : String} {nodes : List Node} {found : Node} :
    (nodes.find? fun node => node.type == type) = some found ↔
      FirstOf (IsOf [type]) nodes found :=
  find?_eq_some_iff_firstOf fun node => by simp

theorem inYamlBlock_eq_some_iff {block part : Node} :
    inYamlBlock block = some part ↔ FirstOf GivesEntry block.children part := by
  apply findSome?_eq_some_iff_firstOf
  intro child found
  simp only [GivesEntry, HoldsPart, ← find?_type_eq_some_iff]
  by_cases mapping : child.type = "block_mapping"
  · simp [mapping]
  · by_cases sequence : child.type = "block_sequence"
    · simp [sequence]
    · simp [mapping, sequence]

theorem blockEntry_eq_some_iff (child found : Node) :
    (if child.type == "block_node" then inYamlBlock child else none) = some found ↔
      GivesBlockEntry child found := by
  rw [GivesBlockEntry, ← inYamlBlock_eq_some_iff]
  by_cases block : child.type = "block_node" <;> simp [block]

theorem givesPart_yaml_iff {sibling part : Node} :
    GivesPart .yaml sibling part ↔
      IsOf yamlTypes sibling part ∨ GivesBlockEntry sibling part ∨
        sibling.type = "document" ∧ FirstOf GivesBlockEntry sibling.children part := by
  constructor
  · intro given
    cases given with
    | entry isEntry => exact .inl ⟨isEntry, rfl⟩
    | block inBlock => exact .inr (.inl inBlock)
    | document isDocument inDocument => exact .inr (.inr ⟨isDocument, inDocument⟩)
  · intro given
    rcases given with ⟨isEntry, rfl⟩ | inBlock | ⟨isDocument, inDocument⟩
    · exact .entry isEntry
    · exact .block inBlock
    · exact .document isDocument inDocument

theorem yamlPart_eq_some_iff (sibling part : Node) :
    yamlPart sibling = some part ↔ GivesPart .yaml sibling part := by
  rw [givesPart_yaml_iff, ← findSome?_eq_some_iff_firstOf blockEntry_eq_some_iff,
    ← blockEntry_eq_some_iff, IsOf, Itself, yamlPart]
  -- The types of entries, documents and blocks exclude each other.
  by_cases entry : sibling.type ∈ yamlTypes
  · have notBlock : sibling.type ≠ "block_node" := fun same => absurd (same ▸ entry) (by decide)
    have notDocument : sibling.type ≠ "document" := fun same => absurd (same ▸ entry) (by decide)
    simp [entry, notBlock, notDocument, @eq_comm _ part sibling]
  · by_cases document : sibling.type = "document"
    · simp [document, yamlTypes]
    · by_cases block : sibling.type = "block_node"
      · simp [block, yamlTypes]
      · simp [entry, document, block]

theorem guard_jsonTypes_eq_some_iff (sibling part : Node) :
    Option.guard (fun node => jsonTypes.contains node.type) sibling = some part ↔
      GivesPart .jsonc sibling part := by
  rw [guard_eq_some_iff_itself fun node => List.contains_iff_mem]
  constructor
  · intro isOf
    obtain ⟨isValue, rfl⟩ := isOf
    exact .value isValue
  · intro given
    cases given with
    | value isValue => exact ⟨isValue, rfl⟩

section DataComment

variable {language : Language} {search : Node → Option Node} {test : Node → Bool}
  (agrees : ∀ sibling found, search sibling = some found ↔ GivesPart language sibling found)
  (tests : ∀ node, test node = true ↔ node.type ∈ typesAround language)
  {root : Node} (ordered : SiblingsInOrder root) {cursor : Cursor} (stands : StandsIn root cursor)
include agrees tests ordered stands

theorem sameRow_or_eq_some_iff {part : Node} :
    cursor.sameRow.or ((cursor.after.findSome? search).or (cursor.above.find? test)) = some part ↔
      BelongsToPart language cursor part := by
  rw [Option.or_eq_some_iff, findSome?_or_find?_eq_some_iff agrees tests, Cursor.sameRow,
    endingOn_eq_find? (stands.pairwise_before ordered),
    find?_eq_some_iff_firstOf fun _ => beq_iff_eq, List.find?_eq_none]
  simp only [beq_iff_eq]
  constructor
  · intro found
    rcases found with ends | ⟨alone, nearest⟩
    · exact .sameRow ends
    · exact .ownRow alone nearest
  · intro belongs
    cases belongs with
    | sameRow ends => exact .inl ends
    | ownRow alone nearest => exact .inr ⟨alone, nearest⟩

theorem sameRow_or_eq_none_iff :
    cursor.sameRow.or ((cursor.after.findSome? search).or (cursor.above.find? test)) = none ↔
      (∀ sibling ∈ cursor.before, sibling.data.endRow ≠ cursor.node.data.startRow) ∧
        (∀ sibling ∈ cursor.after, ∀ part, ¬ GivesPart language sibling part) ∧
        ∀ node ∈ cursor.above, node.type ∉ typesAround language := by
  rw [Option.or_eq_none_iff, findSome?_or_find?_eq_none_iff agrees tests, Cursor.sameRow,
    endingOn_eq_find? (stands.pairwise_before ordered), List.find?_eq_none]
  simp only [beq_iff_eq, ne_eq]

end DataComment

theorem scope_yaml (cursor : Cursor) :
    cursor.scope .yaml = cursor.sameRow.or ((cursor.after.findSome? yamlPart).or
      (cursor.above.find? fun node =>
        node.type == "block_mapping_pair" || node.type == "block_sequence_item")) := rfl

theorem scope_jsonc (cursor : Cursor) :
    cursor.scope .jsonc = cursor.sameRow.or
      ((cursor.after.findSome? (Option.guard fun node => jsonTypes.contains node.type)).or
        (cursor.above.find? fun node =>
          node.type == "pair" || node.type == "object" || node.type == "array")) := by
  rw [← List.find?_eq_findSome?_guard]
  rfl

/-- Where siblings are in order, a comment of a data file is given exactly the part of the data
that it belongs to, and none only where nothing before, after or around it can be. -/
theorem scope_of_dataComment {language : Language} (data : language ∈ [.yaml, .jsonc])
    {root : Node} (ordered : SiblingsInOrder root) {cursor : Cursor}
    (captured : cursor ∈ comments language root) :
    StandsIn root cursor ∧
      (∀ part, cursor.scope language = some part ↔ BelongsToPart language cursor part) ∧
      (cursor.scope language = none ↔
        (∀ sibling ∈ cursor.before, sibling.data.endRow ≠ cursor.node.data.startRow) ∧
          (∀ sibling ∈ cursor.after, ∀ part, ¬ GivesPart language sibling part) ∧
          ∀ node ∈ cursor.above, node.type ∉ typesAround language) := by
  obtain ⟨stands, _⟩ := mem_comments_iff.mp captured
  refine ⟨stands, ?_⟩
  simp only [List.mem_cons, List.not_mem_nil, or_false] at data
  rcases data with rfl | rfl
  · have tests : ∀ node : Node,
        (node.type == "block_mapping_pair" || node.type == "block_sequence_item") = true ↔
          node.type ∈ typesAround .yaml := by
      simp [typesAround]
    rw [scope_yaml]
    exact ⟨fun _ => sameRow_or_eq_some_iff yamlPart_eq_some_iff tests ordered stands,
      sameRow_or_eq_none_iff yamlPart_eq_some_iff tests ordered stands⟩
  · have tests : ∀ node : Node,
        (node.type == "pair" || node.type == "object" || node.type == "array") = true ↔
          node.type ∈ typesAround .jsonc := by
      simp [typesAround, or_assoc]
    rw [scope_jsonc]
    exact ⟨fun _ => sameRow_or_eq_some_iff guard_jsonTypes_eq_some_iff tests ordered stands,
      sameRow_or_eq_none_iff guard_jsonTypes_eq_some_iff tests ordered stands⟩

/-- A comment at the top of a file belongs to the first pair of the document below it, one beside
a pair to that pair, and one on a row of its own to the next pair. -/
theorem scope_of_comments_in_mapping :
    let root := treeOf (Utf8.encode "#\na: 1 #\n#\nb: 2\n".toList)
      (.mk "stream" 0 16 [.mk "comment" 0 1 [], .mk "document" 2 15 [.mk "block_node" 2 15 [
        .mk "block_mapping" 2 15 [.mk "block_mapping_pair" 2 6 [], .mk "comment" 7 8 [],
          .mk "comment" 9 10 [], .mk "block_mapping_pair" 11 15 []]]]])
    SiblingsInOrder root ∧
      ((comments .yaml root).map fun cursor => (cursor.scope .yaml).map (·.data.number)) =
        [some 5, some 5, some 8] ∧
      ∀ cursor ∈ comments .yaml root, ∃ part,
        cursor.scope .yaml = some part ∧ BelongsToPart .yaml cursor part := by
  intro root
  have ordered : SiblingsInOrder root := by decide +kernel
  have given : ∀ cursor ∈ comments .yaml root, (cursor.scope .yaml).isSome = true := by
    decide +kernel
  refine ⟨ordered, by decide +kernel, ?_⟩
  intro cursor captured
  obtain ⟨part, isPart⟩ := Option.isSome_iff_exists.mp (given cursor captured)
  have belongs := (scope_of_dataComment List.mem_cons_self ordered captured).2.1 part
  exact ⟨part, isPart, belongs.mp isPart⟩

end Tracemark.Syntax
