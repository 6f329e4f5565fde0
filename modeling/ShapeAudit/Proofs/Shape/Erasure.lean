import ShapeAudit.Shape.Divergence

/-!
# Erasure of lexical detail

`Tree.erase` puts one fixed leaf in place of every lexical node, drops the text
of every other node, and keeps everything else: kinds, field names with empty
fields among them, sequences with their lengths and order, and words.

The comparison never computes an erasure; it walks two trees side by side and
stops at the first difference.  The main statement is that it finds none
exactly when the erasures are equal.  So trees that are not told apart form the
classes of an equivalence relation.
-/

namespace ShapeAudit.Shape

/-! ## Erasure -/

namespace Tree

/-- The leaf that stands for every lexical node. -/
def anyLeaf : Tree :=
  .node .identifier [] none

mutual

/-- A tree without lexical detail. -/
def erase : Tree → Tree
  | .node kind fields _ =>
    if kind.isLexical then anyLeaf else .node kind (eraseFields fields) none
  | .list items => .list (eraseItems items)
  | .word value => .word value

/-- A sequence without lexical detail. -/
def eraseItems : List Tree → List Tree
  | [] => []
  | item :: rest => erase item :: eraseItems rest

/-- Fields without lexical detail, under the same names. -/
def eraseFields : List (String × List Tree) → List (String × List Tree)
  | [] => []
  | (name, items) :: rest => (name, eraseItems items) :: eraseFields rest

end

@[simp]
theorem eraseItems_length (items : List Tree) :
    (eraseItems items).length = items.length := by
  induction items with
  | nil =>
      rfl
  | cons item rest inductionHypothesis =>
      simp [eraseItems, inductionHypothesis]

@[simp]
theorem names_eraseFields (fields : Fields) :
    Fields.names (eraseFields fields) = Fields.names fields := by
  induction fields with
  | nil =>
      rfl
  | cons field rest inductionHypothesis =>
      simpa [Fields.names, eraseFields] using inductionHypothesis

@[simp]
theorem get_eraseFields (name : String) (fields : Fields) :
    Fields.get name (eraseFields fields) = eraseItems (Fields.get name fields) := by
  induction fields with
  | nil =>
      rfl
  | cons field rest inductionHypothesis =>
      by_cases found : field.1 = name
      · simp [eraseFields, Fields.get, found]
      · simp [eraseFields, Fields.get, found, inductionHypothesis]

theorem length_eq_of_eraseItems_eq
    {itemsA itemsB : List Tree}
    (equal : eraseItems itemsA = eraseItems itemsB) :
    itemsA.length = itemsB.length := by
  simpa using congrArg List.length equal

theorem names_eq_of_eraseFields_eq
    {fieldsA fieldsB : Fields}
    (equal : eraseFields fieldsA = eraseFields fieldsB) :
    Fields.names fieldsA = Fields.names fieldsB := by
  simpa using congrArg Fields.names equal

@[simp]
theorem erase_lexical
    {kind : Kind} {fields : Fields} {text : Option String}
    (lexical : kind.isLexical = true) :
    erase (.node kind fields text) = anyLeaf := by
  simp [erase, lexical]

@[simp]
theorem erase_structural
    {kind : Kind} {fields : Fields} {text : Option String}
    (structural : kind.isLexical = false) :
    erase (.node kind fields text) = .node kind (eraseFields fields) none := by
  simp [erase, structural]

/-- The fixed leaf is the erasure of lexical nodes only. -/
theorem structural_ne_anyLeaf
    {kind : Kind} {fields : Fields} {text : Option String}
    (structural : kind.isLexical = false) :
    Tree.node kind fields text ≠ anyLeaf := by
  intro equal
  injection equal with kindEqual
  subst kindEqual
  exact absurd structural (by decide)

end Tree

open Shape.Tree

/-! ## The walk finds nothing exactly on equal erasures -/

/-- Two nodes of which neither is lexical are alike when their kinds, their
field names and the contents of their fields are. -/
theorem structural_erase_eq_iff
    {kindA kindB : Kind} {fieldsA fieldsB : Fields} {textA textB : Option String}
    (structuralA : kindA.isLexical = false)
    (structuralB : kindB.isLexical = false) :
    erase (.node kindA fieldsA textA) = erase (.node kindB fieldsB textB) ↔
      kindA = kindB ∧ eraseFields fieldsA = eraseFields fieldsB := by
  rw [erase_structural structuralA, erase_structural structuralB]
  constructor
  · intro equal
    injection equal with kindEqual fieldsEqual
    exact ⟨kindEqual, fieldsEqual⟩
  · rintro ⟨rfl, fieldsEqual⟩
    rw [fieldsEqual]

-- One statement for each of the three walks.  The walks over items and over
-- fields are only entered on equal lengths and equal names, which is what
-- their hypotheses say.
mutual

theorem treeTrail?_eq_none_iff :
    ∀ a b : Tree, treeTrail? a b = none ↔ erase a = erase b
  | .node kindA fieldsA textA, .node kindB fieldsB textB => by
      cases lexicalA : kindA.isLexical <;> cases lexicalB : kindB.isLexical
      · rw [structural_erase_eq_iff lexicalA lexicalB]
        by_cases kindEqual : kindA = kindB
        · by_cases namesEqual : Fields.names fieldsA = Fields.names fieldsB
          · simp [treeTrail?, lexicalB, kindEqual, namesEqual,
              fieldsTrail?_eq_none_iff fieldsA fieldsB namesEqual]
          · have fieldsDiffer : eraseFields fieldsA ≠ eraseFields fieldsB :=
              fun equal => namesEqual (names_eq_of_eraseFields_eq equal)
            simp [treeTrail?, lexicalB, kindEqual, namesEqual, fieldsDiffer]
        · simp [treeTrail?, lexicalA, lexicalB, kindEqual]
      · simp [treeTrail?, lexicalA, lexicalB, structural_ne_anyLeaf lexicalA]
      · simp [treeTrail?, lexicalA, lexicalB, (structural_ne_anyLeaf lexicalB).symm]
      · simp [treeTrail?, lexicalA, lexicalB]
  | .list itemsA, .list itemsB => by
      by_cases lengthEqual : itemsA.length = itemsB.length
      · simp [treeTrail?, erase, lengthEqual,
          itemsTrail?_eq_none_iff 0 itemsA itemsB lengthEqual]
      · have itemsDiffer : eraseItems itemsA ≠ eraseItems itemsB :=
          fun equal => lengthEqual (length_eq_of_eraseItems_eq equal)
        simp [treeTrail?, erase, lengthEqual, itemsDiffer]
  | .word a, .word b => by
      by_cases equal : a = b <;> simp [treeTrail?, erase, equal]
  | .node kind fields text, .list items => by
      cases lexical : kind.isLexical <;> simp [treeTrail?, erase, lexical, anyLeaf]
  | .node kind fields text, .word value => by
      cases lexical : kind.isLexical <;> simp [treeTrail?, erase, lexical, anyLeaf]
  | .list items, .node kind fields text => by
      cases lexical : kind.isLexical <;> simp [treeTrail?, erase, lexical, anyLeaf]
  | .word value, .node kind fields text => by
      cases lexical : kind.isLexical <;> simp [treeTrail?, erase, lexical, anyLeaf]
  | .list items, .word value => by
      simp [treeTrail?, erase]
  | .word value, .list items => by
      simp [treeTrail?, erase]

theorem itemsTrail?_eq_none_iff :
    ∀ (index : Nat) (itemsA itemsB : List Tree),
      itemsA.length = itemsB.length →
        (itemsTrail? index itemsA itemsB = none ↔
          eraseItems itemsA = eraseItems itemsB)
  | index, [], [], _ => by
      simp [itemsTrail?]
  | index, [], b :: restB, lengthEqual => by
      simp at lengthEqual
  | index, a :: restA, [], lengthEqual => by
      simp at lengthEqual
  | index, a :: restA, b :: restB, lengthEqual => by
      have headIff := treeTrail?_eq_none_iff a b
      have restIff :=
        itemsTrail?_eq_none_iff (index + 1) restA restB (by simpa using lengthEqual)
      cases found : treeTrail? a b with
      | none =>
          have headEqual : erase a = erase b := headIff.mp found
          simp [itemsTrail?, found, eraseItems, headEqual, restIff]
      | some trail =>
          have headDiffer : erase a ≠ erase b := by
            intro equal
            simp [headIff.mpr equal] at found
          simp [itemsTrail?, found, eraseItems, headDiffer]

theorem fieldsTrail?_eq_none_iff :
    ∀ fieldsA fieldsB : List (String × List Tree),
      Fields.names fieldsA = Fields.names fieldsB →
        (fieldsTrail? fieldsA fieldsB = none ↔
          eraseFields fieldsA = eraseFields fieldsB)
  | [], [], _ => by
      simp [fieldsTrail?]
  | [], (nameB, itemsB) :: restB, namesEqual => by
      simp [Fields.names] at namesEqual
  | (nameA, itemsA) :: restA, [], namesEqual => by
      simp [Fields.names] at namesEqual
  | (nameA, itemsA) :: restA, (nameB, itemsB) :: restB, namesEqual => by
      have nameEqual : nameA = nameB := by
        simpa [Fields.names] using congrArg List.head? namesEqual
      have restIff :=
        fieldsTrail?_eq_none_iff restA restB (by
          simpa [Fields.names] using congrArg List.tail namesEqual)
      by_cases lengthEqual : itemsA.length = itemsB.length
      · have itemsIff := itemsTrail?_eq_none_iff 0 itemsA itemsB lengthEqual
        cases found : itemsTrail? 0 itemsA itemsB with
        | none =>
            have itemsEqual : eraseItems itemsA = eraseItems itemsB :=
              itemsIff.mp found
            simp [fieldsTrail?, found, lengthEqual, eraseFields, nameEqual,
              itemsEqual, restIff]
        | some trail =>
            have itemsDiffer : eraseItems itemsA ≠ eraseItems itemsB := by
              intro equal
              simp [itemsIff.mpr equal] at found
            simp [fieldsTrail?, found, lengthEqual, eraseFields, itemsDiffer]
      · have itemsDiffer : eraseItems itemsA ≠ eraseItems itemsB :=
          fun equal => lengthEqual (length_eq_of_eraseItems_eq equal)
        simp [fieldsTrail?, lengthEqual, eraseFields, itemsDiffer]

end

/-! ## Trees that are not told apart -/

theorem differ_eq_false_iff (a b : Tree) :
    differ a b = false ↔ erase a = erase b := by
  rw [differ, Option.isSome_eq_false_iff, Option.isNone_iff_eq_none]
  exact treeTrail?_eq_none_iff a b

theorem differ_eq_differ
    {a b c d : Tree} (sameAnswer : erase a = erase b ↔ erase c = erase d) :
    differ a b = differ c d := by
  rw [← differ_eq_false_iff, ← differ_eq_false_iff] at sameAnswer
  cases first : differ a b <;> cases second : differ c d <;> simp_all

theorem differ_comm (a b : Tree) :
    differ a b = differ b a :=
  differ_eq_differ eq_comm

/-- A tree is told apart from both of two alike trees or from neither. -/
theorem differ_congr_right
    {b c : Tree} (alike : differ b c = false) (a : Tree) :
    differ a b = differ a c := by
  apply differ_eq_differ
  rw [(differ_eq_false_iff b c).mp alike]

/-- Nodes that are not told apart have alike sequences in every field. -/
theorem eraseItems_field_of_alike
    {a b : Node} (structural : a.kind.isLexical = false)
    (sameKind : a.kind = b.kind) (alike : a.differ b = false) (name : String) :
    eraseItems (a.field name) = eraseItems (b.field name) := by
  have equal : erase a.toTree = erase b.toTree :=
    (differ_eq_false_iff a.toTree b.toTree).mp alike
  rw [Node.toTree, Node.toTree, structural_erase_eq_iff structural (sameKind ▸ structural)]
    at equal
  simpa [Node.field] using congrArg (Fields.get name) equal.2

/-- Two trees are not told apart exactly when their erasures are equal, nodes
are compared as the trees that they are, and not being told apart is an
equivalence relation. -/
theorem differ_characterised_by_erasure :
    (∀ a b : Tree, differ a b = false ↔ erase a = erase b) ∧
      (∀ a b : Node, a.differ b = false ↔ erase a.toTree = erase b.toTree) ∧
      (∀ a b : Node, a.differ b = differ a.toTree b.toTree) ∧
      Equivalence (fun a b : Tree => differ a b = false) := by
  refine ⟨differ_eq_false_iff, ?_, fun _ _ => rfl, ?_⟩
  · intro a b
    exact differ_eq_false_iff a.toTree b.toTree
  · refine ⟨?_, ?_, ?_⟩
    · intro a
      exact (differ_eq_false_iff a a).mpr rfl
    · intro a b alike
      exact (differ_eq_false_iff b a).mpr ((differ_eq_false_iff a b).mp alike).symm
    · intro a b c alikeFirst alikeSecond
      have firstErasure := (differ_eq_false_iff a b).mp alikeFirst
      have secondErasure := (differ_eq_false_iff b c).mp alikeSecond
      exact (differ_eq_false_iff a c).mpr (firstErasure.trans secondErasure)

end ShapeAudit.Shape
