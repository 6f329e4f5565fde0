import ShapeAudit.Proofs.Shape.Erasure

/-!
# The comparison in the other order

The comparison spells the way to a difference with the kinds of its first tree
alone.  Down to the difference the kinds of both trees are the same, so two
trees taken in the other order are told apart at the same place and for the
same reason.  Only where the kinds themselves differ is the last segment
another one: each order names the kind of the tree that it was given first.
-/

namespace ShapeAudit.Shape

open Shape.Tree

/-! ## One difference, seen from both sides -/

/-- The segments lead down from a tree to a value in it: each names the kind
of a node and one of its fields, or the index of an item. -/
inductive Leads : Tree → List Step → Tree → Prop where
  | here (tree : Tree) : Leads tree [] tree
  | field {kind : Kind} {fields : Fields} {text : Option String} {name : String}
      {items : List Tree} {steps : List Step} {target : Tree} :
      (name, items) ∈ fields →
      Leads (.list items) steps target →
      Leads (.node kind fields text) (.kind kind :: .field name :: steps) target
  | index {items : List Tree} {place : Nat} {item : Tree} {steps : List Step} {target : Tree} :
      items[place]? = some item →
      Leads item steps target →
      Leads (.list items) (.index place :: steps) target

/-- Two trails tell of one difference between two trees, the first in the words
of the first tree and the second in the words of the second. -/
inductive Mirrors (a b : Tree) : Trail → Trail → Prop where
  | same {trail : Trail} :
      trail.reason ≠ .kindMismatch →
      Mirrors a b trail trail
  | kinds {front : List Step} {kindA kindB : Kind} {fieldsA fieldsB : Fields}
      {textA textB : Option String} :
      kindA ≠ kindB →
      Leads a front (.node kindA fieldsA textA) →
      Leads b front (.node kindB fieldsB textB) →
      Mirrors a b ⟨front ++ [.kind kindA], .kindMismatch⟩ ⟨front ++ [.kind kindB], .kindMismatch⟩

/-- A difference between two items is one between the sequences. -/
theorem Mirrors.index
    {itemsA itemsB : List Tree} {place : Nat} {x y : Tree} {there back : Trail}
    (atA : itemsA[place]? = some x) (atB : itemsB[place]? = some y)
    (mirrored : Mirrors x y there back) :
    Mirrors (.list itemsA) (.list itemsB)
      (there.within (.index place)) (back.within (.index place)) := by
  cases mirrored with
  | same otherReason =>
      exact .same otherReason
  | kinds different leadsA leadsB =>
      exact .kinds different (.index atA leadsA) (.index atB leadsB)

/-- A difference between two fields of one name is one between nodes of one
kind. -/
theorem Mirrors.field
    {kind : Kind} {fieldsA fieldsB : Fields} {textA textB : Option String} {name : String}
    {itemsA itemsB : List Tree} {there back : Trail}
    (isFieldA : (name, itemsA) ∈ fieldsA) (isFieldB : (name, itemsB) ∈ fieldsB)
    (mirrored : Mirrors (.list itemsA) (.list itemsB) there back) :
    Mirrors (.node kind fieldsA textA) (.node kind fieldsB textB)
      ((there.within (.field name)).within (.kind kind))
      ((back.within (.field name)).within (.kind kind)) := by
  cases mirrored with
  | same otherReason =>
      exact .same otherReason
  | kinds different leadsA leadsB =>
      exact .kinds different (.field isFieldA leadsA) (.field isFieldB leadsB)

/-! ## The walks in both orders -/

/-- Two sequences are told apart by their lengths in both orders, or else by
their items. -/
theorem treeTrail?_list_exchange
    {itemsA itemsB : List Tree}
    (items : Option.Rel (Mirrors (.list itemsA) (.list itemsB))
      (itemsTrail? 0 itemsA itemsB) (itemsTrail? 0 itemsB itemsA)) :
    Option.Rel (Mirrors (.list itemsA) (.list itemsB))
      (treeTrail? (.list itemsA) (.list itemsB)) (treeTrail? (.list itemsB) (.list itemsA)) := by
  by_cases lengthEqual : itemsA.length = itemsB.length
  · simpa [treeTrail?, lengthEqual] using items
  · have lengthOther : itemsB.length ≠ itemsA.length := Ne.symm lengthEqual
    rw [treeTrail?, treeTrail?, if_pos lengthEqual, if_pos lengthOther]
    exact .some (.same (by simp))

/-- The walk over fields looks at a field as at the sequence in it. -/
theorem fieldsTrail?_cons
    (nameA nameB : String) (itemsA itemsB : List Tree) (restA restB : Fields) :
    fieldsTrail? ((nameA, itemsA) :: restA) ((nameB, itemsB) :: restB) =
      match treeTrail? (.list itemsA) (.list itemsB) with
      | some trail => some (trail.within (.field nameA))
      | none => fieldsTrail? restA restB := by
  rfl

-- The walks over items and over fields are entered at some way into a sequence
-- or into the fields of a node.  What they find is said of the whole.
mutual

theorem treeTrail?_exchange :
    ∀ a b : Tree, Option.Rel (Mirrors a b) (treeTrail? a b) (treeTrail? b a)
  | .node kindA fieldsA textA, .node kindB fieldsB textB => by
      cases lexicalA : kindA.isLexical <;> cases lexicalB : kindB.isLexical
      · by_cases kindEqual : kindA = kindB
        · subst kindEqual
          by_cases namesEqual : Fields.names fieldsA = Fields.names fieldsB
          · have fields :=
              fieldsTrail?_exchange kindA textA textB fieldsA fieldsB fieldsA fieldsB
                (List.Subset.refl _) (List.Subset.refl _) namesEqual
            simp only [treeTrail?, lexicalA, namesEqual, Bool.and_false, Bool.or_false,
              Bool.false_eq_true, ne_eq, not_true_eq_false, if_false]
            generalize fieldsTrail? fieldsA fieldsB = there at fields
            generalize fieldsTrail? fieldsB fieldsA = back at fields
            cases fields with
            | none =>
                exact .none
            | some mirrored =>
                exact .some mirrored
          · have namesOther : Fields.names fieldsB ≠ Fields.names fieldsA := Ne.symm namesEqual
            simp [treeTrail?, lexicalA, namesEqual, namesOther, Mirrors.same]
        · have kindOther : kindB ≠ kindA := Ne.symm kindEqual
          have mirrored := Mirrors.kinds kindEqual (.here (.node kindA fieldsA textA))
            (.here (.node kindB fieldsB textB))
          simpa [treeTrail?, lexicalA, lexicalB, kindEqual, kindOther] using mirrored
      · simp [treeTrail?, lexicalA, lexicalB, Mirrors.same]
      · simp [treeTrail?, lexicalA, lexicalB, Mirrors.same]
      · simp [treeTrail?, lexicalA, lexicalB]
  | .list itemsA, .list itemsB =>
      treeTrail?_list_exchange (itemsTrail?_exchange 0 itemsA itemsB itemsA itemsB rfl rfl)
  | .word a, .word b => by
      by_cases equal : a = b
      · simp [treeTrail?, equal]
      · have other : b ≠ a := Ne.symm equal
        simp [treeTrail?, equal, other, Mirrors.same]
  | .node kind fields text, .list items => by
      simp only [treeTrail?]
      exact .some (.same (by split <;> simp))
  | .node kind fields text, .word value => by
      simp only [treeTrail?]
      exact .some (.same (by split <;> simp))
  | .list items, .node kind fields text => by
      simp only [treeTrail?]
      exact .some (.same (by split <;> simp))
  | .word value, .node kind fields text => by
      simp only [treeTrail?]
      exact .some (.same (by split <;> simp))
  | .list items, .word value => by
      simp only [treeTrail?]
      exact .some (.same (by simp))
  | .word value, .list items => by
      simp only [treeTrail?]
      exact .some (.same (by simp))

theorem itemsTrail?_exchange :
    ∀ (index : Nat) (itemsA itemsB wholeA wholeB : List Tree),
      wholeA.drop index = itemsA → wholeB.drop index = itemsB →
        Option.Rel (Mirrors (.list wholeA) (.list wholeB))
          (itemsTrail? index itemsA itemsB) (itemsTrail? index itemsB itemsA)
  | index, [], [], _, _, _, _ => by
      simp [itemsTrail?]
  | index, [], b :: restB, _, _, _, _ => by
      simp [itemsTrail?]
  | index, a :: restA, [], _, _, _, _ => by
      simp [itemsTrail?]
  | index, a :: restA, b :: restB, wholeA, wholeB, fromA, fromB => by
      have head := treeTrail?_exchange a b
      have rest :=
        itemsTrail?_exchange (index + 1) restA restB wholeA wholeB
          (by rw [← List.drop_drop, fromA]; rfl) (by rw [← List.drop_drop, fromB]; rfl)
      have atA : wholeA[index]? = some a := by
        rw [← List.head?_drop, fromA, List.head?_cons]
      have atB : wholeB[index]? = some b := by
        rw [← List.head?_drop, fromB, List.head?_cons]
      simp only [itemsTrail?]
      generalize treeTrail? a b = there at head
      generalize treeTrail? b a = back at head
      cases head with
      | none =>
          exact rest
      | some mirrored =>
          exact .some (mirrored.index atA atB)

theorem fieldsTrail?_exchange
    (kind : Kind) (textA textB : Option String) :
    ∀ fieldsA fieldsB wholeA wholeB : List (String × List Tree),
      fieldsA ⊆ wholeA → fieldsB ⊆ wholeB →
      Fields.names fieldsA = Fields.names fieldsB →
        Option.Rel
          (fun there back => Mirrors (.node kind wholeA textA) (.node kind wholeB textB)
            (there.within (.kind kind)) (back.within (.kind kind)))
          (fieldsTrail? fieldsA fieldsB) (fieldsTrail? fieldsB fieldsA)
  | [], [], _, _, _, _, _ => by
      simp [fieldsTrail?]
  | [], (nameB, itemsB) :: restB, _, _, _, _, namesEqual => by
      simp [Fields.names] at namesEqual
  | (nameA, itemsA) :: restA, [], _, _, _, _, namesEqual => by
      simp [Fields.names] at namesEqual
  | (nameA, itemsA) :: restA, (nameB, itemsB) :: restB, wholeA, wholeB, partA, partB,
      namesEqual => by
      simp only [Fields.names, List.map_cons, List.cons.injEq] at namesEqual
      obtain ⟨rfl, restNames⟩ := namesEqual
      have head :=
        treeTrail?_list_exchange (itemsTrail?_exchange 0 itemsA itemsB itemsA itemsB rfl rfl)
      have rest :=
        fieldsTrail?_exchange kind textA textB restA restB wholeA wholeB
          (List.subset_of_cons_subset partA) (List.subset_of_cons_subset partB) restNames
      rw [fieldsTrail?_cons, fieldsTrail?_cons]
      generalize treeTrail? (.list itemsA) (.list itemsB) = there at head
      generalize treeTrail? (.list itemsB) (.list itemsA) = back at head
      cases head with
      | none =>
          exact rest
      | some mirrored =>
          exact .some (mirrored.field (partA List.mem_cons_self) (partB List.mem_cons_self))

end

/-! ## What is reported -/

theorem path_append_kind
    (front : List Step) (kind : Kind) (reason : Reason) :
    (Trail.mk (front ++ [.kind kind]) reason).path =
      Trail.extend (Trail.mk front reason).path kind.name := by
  rw [Trail.path, List.foldl_append]
  rfl

/-- Two nodes are told apart in both orders or in neither, and for the same
reason.  The paths are the same unless the kinds differ.  Then both paths go on
from one front, which leads to a node in either tree, and each ends with the
kind of that node in the tree that came first. -/
theorem firstDivergence?_in_other_order (a b : Node) :
    (b.firstDivergence? a = none ↔ a.firstDivergence? b = none) ∧
      ∀ there, a.firstDivergence? b = some there →
        ∃ back, b.firstDivergence? a = some back ∧
          back.reason = there.reason ∧
          (there.reason ≠ .kindMismatch → back.path = there.path) ∧
          (there.reason = .kindMismatch →
            ∃ front kindA fieldsA textA kindB fieldsB textB,
              kindA ≠ kindB ∧
              Leads a.toTree front (.node kindA fieldsA textA) ∧
              Leads b.toTree front (.node kindB fieldsB textB) ∧
              there.path = Trail.extend (Trail.mk front there.reason).path kindA.name ∧
              back.path = Trail.extend (Trail.mk front there.reason).path kindB.name) := by
  have exchanged := treeTrail?_exchange a.toTree b.toTree
  rw [Node.firstDivergence?, Node.firstDivergence?]
  generalize treeTrail? a.toTree b.toTree = trailThere at exchanged
  generalize treeTrail? b.toTree a.toTree = trailBack at exchanged
  cases exchanged with
  | none =>
      simp
  | some mirrored =>
      refine ⟨by simp, ?_⟩
      rintro there ⟨⟩
      refine ⟨_, rfl, ?_⟩
      cases mirrored with
      | same otherReason =>
          exact ⟨rfl, fun _ => rfl, fun isKind => absurd isKind otherReason⟩
      | @kinds front kindA kindB fieldsA fieldsB textA textB different leadsA leadsB =>
          refine ⟨rfl, fun otherReason => absurd rfl otherReason, fun _ => ?_⟩
          exact ⟨front, kindA, fieldsA, textA, kindB, fieldsB, textB, different, leadsA, leadsB,
            path_append_kind front kindA _, path_append_kind front kindB _⟩

/-- A program of a name and a statement of some kind. -/
def statementSample (kind : Kind) : Node :=
  { kind := .program
    fields := [("children", [.node .identifier [] (some "a"), .node kind [] none])] }

/-- An empty statement against a `debugger` statement, which each order names
behind the same index. -/
theorem statementSample_in_other_order :
    (statementSample .emptyStatement).firstDivergence? (statementSample .debuggerStatement) =
        some ⟨"Program.children[1].EmptyStatement", .kindMismatch⟩ ∧
      ∃ back,
        (statementSample .debuggerStatement).firstDivergence? (statementSample .emptyStatement) =
          some back ∧
        back.reason = .kindMismatch ∧ back.path = "Program.children[1].DebuggerStatement" := by
  have reported :
      (statementSample .emptyStatement).firstDivergence? (statementSample .debuggerStatement) =
        some ⟨"Program.children[1].EmptyStatement", .kindMismatch⟩ := by
    decide +kernel
  obtain ⟨back, returned, sameReason, -⟩ :=
    (firstDivergence?_in_other_order _ _).2 _ reported
  refine ⟨reported, back, returned, sameReason, ?_⟩
  have backEqual : some back = some ⟨"Program.children[1].DebuggerStatement", .kindMismatch⟩ :=
    returned.symm.trans (by decide +kernel)
  cases backEqual
  rfl

end ShapeAudit.Shape
