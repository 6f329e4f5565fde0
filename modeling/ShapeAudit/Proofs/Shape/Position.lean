import Mathlib.Data.List.Sort
import ShapeAudit.Proofs.Shape.Erasure
import ShapeAudit.Proofs.Shape.Fields

/-!
# Positions and what is compared there

A position leads down from the root of a tree by field names and indices.  The
sequence in a field is a value of its own, so a difference in length has a
position too.  At a position that two trees share, the two values either agree
or differ for one reason.  Positions are ordered as they are traversed: a
position before those below it, fields by their names, items by their indices.
-/

namespace ShapeAudit.Shape

open Shape.Tree

/-! ## Positions -/

/-- One step down: into a field of a node, or to an item of a sequence. -/
inductive Move where
  | field (name : String)
  | index (place : Nat)
  deriving DecidableEq

/-- Of two moves from one value, the one that is traversed first. -/
def Move.Before : Move → Move → Prop
  | .field first, .field second => Text.lessThan first second = true
  | .index first, .index second => first < second
  | _, _ => False

/-- The way from the root of a tree to a value in it. -/
abbrev Position := List Move

/-- The order of the traversal. -/
abbrev Position.Before (first second : Position) : Prop :=
  List.Lex Move.Before first second

namespace Tree

/-- Whether a value is a lexical node. -/
def isLexical : Tree → Bool
  | .node kind _ _ => kind.isLexical
  | _ => false

/-- The value one step below another. -/
def child? : Move → Tree → Option Tree
  | .field name, .node _ fields _ => (Fields.find? name fields).map .list
  | .index place, .list items => items[place]?
  | _, _ => none

mutual

/-- A tree in which every node has its fields in increasing order of their
names, each name once. -/
def Ordered : Tree → Prop
  | .node _ fields _ => Fields.Ascending fields ∧ OrderedFields fields
  | .list items => OrderedItems items
  | .word _ => True

/-- A sequence of such trees. -/
def OrderedItems : List Tree → Prop
  | [] => True
  | item :: rest => Ordered item ∧ OrderedItems rest

/-- Fields that hold such trees. -/
def OrderedFields : List (String × List Tree) → Prop
  | [] => True
  | (_, items) :: rest => OrderedItems items ∧ OrderedFields rest

end

theorem ordered_of_mem
    {items : List Tree} (ordered : OrderedItems items)
    {item : Tree} (isItem : item ∈ items) :
    Ordered item := by
  induction items with
  | nil =>
      cases isItem
  | cons head rest inductionHypothesis =>
      rw [OrderedItems] at ordered
      rcases List.mem_cons.mp isItem with rfl | inRest
      · exact ordered.1
      · exact inductionHypothesis ordered.2 inRest

theorem orderedItems_of_mem
    {fields : Fields} (ordered : OrderedFields fields)
    {field : String × List Tree} (isField : field ∈ fields) :
    OrderedItems field.2 := by
  induction fields with
  | nil =>
      cases isField
  | cons head rest inductionHypothesis =>
      rw [OrderedFields] at ordered
      rcases List.mem_cons.mp isField with rfl | inRest
      · exact ordered.1
      · exact inductionHypothesis ordered.2 inRest

theorem ordered_of_child?
    {move : Move} {tree child : Tree}
    (ordered : Ordered tree) (isChild : child? move tree = some child) :
    Ordered child := by
  cases move with
  | field name =>
      cases tree with
      | node kind fields text =>
          simp only [child?, Option.map_eq_some_iff] at isChild
          obtain ⟨items, found, rfl⟩ := isChild
          rw [Ordered] at ordered
          simpa [Ordered] using
            orderedItems_of_mem ordered.2 (Fields.mem_of_find? found)
      | list _ | word _ =>
          cases isChild
  | index place =>
      cases tree with
      | list items =>
          rw [Ordered] at ordered
          exact ordered_of_mem ordered (List.mem_of_getElem? isChild)
      | node _ _ _ | word _ =>
          cases isChild

end Tree

/-! ## The comparison at one position -/

/-- Which of node, sequence and word a value is. -/
inductive Form where
  | node
  | list
  | word
  deriving DecidableEq

/-- What a value is. -/
def Tree.form : Tree → Form
  | .node _ _ _ => .node
  | .list _ => .list
  | .word _ => .word

/-- Two values differ by themselves, whatever stands below them, and why. -/
inductive Mismatch : Tree → Tree → Reason → Prop where
  | lexical {a b : Tree} :
      a.isLexical ≠ b.isLexical →
      Mismatch a b .lexicalMismatch
  | kind {kindA kindB : Kind} {fieldsA fieldsB : Fields} {textA textB : Option String} :
      kindA.isLexical = false →
      kindB.isLexical = false →
      kindA ≠ kindB →
      Mismatch (.node kindA fieldsA textA) (.node kindB fieldsB textB) .kindMismatch
  | fields {kind : Kind} {fieldsA fieldsB : Fields} {textA textB : Option String}
      {name : String} :
      kind.isLexical = false →
      Fields.has name fieldsA ≠ Fields.has name fieldsB →
      Mismatch (.node kind fieldsA textA) (.node kind fieldsB textB) .fieldMismatch
  | length {itemsA itemsB : List Tree} :
      itemsA.length ≠ itemsB.length →
      Mismatch (.list itemsA) (.list itemsB) .lengthMismatch
  | text {wordA wordB : String} :
      wordA ≠ wordB →
      Mismatch (.word wordA) (.word wordB) .textMismatch
  | shape {a b : Tree} :
      a.isLexical = false →
      b.isLexical = false →
      a.form ≠ b.form →
      Mismatch a b .shapeMismatch

/-- Two values differ for one reason at most. -/
theorem Mismatch.unique
    {a b : Tree} {first second : Reason}
    (isFirst : Mismatch a b first) (isSecond : Mismatch a b second) :
    first = second := by
  cases isFirst <;> cases isSecond <;> simp_all [Tree.isLexical, Tree.form]

/-! ## The traversal of two trees -/

/-- Two trees share a position, with the values that they have there, and no
pair of lexical nodes stands above it: the traversal gets there. -/
inductive Meets : Tree → Tree → Position → Tree → Tree → Prop where
  | here (a b : Tree) : Meets a b [] a b
  | deeper {a b x y u v : Tree} {move : Move} {rest : Position} :
      ¬(a.isLexical = true ∧ b.isLexical = true) →
      child? move a = some x →
      child? move b = some y →
      Meets x y rest u v →
      Meets a b (move :: rest) u v

/-- Two trees differ at a position, for one reason, and nowhere that is
traversed before. -/
structure FirstDifference (a b : Tree) (position : Position) (reason : Reason) : Prop where
  differs :
    ∃ u v, Meets a b position u v ∧ ∀ other, Mismatch u v other ↔ other = reason
  agreesBefore :
    ∀ (earlier : Position) (u v : Tree), Meets a b earlier u v →
      earlier.Before position → ∀ other, ¬ Mismatch u v other

/-! ## Trees with equal erasures agree everywhere -/

namespace Tree

theorem erase_eq_anyLeaf_iff (tree : Tree) :
    erase tree = anyLeaf ↔ tree.isLexical = true := by
  cases tree with
  | node kind fields text =>
      cases lexical : kind.isLexical with
      | true =>
          simp [isLexical, lexical]
      | false =>
          simp [isLexical, lexical, structural_ne_anyLeaf lexical]
  | list items =>
      simp [erase, anyLeaf, isLexical]
  | word value =>
      simp [erase, anyLeaf, isLexical]

theorem isLexical_eq_of_erase_eq
    {a b : Tree} (equal : erase a = erase b) :
    a.isLexical = b.isLexical := by
  apply Bool.eq_iff_iff.mpr
  rw [← erase_eq_anyLeaf_iff, ← erase_eq_anyLeaf_iff, equal]

theorem form_eq_of_erase_eq
    {a b : Tree} (equal : erase a = erase b) :
    a.form = b.form := by
  have formErased : ∀ tree : Tree, (erase tree).form = tree.form := by
    intro tree
    cases tree with
    | node kind fields text =>
        cases lexical : kind.isLexical <;> simp [lexical, form, anyLeaf]
    | list items | word value =>
        simp [erase, form]
  rw [← formErased a, ← formErased b, equal]

end Tree

theorem not_mismatch_of_erase_eq
    {a b : Tree} (equal : erase a = erase b) (reason : Reason) :
    ¬ Mismatch a b reason := by
  intro mismatch
  cases mismatch with
  | lexical oneSided =>
      exact oneSided (isLexical_eq_of_erase_eq equal)
  | kind structuralA structuralB different =>
      exact different ((structural_erase_eq_iff structuralA structuralB).mp equal).1
  | fields structural different =>
      have fieldsEqual := ((structural_erase_eq_iff structural structural).mp equal).2
      rename_i name
      have sameNames := congrArg (Fields.has name) fieldsEqual
      rw [has_eraseFields, has_eraseFields] at sameNames
      exact different sameNames
  | length different =>
      simp only [erase, Tree.list.injEq] at equal
      exact different (length_eq_of_eraseItems_eq equal)
  | text different =>
      simp only [erase, Tree.word.injEq] at equal
      exact different equal
  | shape _ _ different =>
      exact different (form_eq_of_erase_eq equal)

theorem child?_erase_eq
    {a b x y : Tree} {move : Move} (equal : erase a = erase b)
    (traversed : ¬(a.isLexical = true ∧ b.isLexical = true))
    (childA : child? move a = some x) (childB : child? move b = some y) :
    erase x = erase y := by
  have sameLexical := isLexical_eq_of_erase_eq equal
  cases move with
  | field name =>
      cases a with
      | node kindA fieldsA textA =>
          cases b with
          | node kindB fieldsB textB =>
              have structuralA : kindA.isLexical = false := by
                simp_all [Tree.isLexical]
              have structuralB : kindB.isLexical = false := by
                simp_all [Tree.isLexical]
              have fieldsEqual :=
                ((structural_erase_eq_iff structuralA structuralB).mp equal).2
              simp only [child?, Option.map_eq_some_iff] at childA childB
              obtain ⟨itemsA, foundA, rfl⟩ := childA
              obtain ⟨itemsB, foundB, rfl⟩ := childB
              have itemsEqual := congrArg (Fields.find? name) fieldsEqual
              rw [find?_eraseFields, find?_eraseFields, foundA, foundB] at itemsEqual
              simpa [erase] using itemsEqual
          | list _ | word _ =>
              cases childB
      | list _ | word _ =>
          cases childA
  | index place =>
      cases a with
      | list itemsA =>
          cases b with
          | list itemsB =>
              simp only [child?] at childA childB
              simp only [erase, Tree.list.injEq, eraseItems_eq_map] at equal
              have itemsEqual := congrArg (fun items => items[place]?) equal
              simpa [childA, childB] using itemsEqual
          | node _ _ _ | word _ =>
              cases childB
      | node _ _ _ | word _ =>
          cases childA

/-- Trees with equal erasures agree wherever the traversal gets. -/
theorem not_mismatch_of_meets
    {a b u v : Tree} {position : Position} (met : Meets a b position u v)
    (equal : erase a = erase b) (reason : Reason) :
    ¬ Mismatch u v reason := by
  induction met with
  | here a b =>
      exact not_mismatch_of_erase_eq equal reason
  | deeper traversed childA childB _ inductionHypothesis =>
      exact inductionHypothesis (child?_erase_eq equal traversed childA childB)

/-! ## Field names as sets -/

theorem Fields.mem_names_iff (name : String) (fields : Fields) :
    name ∈ Fields.names fields ↔ Fields.has name fields = true := by
  induction fields with
  | nil =>
      simp [Fields.names, Fields.has]
  | cons field rest inductionHypothesis =>
      have restIff : name ∈ rest.map Prod.fst ↔ Fields.has name rest = true :=
        inductionHypothesis
      rw [Fields.names, List.map_cons, List.mem_cons, restIff, Fields.has,
        Bool.or_eq_true, beq_iff_eq, eq_comm]

theorem Fields.names_ascending
    {fields : Fields} (ascending : Fields.Ascending fields) :
    (Fields.names fields).Pairwise fun earlier later =>
      Text.lessThan earlier later = true :=
  List.pairwise_map.mpr ascending

/-- Fields in order with the same set of names have the same sequence of
names. -/
theorem Fields.names_eq_of_has_eq
    {fieldsA fieldsB : Fields}
    (ascendingA : Fields.Ascending fieldsA) (ascendingB : Fields.Ascending fieldsB)
    (sameNames : ∀ name, Fields.has name fieldsA = Fields.has name fieldsB) :
    Fields.names fieldsA = Fields.names fieldsB := by
  have antisymmetric :
      Std.Antisymm fun earlier later : String => Text.lessThan earlier later = true :=
    ⟨fun _ _ below above => by simp [Text.lessThan_asymm below] at above⟩
  have irreflexive :
      Std.Irrefl fun earlier later : String => Text.lessThan earlier later = true :=
    ⟨fun name => by simp [Text.lessThan_irrefl name]⟩
  apply (Fields.names_ascending ascendingA).eq_of_mem_iff (Fields.names_ascending ascendingB)
  intro name
  rw [Fields.mem_names_iff, Fields.mem_names_iff, sameNames name]

end ShapeAudit.Shape
