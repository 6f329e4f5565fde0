import ShapeAudit.Proofs.Source.Placement.Reading
import ShapeAudit.Source.Grammar.Operand

/-!
# Trees judged wherever they stand

While it reads, the grammar looks at trees that it has read already: whether an
expression may still be a pattern, which pattern it is, whether a block may be
an object.  None of these judgements looks at a place, and the trees made in
this way are behind a lead what they are without it, in their places there.
-/

namespace ShapeAudit.Source

open ShapeAudit.Source.Tree (behind childrenBehind)
open Reading

variable {lead : List Char}

/-! ## Kinds -/

@[simp]
theorem isA_behind (kind : Kind) (tree : Tree) : (tree.behind lead).isA kind = tree.isA kind := by
  rw [Tree.isA, Tree.isA, kind?_behind]

@[simp]
theorem isProper_behind (tree : Tree) : (tree.behind lead).isProper = tree.isProper := by
  rw [Tree.isProper, Tree.isProper, kind?_behind, isExtra_behind]

/-- What is judged without places is judged alike behind a lead. -/
theorem judged_alike
    {σ : Type} {judge : Tree → σ} (blind : ∀ tree : Tree, judge (tree.behind lead) = judge tree)
    {tree other : Tree} (same : tree.behind lead = other) :
    judge tree = judge other := by
  rw [← same, blind tree]

theorem spelling_alike {tree other : Tree} (same : tree.behind lead = other) :
    tree.spelling = other.spelling :=
  judged_alike (Tree.spelling_behind lead) same

/-! ## Patterns -/

mutual

@[simp]
theorem isSettled_behind : ∀ tree : Tree, isSettled (tree.behind lead) = isSettled tree
  | .token _ => rfl
  | .leaf _ _ _ => by
      rw [behind, isSettled, isSettled]
  | .branch kind place children => by
      rw [behind, isSettled.eq_def, isSettled.eq_def (.branch kind place children)]
      simp only [areSettled_behind children, areNoSpreads_behind children]

theorem areSettled_behind :
    ∀ children : List (Option String × Tree),
      areSettled (childrenBehind lead children) = areSettled children
  | [] => rfl
  | (field, child) :: rest => by
      rw [childrenBehind, areSettled, areSettled, isSettled_behind child, areSettled_behind rest]

theorem areNoSpreads_behind :
    ∀ children : List (Option String × Tree),
      areNoSpreads (childrenBehind lead children) = areNoSpreads children
  | [] => rfl
  | (field, child) :: rest => by
      rw [childrenBehind, areNoSpreads, areNoSpreads, isA_behind, areNoSpreads_behind rest]

end

mutual

theorem toPattern?_behind :
    ∀ (role : Role) (tree : Tree),
      toPattern? role (tree.behind lead) = (toPattern? role tree).map (behind lead)
  | role, .token spelling => rfl
  | role, .leaf kind place spelling => by
      rw [behind, toPattern?.eq_def, toPattern?.eq_def role (.leaf kind place spelling)]
      dsimp only
      split
      · rfl
      · split <;> (try split) <;> rfl
  | role, .branch kind place children => by
      rw [behind, toPattern?.eq_def, toPattern?.eq_def role (.branch kind place children)]
      dsimp only
      simp only [toPatterns?_behind _ children]
      split
      · rfl
      · split <;> (try split) <;>
          simp [Option.map_map, Function.comp_def, behind]

theorem toPatterns?_behind :
    ∀ (role : Role) (children : List (Option String × Tree)),
      toPatterns? role (childrenBehind lead children) =
        (toPatterns? role children).map (childrenBehind lead)
  | role, [] => rfl
  | role, (field, child) :: rest => by
      rw [childrenBehind, toPatterns?, toPatterns?, toPattern?_behind (role.within field) child,
        toPatterns?_behind role rest]
      cases toPattern? (role.within field) child with
      | none =>
          rfl
      | some pattern =>
          cases toPatterns? role rest with
          | none =>
              rfl
          | some others =>
              rfl

end

theorem toTarget?_behind (tree : Tree) :
    toTarget? (tree.behind lead) = (toTarget? tree).map (behind lead) := by
  rw [toTarget?, toTarget?, isA_behind, toPattern?_behind]
  split
  · rfl
  · rfl

@[simp]
theorem isUpdatable_behind (tree : Tree) : isUpdatable (tree.behind lead) = isUpdatable tree := by
  rw [isUpdatable, isUpdatable, kind?_behind]

@[simp]
theorem isAssignable_behind (tree : Tree) :
    isAssignable (tree.behind lead) = isAssignable tree := by
  rw [isAssignable, isAssignable, isUpdatable_behind, kind?_behind]

/-! ## Children -/

@[simp]
theorem childrenBehind_cons (field : Option String) (tree : Tree) (rest : List Child) :
    childrenBehind lead ((field, tree) :: rest) =
      (field, tree.behind lead) :: childrenBehind lead rest := by
  rfl

@[simp]
theorem childrenBehind_nil : childrenBehind lead [] = [] := by
  rfl

@[simp]
theorem behind_token (spelling : String) :
    (Tree.token spelling).behind lead = .token spelling := by
  rfl

@[simp]
theorem behind_branch (kind : Kind) (place : Place) (children : List Child) :
    (Tree.branch kind place children).behind lead =
      .branch kind (place.behind lead) (childrenBehind lead children) := by
  rfl

/-- A tree behind a lead has the same constructor. -/
theorem behind_cases {tree other : Tree} (same : tree.behind lead = other) :
    (∃ spelling, tree = .token spelling ∧ other = .token spelling) ∨
    (∃ kind place otherPlace spelling,
      tree = .leaf kind place spelling ∧ other = .leaf kind otherPlace spelling ∧
        place.behind lead = otherPlace) ∨
    (∃ kind place otherPlace children others,
      tree = .branch kind place children ∧ other = .branch kind otherPlace others ∧
        place.behind lead = otherPlace ∧ childrenBehind lead children = others) := by
  subst same
  cases tree with
  | token spelling =>
      exact .inl ⟨spelling, rfl, rfl⟩
  | leaf kind place spelling =>
      exact .inr (.inl ⟨kind, place, _, spelling, rfl, rfl, rfl⟩)
  | branch kind place children =>
      exact .inr (.inr ⟨kind, place, _, children, _, rfl, rfl, rfl, rfl⟩)

/-- Choosing children by what is judged without places. -/
theorem childrenBehind_filter
    {keep : Child → Bool} (blind : ∀ child, keep (Prod.map id (behind lead) child) = keep child)
    (children : List Child) :
    childrenBehind lead (children.filter keep) = (childrenBehind lead children).filter keep := by
  rw [childrenBehind_eq_map, childrenBehind_eq_map, List.filter_map]
  congr 2
  funext child
  exact (blind child).symm

theorem childrenJudged_alike
    {σ : Type} {judge : List Child → σ}
    (blind : ∀ children, judge (childrenBehind lead children) = judge children)
    {children others : List Child} (same : childrenBehind lead children = others) :
    judge children = judge others := by
  rw [← same, blind children]

section Alike

variable {children others : List Child} (same : childrenBehind lead children = others)

include same

theorem length_alike : children.length = others.length := by
  simpa [childrenBehind_eq_map] using congrArg List.length same

theorem isEmpty_alike : children.isEmpty = others.isEmpty := by
  simpa [childrenBehind_eq_map] using congrArg List.isEmpty same

theorem filter_alike
    (keep : Child → Bool)
    (blind : ∀ child, keep (Prod.map id (behind lead) child) = keep child) :
    childrenBehind lead (children.filter keep) = others.filter keep := by
  rw [childrenBehind_filter blind, same]

theorem all_alike
    (judge : Child → Bool)
    (blind : ∀ child, judge (Prod.map id (behind lead) child) = judge child) :
    children.all judge = others.all judge := by
  simpa [childrenBehind_eq_map, Function.comp_def, blind] using
    congrArg (fun list => list.all judge) same

end Alike

namespace Grammar

theorem placeOf_behind {tree : Tree} (isNode : tree.kind?.isSome = true) :
    placeOf (tree.behind lead) = (placeOf tree).behind lead := by
  cases tree with
  | token spelling =>
      cases isNode
  | leaf kind place spelling =>
      rfl
  | branch kind place children =>
      rfl

theorem placeOf_alike
    {tree other : Tree} (same : tree.behind lead = other) (isNode : tree.kind?.isSome = true) :
    (placeOf tree).behind lead = placeOf other := by
  rw [← same, placeOf_behind isNode]

@[simp]
theorem childrenBehind_around
    {first : Tree} (isNode : first.kind?.isSome = true) (kind : Kind)
    (before children : List Child) :
    childrenBehind lead (around kind before first children) =
      around kind (childrenBehind lead before) (first.behind lead)
        (childrenBehind lead children) := by
  simp [around, placeOf_behind isNode]

@[simp]
theorem childrenBehind_itemsOf (children : List Child) :
    itemsOf (childrenBehind lead children) = childrenBehind lead (itemsOf children) :=
  (childrenBehind_filter (fun _ => isProper_behind _) children).symm

theorem statementsOf_behind (children : List Child) :
    statementsOf (childrenBehind lead children) = (statementsOf children).map (behind lead) := by
  rw [statementsOf, statementsOf, splitLast_behind]
  cases (splitLast children).2 with
  | token spelling =>
      rfl
  | leaf kind place spelling =>
      rfl
  | branch kind place inner =>
      by_cases isBlock : kind = .statementBlock
      · subst isBlock
        simp [childrenBehind_eq_map, List.filter_map, Function.comp_def]
      · simp [isBlock]

theorem isEmpty_statementsOf_alike
    {children others : List Child} (same : childrenBehind lead children = others) :
    (statementsOf children).isEmpty = (statementsOf others).isEmpty := by
  rw [← same, statementsOf_behind, List.isEmpty_map]

@[simp]
theorem isBareCall_behind (tree : Tree) : isBareCall (tree.behind lead) = isBareCall tree := by
  cases tree with
  | token spelling =>
      rfl
  | leaf kind place spelling =>
      rfl
  | branch kind place children =>
      by_cases isStatement : kind = .expressionStatement
      · subst isStatement
        cases children with
        | nil =>
            rfl
        | cons child rest =>
            obtain ⟨field, inner⟩ := child
            cases inner with
            | token spelling =>
                rfl
            | leaf innerKind innerPlace spelling =>
                rfl
            | branch innerKind innerPlace parts =>
                by_cases isCall : innerKind = .callExpression
                · subst isCall
                  simp [isBareCall, childrenBehind_eq_map, Function.comp_def,
                    Tree.spelling_behind]
                · simp [isBareCall, isCall]
      · simp [isBareCall, isStatement]

theorem mayBeObject_behind (children : List Child) :
    mayBeObject (childrenBehind lead children) = mayBeObject children := by
  rw [mayBeObject, mayBeObject, statementsOf_behind]
  cases statementsOf children with
  | nil =>
      rfl
  | cons first others =>
      cases others with
      | nil =>
          simp
      | cons second rest =>
          simp [Tree.spelling_behind]

theorem mayBePattern_behind (children : List Child) :
    mayBePattern (childrenBehind lead children) = mayBePattern children := by
  rw [mayBePattern, mayBePattern, statementsOf_behind]
  generalize statementsOf children = statements
  rcases statements with _ | ⟨statement, _ | ⟨second, others⟩⟩
  · rfl
  · rcases statement with _ | _ | ⟨kind, place, _ | ⟨⟨field, inner⟩, rest⟩⟩
    · rfl
    · rfl
    · simp
    · by_cases isStatement : kind = .expressionStatement
      · subst isStatement
        rcases inner with _ | _ | ⟨innerKind, innerPlace, _ | ⟨⟨firstField, first⟩, further⟩⟩
        · rfl
        · rfl
        · simp
        · by_cases isSequence : innerKind = .sequenceExpression
          · subst isSequence
            rcases first with _ | _ | ⟨firstKind, firstPlace, _ | ⟨⟨targetField, target⟩, value⟩⟩
            · rfl
            · rfl
            · simp
            · by_cases isAssignment : firstKind = .assignmentExpression
              · subst isAssignment
                simp
              · simp [isAssignment]
          · simp [isSequence]
      · simp [isStatement]
  · simp

theorem hasLastComma_behind (children : List Child) :
    hasLastComma (childrenBehind lead children) = hasLastComma children := by
  rw [hasLastComma, hasLastComma, ← childrenBehind_filter (fun _ => by simp),
    childrenBehind_eq_map, ← List.map_reverse]
  generalize (children.filter fun child => !child.2.isExtra).reverse = others
  rcases others with _ | ⟨last, _ | ⟨child, rest⟩⟩
  · rfl
  · rfl
  · simp [Tree.spelling_behind]

theorem joinItems_behind (children : List Child) :
    joinItems (childrenBehind lead children) = childrenBehind lead (joinItems children) := by
  have areProper : ∀ item ∈ itemsOf children, item.2.isProper = true := by
    simp [itemsOf]
  rw [joinItems, joinItems, childrenBehind_itemsOf]
  generalize itemsOf children = items at areProper
  rcases items with _ | ⟨first, _ | ⟨second, others⟩⟩
  · rfl
  · rfl
  · have isNode : first.2.kind?.isSome = true :=
      (Bool.and_eq_true_iff.mp (areProper first List.mem_cons_self)).1
    simp [childrenBehind_eq_map, placeOf_behind isNode, List.map_take, List.map_drop,
      List.map_dropLast]

theorem hasGap_behind (filled : Bool) (children : List Child) :
    hasGap filled (childrenBehind lead children) = hasGap filled children := by
  induction children generalizing filled with
  | nil =>
      rfl
  | cons child rest inductionHypothesis =>
      obtain ⟨field, tree⟩ := child
      simp [hasGap, inductionHypothesis, Tree.spelling_behind]

@[simp]
theorem isPrimary_behind (tree : Tree) : isPrimary (tree.behind lead) = isPrimary tree := by
  rw [isPrimary, isPrimary, kind?_behind]

@[simp]
theorem isUnfinished_behind (tree : Tree) :
    isUnfinished (tree.behind lead) = isUnfinished tree := by
  rw [isUnfinished, isUnfinished, kind?_behind]

@[simp]
theorem isClosedArrow_behind (tree : Tree) :
    isClosedArrow (tree.behind lead) = isClosedArrow tree := by
  cases tree with
  | token spelling =>
      rfl
  | leaf kind place spelling =>
      rfl
  | branch kind place children =>
      by_cases isArrow : kind = .arrowFunction
      · subst isArrow
        simp [isClosedArrow, childrenBehind_eq_map, Function.comp_def]
      · simp [isClosedArrow, isArrow]

end Grammar

end ShapeAudit.Source
