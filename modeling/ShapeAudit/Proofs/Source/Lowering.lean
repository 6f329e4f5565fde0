import ShapeAudit.Proofs.Shape.Fields
import ShapeAudit.Source.Lowering

/-!
# Lowering child by child

Whatever a child is, lowering it leaves the fields of its parent alone or
pushes one value into one of them.  So the fields stay in order, and what one
child has put into a field stays at its place while the others are lowered.
-/

namespace ShapeAudit.Source

open Shape (Fields)

/-- What one child makes of the fields of its parent. -/
inductive Grown (fields : Fields) : Fields → Prop where
  | kept : Grown fields fields
  | pushed (name : String) (value : Shape.Tree) :
      Grown fields (Fields.push name value fields)

namespace Grown

variable {fields later : Fields}

theorem ascending
    (grown : Grown fields later) (inOrder : Fields.Ascending fields) :
    Fields.Ascending later := by
  cases grown with
  | kept =>
      exact inOrder
  | pushed name value =>
      exact Fields.ascending_push inOrder name value

theorem extends_get
    (grown : Grown fields later) (inOrder : Fields.Ascending fields) (name : String) :
    Fields.get name fields <+: Fields.get name later := by
  cases grown with
  | kept =>
      exact List.prefix_rfl
  | pushed other value =>
      exact Fields.get_push_extends inOrder other name value

end Grown

section Steps

variable {options : Options} {parent : Kind} {field : Option String}
  {rest : List Child} {awaiting : Bool} {fields result : Fields}

private theorem lowerChildren_token
    {spelling : String}
    (lowered : lowerChildren options parent awaiting ((field, .token spelling) :: rest)
      fields = .ok result) :
    ∃ still later,
      Grown fields later ∧ lowerChildren options parent still rest later = .ok result := by
  simp only [lowerChildren] at lowered
  split at lowered
  · split at lowered
    · split at lowered
      · exact ⟨_, _, .pushed _ _, lowered⟩
      · exact ⟨_, _, .kept, lowered⟩
    · exact ⟨_, _, .kept, lowered⟩
  · split at lowered
    · split at lowered
      · exact ⟨_, _, .kept, lowered⟩
      · exact ⟨_, _, .pushed _ _, lowered⟩
    · split at lowered
      · exact ⟨_, _, .pushed _ _, lowered⟩
      · exact ⟨_, _, .kept, lowered⟩

private theorem lowerChildren_named
    {tree : Tree} (named : ∀ spelling, tree = .token spelling → False)
    (lowered : lowerChildren options parent awaiting ((field, tree) :: rest) fields =
      .ok result) :
    ∃ still later,
      Grown fields later ∧ lowerChildren options parent still rest later = .ok result := by
  rw [lowerChildren.eq_4 _ _ _ _ _ _ _ named] at lowered
  split at lowered
  · exact ⟨_, _, .kept, lowered⟩
  · split at lowered
    · exact ⟨_, _, .pushed _ _, lowered⟩
    · cases childLowered : lower options tree with
      | error fault =>
          simp [childLowered, bind, Except.bind] at lowered
      | ok value =>
          simp only [childLowered, bind, Except.bind] at lowered
          cases value with
          | none =>
              exact ⟨_, _, .kept, lowered⟩
          | some node =>
              exact ⟨_, _, .pushed _ _, lowered⟩

/-- The children behind the first are lowered into the fields that the first
one has left. -/
theorem lowerChildren_cons
    {child : Child}
    (lowered : lowerChildren options parent awaiting (child :: rest) fields =
      .ok result) :
    ∃ still later,
      Grown fields later ∧ lowerChildren options parent still rest later = .ok result := by
  obtain ⟨field, tree⟩ := child
  cases tree with
  | token spelling =>
      exact lowerChildren_token lowered
  | leaf kind place spelling =>
      exact lowerChildren_named (fun _ equal => by cases equal) lowered
  | branch kind place children =>
      exact lowerChildren_named (fun _ equal => by cases equal) lowered

end Steps

/-- A child with a shape goes to the end of its field. -/
theorem lowerChildren_of_lower
    {options : Options} {parent : Kind} {field : Option String} {tree : Tree}
    {node : Shape.Node}
    (proper : tree.isProper = true) (noObject : parent.isObject = false)
    (lowered : lower options tree = .ok (some node))
    (awaiting : Bool) (rest : List Child) (fields : Fields) :
    lowerChildren options parent awaiting ((field, tree) :: rest) fields =
      lowerChildren options parent false rest
        (Fields.push (field.getD Shape.childrenField) node.toTree fields) := by
  have named : ∀ spelling, tree = .token spelling → False := by
    rintro spelling rfl
    cases proper
  have notExtra : tree.isExtra = false := by
    simp [Tree.isProper] at proper
    exact proper.2
  simp [lowerChildren.eq_4 _ _ _ _ _ _ _ named, notExtra, noObject, lowered, bind,
    Except.bind]

/-- Lowering children only ever makes fields longer. -/
theorem lowerChildren_extends
    {options : Options} {parent : Kind} {children : List Child} {awaiting : Bool}
    {fields result : Fields} (inOrder : Fields.Ascending fields)
    (lowered : lowerChildren options parent awaiting children fields = .ok result)
    (name : String) :
    Fields.get name fields <+: Fields.get name result := by
  induction children generalizing awaiting fields with
  | nil =>
      simp only [lowerChildren, Except.ok.injEq] at lowered
      subst lowered
      exact List.prefix_rfl
  | cons child rest inductionHypothesis =>
      obtain ⟨still, later, grown, restLowered⟩ := lowerChildren_cons lowered
      exact (grown.extends_get inOrder name).trans
        (inductionHypothesis (grown.ascending inOrder) restLowered)

end ShapeAudit.Source
