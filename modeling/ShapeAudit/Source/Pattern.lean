import ShapeAudit.Source.Tree

/-!
Literals that turn out to be patterns. What stands before `=`, `=>`, `in` or `of` is read as an
expression first, because only then does it show that it is a target. An object or array literal that
holds what only a pattern may hold is open until it is decided; turning a literal into a pattern
renames its nodes and refuses those that no pattern has.
-/

namespace ShapeAudit.Source

/-! ## Open literals -/

mutual

/-- Whether a tree may stay an expression: no object in it, reached through literals alone, holds an
entry that only a pattern may hold. -/
def isSettled : Tree → Bool
  | .token _ => true
  | .leaf _ _ _ => true
  | .branch kind _ children =>
    match kind with
    | .objectAssignmentPattern => false
    | .object | .array | .spreadElement => areSettled children
    | .pair => areSettled children && areNoSpreads children
    | _ => true

/-- Whether all children may stay expressions. -/
def areSettled : List (Option String × Tree) → Bool
  | [] => true
  | (_, child) :: rest => isSettled child && areSettled rest

/-- Whether no child is a spread element, which is no value of a pair. -/
def areNoSpreads : List (Option String × Tree) → Bool
  | [] => true
  | (_, child) :: rest => !child.isA .spreadElement && areNoSpreads rest

end

/-! ## Targets -/

/-- The place that a tree takes in a pattern. -/
inductive Role where
  /-- What is assigned to. -/
  | target
  /-- An element of an array pattern, a parameter, or the value of a pair. -/
  | element
  /-- An entry of an object pattern. -/
  | entry
  /-- A part that stays as it is. -/
  | part
  /-- A child of a pair. -/
  | ofPair
  /-- A child of an assignment. -/
  | ofAssignment
  deriving DecidableEq

namespace Role

/-- The role of a child in a field. -/
def within (field : Option String) : Role → Role
  | .ofPair => if field = some "value" then .element else .part
  | .ofAssignment => if field = some "left" then .target else .part
  | role => role

/-- Whether a target may stand in a role. -/
def takesTargets : Role → Bool
  | .target | .element => true
  | _ => false

end Role

mutual

/-- The pattern that a tree stands for in a role. -/
def toPattern? (role : Role) : Tree → Option Tree
  | .token spelling => some (.token spelling)
  | .leaf kind place spelling =>
    if role = .part || kind.isExtra then some (.leaf kind place spelling)
    else match kind with
      | .identifier | .undefinedWord =>
        if role.takesTargets then some (.leaf kind place spelling) else none
      | .shorthandPropertyIdentifier =>
        if role = .entry then some (.leaf .shorthandPropertyIdentifierPattern place spelling)
        else none
      | _ => none
  | .branch kind place children =>
    if role = .part then some (.branch kind place children)
    else match kind with
      | .memberExpression | .subscriptExpression | .objectPattern | .arrayPattern =>
        if role.takesTargets then some (.branch kind place children) else none
      | .object =>
        if role.takesTargets then
          (toPatterns? .entry children).map (.branch .objectPattern place)
        else none
      | .array =>
        if role.takesTargets then
          (toPatterns? .element children).map (.branch .arrayPattern place)
        else none
      | .assignmentExpression =>
        if role = .element then
          (toPatterns? .ofAssignment children).map (.branch .assignmentPattern place)
        else none
      | .spreadElement =>
        if role = .element || role = .entry then
          (toPatterns? .target children).map (.branch .restPattern place)
        else none
      | .pair =>
        if role = .entry then (toPatterns? .ofPair children).map (.branch .pairPattern place)
        else none
      | .objectAssignmentPattern =>
        if role = .entry then some (.branch kind place children) else none
      | _ => none

/-- The patterns that children stand for. -/
def toPatterns? (role : Role) :
    List (Option String × Tree) → Option (List (Option String × Tree))
  | [] => some []
  | (field, child) :: rest =>
    match toPattern? (role.within field) child with
    | none => none
    | some pattern => (toPatterns? role rest).map ((field, pattern) :: ·)

end

/-- The target that a tree stands for before `=`, `in` or `of`. A parenthesised expression stays as
it is. -/
def toTarget? (tree : Tree) : Option Tree :=
  if tree.isA .parenthesizedExpression then some tree else toPattern? .target tree

/-- Whether a tree can be assigned to by an operator such as `+=`. -/
def isUpdatable (tree : Tree) : Bool :=
  match tree.kind? with
  | some .memberExpression | some .subscriptExpression | some .identifier
  | some .parenthesizedExpression => true
  | _ => false

/-- Whether a tree can be assigned to. -/
def isAssignable (tree : Tree) : Bool :=
  isUpdatable tree ||
    match tree.kind? with
    | some .undefinedWord | some .object | some .array => true
    | _ => false

end ShapeAudit.Source
