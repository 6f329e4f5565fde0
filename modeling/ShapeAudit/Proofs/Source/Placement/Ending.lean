import Mathlib.Data.List.Induction
import ShapeAudit.Proofs.Source.Directive
import ShapeAudit.Source.Parse

/-!
# What an expression ends with

The children that the reading of an operand gives are comments and then, as the
last one, the operand.  It is a node and no bare token, whatever was read; so
what is put around it later, an operator or a call, begins at a place.
-/

namespace ShapeAudit.Source

namespace Reading

variable {α β : Type}

/-- Whatever a reading gives has a property. -/
def Yields (holds : α → Prop) (reading : Reading α) : Prop :=
  ∀ cursor value later, reading cursor = .ok (value, later) → holds value

namespace Yields

variable {holds : α → Prop} {wanted : β → Prop}

theorem pure {value : α} (given : holds value) : Yields holds (Pure.pure value) := by
  intro cursor other later read
  cases read
  exact given

/-- What comes first has a property that what follows needs. -/
theorem after
    {first : Reading α} {next : α → Reading β} (firsts : Yields holds first)
    (nexts : ∀ value, holds value → Yields wanted (next value)) :
    Yields wanted (first >>= next) := by
  intro cursor value later read
  obtain ⟨found, between, firstRead, nextRead⟩ := bind_eq_ok read
  exact nexts found (firsts cursor found between firstRead) between value later nextRead

theorem bind
    {first : Reading α} {next : α → Reading β} (nexts : ∀ value, Yields wanted (next value)) :
    Yields wanted (first >>= next) := by
  have anything : Yields (fun _ => True) first := by
    intro _ _ _ _
    trivial
  exact anything.after fun value _ => nexts value

theorem ite
    {condition : Prop} [Decidable condition] {first second : Reading α}
    (thens : Yields holds first) (elses : Yields holds second) :
    Yields holds (if condition then first else second) := by
  split
  · exact thens
  · exact elses

theorem stop (wanted : Wanted) : Yields holds (Reading.stop wanted) := by
  intro cursor value later read
  cases read

theorem bounded
    {reading : Nat → Reading α} (everywhere : ∀ bound, Yields holds (reading bound)) :
    Yields holds fun cursor => reading (cursor.rest.length + 1) cursor := by
  intro cursor value later read
  exact everywhere _ cursor value later read

end Yields

/-! ## Last children -/

/-- The last of the children is a node. -/
def EndsInNode (children : List Child) : Prop :=
  (splitLast children).2.kind?.isSome = true

@[simp]
theorem endsInNode_snoc (before : List Child) (field : Option String) (tree : Tree) :
    EndsInNode (before ++ [(field, tree)]) ↔ tree.kind?.isSome = true := by
  simp [EndsInNode, splitLast]

theorem endsInNode_append
    {children : List Child} (ends : EndsInNode children) (before : List Child) :
    EndsInNode (before ++ children) := by
  cases children using List.reverseRecOn with
  | nil =>
      cases ends
  | append_singleton others last =>
      obtain ⟨field, tree⟩ := last
      rw [endsInNode_snoc] at ends
      rw [← List.append_assoc, endsInNode_snoc]
      exact ends

/-- What children end with, once it has been taken apart from the others. -/
theorem isNode_of_ends
    {children before : List Child} {tree : Tree} (ends : EndsInNode children)
    (splits : splitLast children = (before, tree)) :
    tree.kind?.isSome = true := by
  rw [EndsInNode, splits] at ends
  exact ends

theorem takeLeaf_ends (kind : Kind) (length : Nat) :
    Yields EndsInNode (takeLeaf kind length) := by
  refine .bind fun before => ?_
  intro cursor children later read
  cases read
  simp [Tree.kind?]

theorem word_ends (kind : Kind) : Yields EndsInNode (word kind) := by
  refine .bind fun chars => ?_
  split
  · exact .stop _
  · exact takeLeaf_ends _ _

theorem node_ends (kind : Kind) (reading : Reading (List Child)) :
    Yields EndsInNode (node kind reading) :=
  .bind fun _ => .bind fun _ => .bind fun _ => .pure (by simp [Tree.kind?])

end Reading

namespace Grammar

open Reading

theorem construct_ends (reading : Reading (Kind × List Child)) :
    Yields EndsInNode (construct reading) :=
  .bind fun _ => .bind fun _ => .bind fun _ => .pure (by simp [Tree.kind?])

theorem around_ends (kind : Kind) (before : List Child) (first : Tree) (children : List Child) :
    EndsInNode (around kind before first children) := by
  simp [around, Tree.kind?]

theorem lexeme_ends (kind : Kind) (length : Nat) :
    Yields EndsInNode (match length with
      | 0 => Reading.stop .operand
      | length => takeLeaf kind length) := by
  split
  · exact .stop _
  · exact takeLeaf_ends _ _

theorem string_ends : Yields EndsInNode string := by
  unfold string
  exact .bind fun chars => lexeme_ends .string (Lexeme.string chars)

theorem decoratorNames_ends
    (fuel : Nat) (before : List Child) {first : Tree} (isNode : first.kind?.isSome = true) :
    Yields EndsInNode (decoratorNames fuel before first) := by
  induction fuel generalizing first with
  | zero =>
      exact .pure (by simp [isNode])
  | succ fuel inductionHypothesis =>
      exact .bind fun _ => .ite (.bind fun _ => .bind fun _ => inductionHypothesis rfl)
        (.pure (by simp [isNode]))

theorem jsxWord_ends (kind : Kind) :
    Yields (fun found => EndsInNode found.2) (jsxWord kind) :=
  .bind fun _ => .ite (.after (takeLeaf_ends _ _) fun _ ends => .pure ends)
    (.ite (.after (takeLeaf_ends _ _) fun _ ends => .pure ends) (.stop _))

/-! ## Operands -/

section Operands

variable (descend : Descend) (context : Context)

theorem arrowTail_ends (start : Place) (before head : List Child) :
    Yields EndsInNode (arrowTail descend context start before head) :=
  .bind fun _ => .bind fun _ => .pure (by simp [Tree.kind?])

theorem parenthesized_ends : Yields EndsInNode (parenthesized descend context) := by
  refine .bind fun start => .bind fun before => .bind fun opening => .bind fun inside =>
    .bind fun mark => .bind fun isArrow => .ite ?_ (.ite (.pure (by simp [Tree.kind?])) (.stop _))
  split
  · exact arrowTail_ends descend context _ _ _
  · exact .stop _

theorem asyncOperand_ends : Yields EndsInNode (asyncOperand descend context) := by
  refine .bind fun beyond => .ite (construct_ends _) ?_
  refine .bind fun start => .bind fun before => .after (word_ends _) fun name nameEnds =>
    .bind fun _ => .bind fun chars => ?_
  refine .ite (arrowTail_ends descend context _ _ _) (.ite ?_ (.ite ?_ ?_))
  · refine .bind fun children => ?_
    dsimp only
    split
    · refine .bind fun _ => .bind fun isArrow => .ite (.bind fun _ => ?_) (.ite ?_ (.stop _))
      · split
        · exact arrowTail_ends descend context _ _ _
        · exact .stop _
      · exact .pure (by simp [Tree.kind?])
    · exact .stop _
  · exact .bind fun _ => arrowTail_ends descend context _ _ _
  · exact .pure (endsInNode_append nameEnds before)

theorem nameOperand_ends (kind : Kind) :
    Yields EndsInNode (nameOperand descend context kind) :=
  .bind fun _ => .bind fun before => .after (word_ends _) fun _ nameEnds => .bind fun _ =>
    .bind fun _ => .ite (arrowTail_ends descend context _ _ _)
      (.pure (endsInNode_append nameEnds before))

theorem wordOperand_ends (found : String) :
    Yields EndsInNode (wordOperand descend context found) := by
  unfold wordOperand
  split
  · exact construct_ends _
  · exact asyncOperand_ends descend context
  · exact node_ends _ _
  · exact node_ends _ _
  · exact word_ends _
  · exact word_ends _
  · exact word_ends _
  · exact word_ends _
  · exact word_ends _
  · exact word_ends _
  · exact nameOperand_ends descend context _

variable {descend context}

theorem primary_ends (element : Yields EndsInNode (descend .jsxElement)) :
    Yields EndsInNode (primary descend context) := by
  unfold primary
  generalize Lexeme.number = number
  refine .bind fun chars => ?_
  cases chars with
  | nil =>
      exact .stop _
  | cons c rest =>
      refine .ite (parenthesized_ends descend context) <| .ite (node_ends _ _) <|
        .ite (node_ends _ _) <| .ite string_ends <| .ite (node_ends _ _) <|
        .ite (.bind fun _ => .ite (node_ends _ _) element) <| .ite (node_ends _ _) <| .ite ?_ ?_
      · exact lexeme_ends .regex (Lexeme.regex (c :: rest))
      · dsimp only
        split
        · exact .bind fun _ => wordOperand_ends descend context _
        · exact takeLeaf_ends _ _

/-! ## What follows an operand -/

/-- A step behind an operand makes a node of it. -/
theorem suffix_ends (allowed : Suffixes) (base : Tree) :
    Yields (fun found => ∀ tree ∈ found, tree.kind?.isSome = true)
      (suffix descend context allowed base) := by
  have made (kind : Kind) (place : Place) (children : List Child) :
      ∀ tree ∈ some (Tree.branch kind place children), tree.kind?.isSome = true := by
    simp [Tree.kind?]
  have none : ∀ tree ∈ (Option.none : Option Tree), tree.kind?.isSome = true := by
    simp
  unfold suffix
  refine .bind fun mark => .ite (.pure none) (.bind fun chars => ?_)
  split
  · refine .bind fun _ => .bind fun chain => .bind fun _ =>
      .ite (.bind fun _ => .bind fun _ => .pure (made _ _ _)) (.bind fun _ =>
        .ite (.bind fun _ => .bind fun _ => .pure (made _ _ _))
          (.bind fun _ => .pure (made _ _ _)))
  · exact .bind fun _ => .bind fun _ => .bind fun _ => .pure (made _ _ _)
  · exact .ite (.pure none) (.bind fun _ => .bind fun _ => .pure (made _ _ _))
  · exact .ite (.pure none) (.bind fun _ => .bind fun _ => .pure (made _ _ _))
  · exact .ite (.pure none) (.bind fun _ => .bind fun _ => .pure (made _ _ _))
  · exact .ite (.pure none) (.bind fun _ => .bind fun _ => .pure (made _ _ _))
  · exact .ite (.pure none) (.bind fun _ => .bind fun _ => .pure (made _ _ _))
  · exact .pure none

theorem suffixes_ends
    (allowed : Suffixes) (fuel : Nat) {base : Tree} (isNode : base.kind?.isSome = true) :
    Yields (fun tree => tree.kind?.isSome = true)
      (suffixes descend context allowed fuel base) := by
  induction fuel generalizing base with
  | zero =>
      exact .pure isNode
  | succ fuel inductionHypothesis =>
      refine .after (suffix_ends allowed base) fun found foundNode => ?_
      cases found with
      | none =>
          exact .pure isNode
      | some longer =>
          exact inductionHypothesis (foundNode longer rfl)

theorem withSuffixes_ends
    (allowed : Suffixes) {children : List Child} (ends : EndsInNode children) :
    Yields EndsInNode (withSuffixes descend context allowed children) :=
  .after (.bounded fun fuel => suffixes_ends allowed fuel ends) fun _ isNode =>
    .pure (by simp [isNode])

theorem withAssignment_ends {children : List Child} (ends : EndsInNode children) :
    Yields EndsInNode (withAssignment descend context children) := by
  refine .bind fun mark => .ite (.pure ends) (.bind fun chars => .ite ?_ ?_)
  · split
    · exact .bind fun _ => .bind fun _ => .pure (around_ends _ _ _ _)
    · exact .stop _
  · split
    · exact .ite (.bind fun _ => .bind fun _ => .pure (around_ends _ _ _ _)) (.pure ends)
    · exact .pure ends

/-! ## Goals -/

theorem yieldOperand_ends : Yields EndsInNode (yieldOperand descend context) := by
  unfold yieldOperand
  refine .after (node_ends _ _) fun children ends => ?_
  split
  · exact .after (withSuffixes_ends _ ends) fun _ wholeEnds => withAssignment_ends wholeEnds
  · exact .pure ends

theorem newOperand_ends : Yields EndsInNode (newOperand descend context) :=
  .bind fun _ => .ite (node_ends _ _) (node_ends _ _)

theorem operand_ends
    (element : Yields EndsInNode (descend .jsxElement)) (updates : Bool) :
    Yields EndsInNode (operand descend updates context) := by
  refine .bind fun chars => .bind fun found => ?_
  split
  · exact .after (node_ends _ _) fun _ ends => withSuffixes_ends _ ends
  · exact .after (node_ends _ _) fun _ ends => withSuffixes_ends _ ends
  · exact node_ends _ _
  · exact node_ends _ _
  · exact node_ends _ _
  · exact node_ends _ _
  · exact node_ends _ _
  · split
    · exact node_ends _ _
    · exact node_ends _ _
    · exact node_ends _ _
    · exact node_ends _ _
    · exact yieldOperand_ends
    · exact .after newOperand_ends fun _ ends => .after (withSuffixes_ends _ ends)
        fun _ wholeEnds => withAssignment_ends wholeEnds
    · refine .after (primary_ends element) fun first ends => .ite (.pure ends) ?_
      refine .after (withSuffixes_ends _ ends) fun whole wholeEnds => .bind fun _ => ?_
      exact .after (withAssignment_ends wholeEnds) fun _ resultEnds =>
        .bind fun _ => .pure resultEnds

theorem operatorsAfter_ends
    (level fuel : Nat) {left : Tree} (isNode : left.kind?.isSome = true) :
    Yields (fun tree => tree.kind?.isSome = true)
      (operatorsAfter descend level context fuel left) := by
  induction fuel generalizing left with
  | zero =>
      exact .pure isNode
  | succ fuel inductionHypothesis =>
      refine .bind fun mark => ?_
      cases mark with
      | unseen =>
          exact .pure isNode
      | semicolon =>
          exact .pure isNode
      | question =>
          exact .ite (.bind fun _ => .bind fun _ => inductionHypothesis rfl) (.pure isNode)
      | token =>
          refine .bind fun chars => ?_
          cases operatorAt? chars with
          | none =>
              exact .pure isNode
          | some operator =>
              exact .ite (.pure isNode) <| .bind fun _ => .bind fun _ => .bind fun _ =>
                inductionHypothesis rfl

theorem expression_ends
    (operands : Yields EndsInNode
      (descend (.operand true { context with withoutIn := false }))) (level : Nat) :
    Yields EndsInNode (expression descend level context) :=
  .after operands fun _ ends => .after (.bounded fun fuel => operatorsAfter_ends level fuel ends)
    fun _ isNode => .pure (by simp [isNode])

end Operands

/-- Whether a goal is a single expression. -/
def Goal.isSingle : Goal → Bool
  | .expression _ _ | .operand _ _ | .jsxElement => true
  | _ => false

/-- At whatever depth, a single expression ends with a node. -/
theorem reach_ends (depth : Nat) {goal : Goal} (single : goal.isSingle = true) :
    Yields EndsInNode (reach depth goal) := by
  induction depth generalizing goal with
  | zero =>
      exact .stop _
  | succ depth inductionHypothesis =>
      cases goal with
      | expression level context =>
          exact expression_ends (inductionHypothesis rfl) level
      | operand updates context =>
          exact operand_ends (inductionHypothesis rfl) updates
      | jsxElement =>
          exact construct_ends _
      | statement _ | expressions _ | constructed _ | literal =>
          cases single

end Grammar

end ShapeAudit.Source
