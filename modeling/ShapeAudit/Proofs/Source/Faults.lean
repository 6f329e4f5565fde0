import ShapeAudit.Proofs.Source.Gates
import ShapeAudit.Source.Parse

/-!
# Faults of sources

Lowering refuses a node for its kind, and a first line that begins with `#!`.
In both cases the fault tells the place of what was refused, and so does the
fault of a source that does not read.  That the grammar is missing, or that
reading ends without a tree, is never a fault of a source.
-/

namespace ShapeAudit.Source

open Shape (Fields)

/-- The place that a fault tells. -/
def Fault.place? : Fault → Option Place
  | .malformed place _ | .unsupported _ place | .moduleOnly place => some place
  | .grammarUnavailable _ | .aborted => none

/-- Which fault a computation has can be decided, whatever it computes. -/
instance decidableEqError {α : Type} (result : Except Fault α) (fault : Fault) :
    Decidable (result = .error fault) :=
  match result with
  | .error other => decidable_of_iff (other = fault) ⟨congrArg Except.error, Except.error.inj⟩
  | .ok _ => isFalse nofun

theorem bind_eq_error_iff
    {α β : Type} {first : Except Fault α} {next : α → Except Fault β} {fault : Fault} :
    (first >>= next) = .error fault ↔
      first = .error fault ∨ ∃ value, first = .ok value ∧ next value = .error fault := by
  cases first <;> simp [bind, Except.bind]

/-- A computation has no faults but such as tell a place. -/
def Placed {α : Type} (result : Except Fault α) : Prop :=
  ∀ fault, result = .error fault → fault.place?.isSome = true

namespace Placed

theorem ok {α : Type} (value : α) : Placed (.ok value) :=
  nofun

theorem bind
    {α β : Type} {first : Except Fault α} {next : α → Except Fault β}
    (firstPlaced : Placed first) (nextPlaced : ∀ value, Placed (next value)) :
    Placed (first >>= next) := by
  intro fault failed
  rcases bind_eq_error_iff.mp failed with failedFirst | ⟨value, -, failedNext⟩
  · exact firstPlaced fault failedFirst
  · exact nextPlaced value fault failedNext

end Placed

section Lowering

variable (options : Options)

theorem placed_shapeOf (kind : Kind) (place : Place) : Placed (shapeOf options kind place) := by
  intro fault refused
  unfold shapeOf at refused
  split at refused
  · cases refused
    rfl
  · split at refused
    · cases refused
      rfl
    · split at refused
      · cases refused
        rfl
      · cases refused

theorem placed_line
    {tree : Tree} (isLine : tree.isA .hashBangLine = true) : Placed (lower options tree) := by
  intro fault refused
  cases tree with
  | token spelling =>
      cases refused
  | leaf kind place spelling | branch kind place spelling =>
      obtain rfl : kind = .hashBangLine := by
        simpa [Tree.isA, Tree.kind?] using isLine
      rw [lower] at refused
      split at refused
      · cases refused
      · cases refused
        rfl

variable {options} {children : List Child}

theorem placed_lowerFirst
    (placed : ∀ child ∈ children, Placed (lower options child.2)) :
    Placed (lowerFirst options children) := by
  induction children with
  | nil =>
      exact .ok none
  | cons child rest inductionHypothesis =>
      obtain ⟨field, tree⟩ := child
      rw [lowerFirst]
      split
      · exact placed _ List.mem_cons_self
      · exact inductionHypothesis fun other isOther => placed other (List.mem_cons_of_mem _ isOther)

theorem placed_lowerChildren
    (placed : ∀ child ∈ children, Placed (lower options child.2)) (parent : Kind)
    (awaiting : Bool) (fields : Fields) :
    Placed (lowerChildren options parent awaiting children fields) := by
  induction children generalizing awaiting fields with
  | nil =>
      exact .ok fields
  | cons child rest inductionHypothesis =>
      obtain ⟨field, tree⟩ := child
      have inRest := inductionHypothesis fun other isOther =>
        placed other (List.mem_cons_of_mem _ isOther)
      cases childFate parent awaiting field tree with
      | leaves still here noLine filled goesOn =>
          rw [goesOn]
          exact inRest still _
      | lowers goesOn =>
          rw [goesOn]
          exact (placed _ List.mem_cons_self).bind fun shape => inRest false _

theorem placed_lowerTemplate
    (placed : ∀ child ∈ children, Placed (lowerFirst options child.2.children)) (text : String)
    (fields : Fields) :
    Placed (lowerTemplate options text children fields) := by
  induction children generalizing text fields with
  | nil =>
      exact .ok _
  | cons child rest inductionHypothesis =>
      obtain ⟨field, tree⟩ := child
      have inRest := inductionHypothesis fun other isOther =>
        placed other (List.mem_cons_of_mem _ isOther)
      by_cases substitution : ∃ place inner, tree = .branch .templateSubstitution place inner
      · obtain ⟨place, inner, rfl⟩ := substitution
        rw [lowerTemplate_substitution]
        exact (placed _ List.mem_cons_self).bind fun shape => inRest "" _
      · obtain ⟨longer, goesOn⟩ := lowerTemplate_text
          (fun place inner isSubstitution => substitution ⟨place, inner, isSubstitution⟩)
          text field rest fields
        rw [goesOn]
        exact inRest longer fields

theorem placed_builtNode
    (placed : ∀ child ∈ children, Placed (lower options child.2)) (kind : Kind) (text : String)
    (shape : Shape.Kind) :
    Placed (builtNode options kind text children shape) := by
  unfold builtNode
  split
  · exact .ok _
  · split
    · exact .ok _
    · exact (placed_lowerChildren placed kind true []).bind fun fields => .ok _

end Lowering

theorem placed_lower (options : Options) (tree : Tree) :
    Placed (lower options tree) ∧ Placed (lowerFirst options tree.children) := by
  induction tree using Tree.induction_children with
  | step tree inductionHypothesis =>
    have inFirst : Placed (lowerFirst options tree.children) :=
      placed_lowerFirst fun child isChild => (inductionHypothesis child isChild).1
    refine ⟨?_, inFirst⟩
    cases manner tree with
    | fixed shape harmless lowered =>
        rw [lowered]
        exact .ok shape
    | line isLine =>
        exact placed_line options isLine
    | wrapper lowered =>
        rw [lowered]
        exact inFirst
    | template lowered =>
        rw [lowered]
        exact (placed_lowerTemplate
          (fun child isChild => (inductionHypothesis child isChild).2) "" []).bind fun _ => .ok _
    | node kind place text isKind lowered =>
        rw [lowered]
        exact (placed_shapeOf options kind place).bind
          (placed_builtNode (fun child isChild => (inductionHypothesis child isChild).1) kind text)

/-- Every fault of a source tells a place. -/
theorem placed_parse (options : Options) (text : String) : Placed (parse options text) := by
  unfold parse
  dsimp only
  split
  · exact (placed_lower options _).1.bind fun _ => .ok _
  · intro fault failed
    cases failed
    rfl

end ShapeAudit.Source
