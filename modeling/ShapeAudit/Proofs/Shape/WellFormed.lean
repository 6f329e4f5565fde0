import ShapeAudit.Proofs.Shape.Fields

/-!
# Well-formed shapes

What a shape may look like that stands for a source.  Lexical nodes have a text
and nothing else, no field is there without a value, no sequence stands where a
value is expected, and holes stand among the elements of arrays only.  All of it
holds at every depth, so a comparison of field names never meets a field that is
present and empty.
-/

namespace ShapeAudit.Shape

namespace Tree

/-- Whether a value is a node. -/
def isNode : Tree → Bool
  | .node _ _ _ => true
  | _ => false

/-- Whether a value is a node of a kind. -/
def isOf (kind : Kind) : Tree → Bool
  | .node other _ _ => other = kind
  | _ => false

end Tree

/-- Whether nodes of a kind may have holes among their children. -/
def Kind.hasHoles : Kind → Bool
  | .arrayExpression | .arrayPattern => true
  | _ => false

/-- Whether fields hold the pieces of a template: one more stretch of text than
there are expressions. -/
def Alternate (fields : Fields) : Prop :=
  (Fields.get "quasis" fields).length = (Fields.get "expressions" fields).length + 1 ∧
    ∀ quasi ∈ Fields.get "quasis" fields, quasi.isOf .templateElement = true

/-- What holds of a node by itself, whatever stands inside its values. -/
structure Sound (kind : Kind) (fields : Fields) (text : Option String) : Prop where
  ascending : Fields.Ascending fields
  lexical : kind.isLexical = true → fields = [] ∧ text.isSome = true
  structural : kind.isLexical = false → text = none
  filled : ∀ field ∈ fields, field.2 ≠ []
  children : ∀ value ∈ Fields.get childrenField fields, value.isNode = true
  holes : ∀ field ∈ fields, ∀ value ∈ field.2, value.isOf .elision = true →
    field.1 = childrenField ∧ kind.hasHoles = true
  template : kind = .templateLiteral → Alternate fields

/-- Words, and sound nodes whose values are well formed in turn.  A sequence is
not among the well-formed values. -/
inductive WellFormed : Tree → Prop where
  | word (value : String) : WellFormed (.word value)
  | node {kind : Kind} {fields : Fields} {text : Option String}
      (sound : Sound kind fields text)
      (inside : ∀ field ∈ fields, ∀ value ∈ field.2, WellFormed value) :
      WellFormed (.node kind fields text)

/-! ## Values in their fields -/

/-- What a value in a field contributes to the soundness of its node. -/
structure SoundValue (kind : Kind) (name : String) (value : Tree) : Prop where
  wellFormed : WellFormed value
  isNode : name = childrenField → value.isNode = true
  hole : value.isOf .elision = true → name = childrenField ∧ kind.hasHoles = true

namespace SoundValue

variable {kind : Kind} {name other : String} {value : Tree}

theorem of_word (named : name ≠ childrenField) (text : String) :
    SoundValue kind name (.word text) where
  wellFormed := .word text
  isNode := fun isChildren => absurd isChildren named
  hole := nofun

theorem of_node
    {node : Node} (wellFormed : WellFormed node.toTree) (noHole : node.kind ≠ .elision) :
    SoundValue kind name node.toTree where
  wellFormed := wellFormed
  isNode := fun _ => rfl
  hole := by
    intro isHole
    have isElision : node.kind = .elision := by
      simpa [Node.toTree, Tree.isOf] using isHole
    exact absurd isElision noHole

/-- A value that is not among the children may go to another field, also of
another node, and to the children if it is a node. -/
theorem moved
    (sound : SoundValue kind name value) (named : name ≠ childrenField) {parent : Kind}
    (fits : other = childrenField → value.isNode = true) :
    SoundValue parent other value where
  wellFormed := sound.wellFormed
  isNode := fits
  hole := fun isHole => absurd (sound.hole isHole).1 named

end SoundValue

/-! ## Fields of a node -/

/-- Fields in order, none of them empty, with sound values in all of them. -/
structure SoundFields (kind : Kind) (fields : Fields) : Prop where
  ascending : Fields.Ascending fields
  held : ∀ {name values}, Fields.find? name fields = some values →
    values ≠ [] ∧ ∀ value ∈ values, SoundValue kind name value

theorem Fields.find?_of_mem
    {fields : Fields} (ascending : Ascending fields) {name : String} {values : List Tree}
    (isField : (name, values) ∈ fields) :
    find? name fields = some values := by
  induction fields with
  | nil =>
      cases isField
  | cons head rest inductionHypothesis =>
      obtain ⟨headBelow, restAscending⟩ := List.pairwise_cons.mp ascending
      rcases List.mem_cons.mp isField with atHead | inRest
      · simp [find?, ← atHead]
      · have different : head.1 ≠ name :=
          Text.ne_of_lessThan (headBelow _ inRest)
        simpa [find?, different] using inductionHypothesis restAscending inRest

namespace SoundFields

variable {kind : Kind} {fields : Fields}

theorem nil : SoundFields kind [] where
  ascending := Fields.ascending_nil
  held := nofun

theorem of_mem_get
    (sound : SoundFields kind fields) {name : String} {value : Tree}
    (isValue : value ∈ Fields.get name fields) :
    SoundValue kind name value := by
  rw [Fields.get_eq_find?] at isValue
  cases found : Fields.find? name fields with
  | none =>
      simp [found] at isValue
  | some values =>
      rw [found] at isValue
      exact (sound.held found).2 value isValue

/-- A node that is not lexical is well formed around sound fields, a template if
its pieces alternate. -/
theorem wellFormed
    (sound : SoundFields kind fields) (structural : kind.isLexical = false)
    (template : kind = .templateLiteral → Alternate fields) :
    WellFormed (.node kind fields none) := by
  have found : ∀ field ∈ fields, Fields.find? field.1 fields = some field.2 :=
    fun field isField => Fields.find?_of_mem sound.ascending isField
  refine .node ?_ ?_
  · exact
      { ascending := sound.ascending
        lexical := by simp [structural]
        structural := fun _ => rfl
        filled := fun field isField => (sound.held (found field isField)).1
        children := fun value isChild => (sound.of_mem_get isChild).isNode rfl
        holes := fun field isField value isValue =>
          ((sound.held (found field isField)).2 value isValue).hole
        template := template }
  · intro field isField value isValue
    exact ((sound.held (found field isField)).2 value isValue).wellFormed

end SoundFields

theorem wellFormed_leaf {kind : Kind} (lexical : kind.isLexical = true) (text : String) :
    WellFormed (Node.leaf kind text).toTree := by
  have noTemplate : kind ≠ .templateLiteral := by
    rintro rfl
    cases lexical
  have asTree : (Node.leaf kind text).toTree = .node kind [] (some text) := rfl
  rw [asTree]
  refine .node ?_ (by simp)
  exact
    { ascending := Fields.ascending_nil
      lexical := fun _ => ⟨rfl, rfl⟩
      structural := by simp [lexical]
      filled := by simp
      children := by simp [Fields.get]
      holes := by simp
      template := fun isTemplate => absurd isTemplate noTemplate }

theorem wellFormed_bare
    {kind : Kind} (structural : kind.isLexical = false) (noTemplate : kind ≠ .templateLiteral) :
    WellFormed (Node.bare kind).toTree :=
  SoundFields.nil.wellFormed structural fun isTemplate => absurd isTemplate noTemplate

end ShapeAudit.Shape
