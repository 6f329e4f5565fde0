import ShapeAudit.Proofs.Shape.WellFormed
import ShapeAudit.Proofs.Source.Gates

/-!
# Lowering gives well-formed shapes

Every value of a shape was left by a child, and what a child leaves is sound in
the field that it goes to.  Settling the fields of a node moves values, drops
words and makes up lists of parameters and arguments, and the fields stay sound.
Of the concrete tree only what the grammar guarantees is used: no field is named
like that of the children, a bare parameter is no token, and a substitution
holds an expression.
-/

namespace ShapeAudit.Source

open Shape (Fields SoundFields SoundValue WellFormed)
open Shape.Fields (find?)

/-! ## How a shape arises -/

/-- The ways in which a tree can have a shape: as a private name, as what it is
wrapped around, as a template, or as a node built of its text or its children. -/
inductive Lowered (options : Options) (tree : Tree) : Shape.Node → Prop where
  | privateName (name : String) :
      Lowered options tree ((Shape.Node.bare .privateIdentifier).push "name" (.word name))
  | wrapped {node : Shape.Node}
      (inner : lowerFirst options tree.children = .ok (some node)) :
      Lowered options tree node
  | template {fields : Fields}
      (pieces : lowerTemplate options "" tree.children [] = .ok fields) :
      Lowered options tree ⟨.templateLiteral, fields, none⟩
  | built {kind : Kind} {shape : Shape.Kind} {text : String} {node : Shape.Node}
      (isKind : tree.kind? = some kind) (isShape : kind.shape? = some shape)
      (made : builtNode options kind text tree.children shape = .ok (some node)) :
      Lowered options tree node

section Shapes

variable {options : Options}

theorem lowered_of_built
    {tree : Tree} {kind : Kind} (isKind : tree.kind? = some kind) {place : Place}
    {text : String} {node : Shape.Node}
    (made : shapeOf options kind place >>= builtNode options kind text tree.children =
      .ok (some node)) :
    Lowered options tree node := by
  obtain ⟨shape, isShape, built⟩ := bind_eq_ok_iff.mp made
  exact .built isKind (shapeOf_eq_ok_iff.mp isShape).1 built

theorem lowered_of_leaf
    {kind : Kind} {place : Place} {spelling : String} {node : Shape.Node}
    (lowered : lower options (.leaf kind place spelling) = .ok (some node)) :
    Lowered options (.leaf kind place spelling) node := by
  unfold lower at lowered
  split at lowered
  · cases lowered
  · cases lowered
  · split at lowered <;> cases lowered
  · cases lowered
  · cases lowered
  · cases lowered
    exact .template rfl
  · cases lowered
    exact .privateName spelling
  · exact lowered_of_built rfl lowered

theorem lowered_of_branch
    {kind : Kind} {place : Place} {children : List Child} {node : Shape.Node}
    (lowered : lower options (.branch kind place children) = .ok (some node)) :
    Lowered options (.branch kind place children) node := by
  unfold lower at lowered
  split at lowered
  · cases lowered
  · cases lowered
  · split at lowered <;> cases lowered
  · exact .wrapped lowered
  · exact .wrapped lowered
  · obtain ⟨fields, pieces, made⟩ := bind_eq_ok_iff.mp lowered
    cases made
    exact .template pieces
  · cases lowered
    exact .privateName _
  · exact lowered_of_built rfl lowered

theorem lowered_of_lower
    {tree : Tree} {node : Shape.Node} (lowered : lower options tree = .ok (some node)) :
    Lowered options tree node := by
  cases tree with
  | token spelling =>
      cases lowered
  | leaf kind place spelling =>
      exact lowered_of_leaf lowered
  | branch kind place children =>
      exact lowered_of_branch lowered

end Shapes

/-! ## What children leave -/

/-- The entries that one child can leave. -/
inductive Leaves (options : Options) (parent : Kind) : Child → Entry → Prop where
  | hole (child : Child) (isArray : parent.isArray = true) :
      Leaves options parent child
        (Shape.childrenField, (Shape.Node.bare .elision).toTree)
  | word (name spelling : String) :
      Leaves options parent (some name, .token spelling) (name, .word spelling)
  | keyword (spelling : String) :
      Leaves options parent (none, .token spelling) (Shape.tokensField, .word spelling)
  | property (field : Option String) (tree : Tree) (name : String) :
      Leaves options parent (field, tree)
        (field.getD Shape.childrenField, (shorthandProperty name).toTree)
  | shape (field : Option String) {tree : Tree} {node : Shape.Node}
      (lowered : lower options tree = .ok (some node)) :
      Leaves options parent (field, tree) (field.getD Shape.childrenField, node.toTree)

section Children

variable {options : Options} {parent : Kind} {field : Option String} {tree : Tree}
  {rest : List Child} {awaiting : Bool} {fields result : Fields}

theorem leaves_of_token
    {spelling : String}
    (lowered : lowerChildren options parent awaiting ((field, .token spelling) :: rest)
      fields = .ok result) :
    ∃ still here, (∀ entry ∈ here, Leaves options parent (field, .token spelling) entry) ∧
      lowerChildren options parent still rest (pushAll here fields) = .ok result := by
  simp only [lowerChildren] at lowered
  split at lowered
  · rename_i isArray
    split at lowered
    · split at lowered
      · exact ⟨_, [_], by simpa using .hole _ isArray, lowered⟩
      · exact ⟨_, [], by simp, lowered⟩
    · exact ⟨_, [], by simp, lowered⟩
  · split at lowered
    · split at lowered
      · exact ⟨_, [], by simp, lowered⟩
      · exact ⟨_, [_], by simpa using .word _ spelling, lowered⟩
    · split at lowered
      · exact ⟨_, [_], by simpa using .keyword spelling, lowered⟩
      · exact ⟨_, [], by simp, lowered⟩

theorem leaves_of_named
    (named : ∀ spelling, tree = .token spelling → False)
    (lowered : lowerChildren options parent awaiting ((field, tree) :: rest) fields =
      .ok result) :
    ∃ still here, (∀ entry ∈ here, Leaves options parent (field, tree) entry) ∧
      lowerChildren options parent still rest (pushAll here fields) = .ok result := by
  rw [lowerChildren.eq_4 _ _ _ _ _ _ _ named] at lowered
  split at lowered
  · exact ⟨_, [], by simp, lowered⟩
  · split at lowered
    · exact ⟨_, [_], by simpa using .property field tree tree.spelling, lowered⟩
    · obtain ⟨value, childLowered, restLowered⟩ := bind_eq_ok_iff.mp lowered
      cases value with
      | none =>
          exact ⟨_, [], by simp, restLowered⟩
      | some node =>
          exact ⟨_, [_], by simpa using .shape field childLowered, restLowered⟩

theorem leaves_of_cons
    {child : Child}
    (lowered : lowerChildren options parent awaiting (child :: rest) fields = .ok result) :
    ∃ still here, (∀ entry ∈ here, Leaves options parent child entry) ∧
      lowerChildren options parent still rest (pushAll here fields) = .ok result := by
  obtain ⟨field, tree⟩ := child
  cases tree with
  | token spelling =>
      exact leaves_of_token lowered
  | leaf kind place spelling =>
      exact leaves_of_named (fun _ equal => by cases equal) lowered
  | branch kind place children =>
      exact leaves_of_named (fun _ equal => by cases equal) lowered

/-- The fields of a node hold what its children leave and nothing else. -/
theorem leaves_of_lowerChildren
    {children : List Child}
    (lowered : lowerChildren options parent awaiting children fields = .ok result) :
    ∃ entries, result = pushAll entries fields ∧
      ∀ entry ∈ entries, ∃ child ∈ children, Leaves options parent child entry := by
  induction children generalizing awaiting fields with
  | nil =>
      cases lowered
      exact ⟨[], rfl, by simp⟩
  | cons child rest inductionHypothesis =>
      obtain ⟨still, here, fromChild, restLowered⟩ := leaves_of_cons lowered
      obtain ⟨later, rfl, fromRest⟩ := inductionHypothesis restLowered
      refine ⟨here ++ later, (pushAll_append _ _ _).symm, ?_⟩
      intro entry isEntry
      rcases List.mem_append.mp isEntry with isHere | isLater
      · exact ⟨child, List.mem_cons_self, fromChild entry isHere⟩
      · obtain ⟨other, isOther, leaves⟩ := fromRest entry isLater
        exact ⟨other, List.mem_cons_of_mem child isOther, leaves⟩

end Children

/-! ## Sound fields -/

theorem soundFields_pushAll
    {kind : Shape.Kind} {entries : List Entry}
    (sound : ∀ entry ∈ entries, SoundValue kind entry.1 entry.2) :
    SoundFields kind (pushAll entries []) where
  ascending := ascending_pushAll entries Fields.ascending_nil
  held := by
    intro name values found
    rw [find?_pushAll_nil] at found
    obtain ⟨rfl, filled⟩ := asField_eq_some_iff.mp found
    refine ⟨filled, ?_⟩
    intro value isValue
    exact sound (name, value) (mem_valuesIn.mp isValue)

section Settle

variable {kind : Shape.Kind} {fields : Fields} (sound : SoundFields kind fields)

include sound

theorem soundFields_subscript :
    SoundFields kind (settle .subscriptExpression fields) where
  ascending := ascending_settle sound.ascending _
  held := by
    intro name values found
    rw [find?_settle_subscript sound.ascending] at found
    split at found
    · cases found
    · split at found
      · rename_i isProperty
        subst isProperty
        cases index : find? "index" fields with
        | none =>
            rw [index] at found
            exact sound.held found
        | some moved =>
            rw [index] at found
            cases found
            obtain ⟨filled, areSound⟩ := sound.held index
            refine ⟨filled, ?_⟩
            intro value isValue
            exact (areSound value isValue).moved (by decide)
              fun isChildren => absurd isChildren (by decide)
      · exact sound.held found

theorem soundValue_parameterList
    {values : List Shape.Tree} (present : find? "parameter" fields = some values)
    (named : ∀ value ∈ values, value.isNode = true) {name : String} :
    SoundValue kind name (parameterList values) := by
  have listed : SoundFields .formalParameters
      (pushAll (values.map fun value => (Shape.childrenField, value)) []) := by
    apply soundFields_pushAll
    intro entry isEntry
    obtain ⟨value, isValue, rfl⟩ := List.mem_map.mp isEntry
    have soundThere := (sound.held present).2 value isValue
    exact soundThere.moved (by decide) fun _ => named value isValue
  have wellFormed : WellFormed (Shape.Node.mk .formalParameters _ none).toTree :=
    listed.wellFormed rfl nofun
  exact SoundValue.of_node wellFormed nofun

theorem soundFields_arrow
    (named : ∀ value ∈ Fields.get "parameter" fields, value.isNode = true) :
    SoundFields kind (settle .arrowFunction fields) where
  ascending := ascending_settle sound.ascending _
  held := by
    intro name values found
    rw [find?_settle_arrow sound.ascending] at found
    cases present : find? "parameter" fields with
    | none =>
        rw [present] at found
        exact sound.held found
    | some bare =>
        have areNodes : ∀ value ∈ bare, value.isNode = true := by
          simpa [Fields.get_eq_find?, present] using named
        simp only [present] at found
        split at found
        · cases found
        · split at found
          · rename_i isParameters
            cases found
            refine ⟨by simp, ?_⟩
            intro value isValue
            rcases List.mem_append.mp isValue with isOld | isNew
            · rw [isParameters]
              exact sound.of_mem_get isOld
            · rw [List.mem_singleton.mp isNew]
              exact soundValue_parameterList sound present areNodes
          · exact sound.held found

theorem soundFields_variable :
    SoundFields kind (settle .variableDeclaration fields) where
  ascending := ascending_settle sound.ascending _
  held := by
    intro name values found
    rw [find?_settle_variable sound.ascending] at found
    split at found
    · rename_i isTokens
      obtain ⟨tokens, present, kept⟩ := Option.bind_eq_some_iff.mp found
      obtain ⟨rfl, filled⟩ := asField_eq_some_iff.mp kept
      refine ⟨filled, ?_⟩
      intro value isValue
      rw [isTokens]
      exact (sound.held present).2 value (List.mem_filter.mp isValue).1
    · split at found
      · rename_i isKind
        subst isKind
        cases present : find? "kind" fields with
        | none =>
            rw [present] at found
            cases found
            refine ⟨by simp, ?_⟩
            intro value isValue
            rw [List.mem_singleton.mp isValue]
            exact .of_word (by decide) "var"
        | some given =>
            rw [present] at found
            cases found
            exact sound.held present
      · exact sound.held found

theorem soundFields_new :
    SoundFields kind (settle .newExpression fields) where
  ascending := ascending_settle sound.ascending _
  held := by
    intro name values found
    rw [find?_settle_new sound.ascending] at found
    split at found
    · rename_i isArguments
      subst isArguments
      cases present : find? "arguments" fields with
      | none =>
          rw [present] at found
          cases found
          refine ⟨by simp, ?_⟩
          intro value isValue
          rw [List.mem_singleton.mp isValue]
          exact SoundValue.of_node (Shape.wellFormed_bare rfl nofun) nofun
      | some given =>
          rw [present] at found
          cases found
          exact sound.held present
    · exact sound.held found

theorem soundFields_settle
    {parent : Kind}
    (named : parent = .arrowFunction →
      ∀ value ∈ Fields.get "parameter" fields, value.isNode = true) :
    SoundFields kind (settle parent fields) := by
  rcases settle_cases parent with rfl | rfl | rfl | rfl | unsettled
  · exact soundFields_subscript sound
  · exact soundFields_arrow sound (named rfl)
  · exact soundFields_variable sound
  · exact soundFields_new sound
  · rw [unsettled]
    exact sound

end Settle

/-! ## Kinds of shapes -/

theorem shape?_ne_elision (kind : Kind) : kind.shape? ≠ some .elision := by
  cases kind <;> decide

theorem shape?_ne_templateLiteral (kind : Kind) : kind.shape? ≠ some .templateLiteral := by
  cases kind <;> decide

theorem Kind.eq_of_isArray {kind : Kind} (isArray : kind.isArray = true) :
    kind = .array ∨ kind = .arrayPattern := by
  unfold Kind.isArray at isArray
  split at isArray
  · exact .inl rfl
  · exact .inr rfl
  · cases isArray

theorem hasHoles_of_isArray
    {kind : Kind} (isArray : kind.isArray = true) {shape : Shape.Kind}
    (isShape : kind.shape? = some shape) :
    shape.hasHoles = true := by
  rcases Kind.eq_of_isArray isArray with rfl | rfl
  · cases isShape
    rfl
  · cases isShape
    rfl

theorem exists_child_of_lowerFirst
    {options : Options} {children : List Child} {node : Shape.Node}
    (lowered : lowerFirst options children = .ok (some node)) :
    ∃ child ∈ children, lower options child.2 = .ok (some node) := by
  induction children with
  | nil =>
      cases lowered
  | cons child rest inductionHypothesis =>
      obtain ⟨field, tree⟩ := child
      rw [lowerFirst] at lowered
      split at lowered
      · exact ⟨_, List.mem_cons_self, lowered⟩
      · obtain ⟨other, isOther, otherLowered⟩ := inductionHypothesis lowered
        exact ⟨other, List.mem_cons_of_mem _ isOther, otherLowered⟩

theorem kind_of_builtNode
    {options : Options} {kind : Kind} {text : String} {children : List Child}
    {shape : Shape.Kind} {node : Shape.Node}
    (made : builtNode options kind text children shape = .ok (some node)) :
    node.kind = shape := by
  unfold builtNode at made
  split at made
  · cases made
    rfl
  · split at made
    · cases made
      rfl
    · obtain ⟨fields, -, built⟩ := bind_eq_ok_iff.mp made
      cases built
      rfl

/-- No tree is a hole; holes are made by commas only. -/
theorem noHole_of_lower
    {options : Options} {tree : Tree} {node : Shape.Node}
    (lowered : lower options tree = .ok (some node)) :
    node.kind ≠ .elision := by
  induction tree using Tree.induction_children generalizing node with
  | step tree inductionHypothesis =>
    cases lowered_of_lower lowered with
    | privateName name =>
        nofun
    | wrapped inner =>
        obtain ⟨child, isChild, childLowered⟩ := exists_child_of_lowerFirst inner
        exact inductionHypothesis child isChild childLowered
    | template pieces =>
        nofun
    | @built kind shape text _ isKind isShape made =>
        rw [kind_of_builtNode made]
        rintro rfl
        exact shape?_ne_elision kind isShape

/-! ## What the grammar guarantees -/

namespace Tree

mutual

/-- A tree and all trees inside it. -/
def subtrees : Tree → List Tree
  | .token spelling => [.token spelling]
  | .leaf kind place spelling => [.leaf kind place spelling]
  | .branch kind place children => .branch kind place children :: subtreesOf children

/-- All trees inside children. -/
def subtreesOf : List (Option String × Tree) → List Tree
  | [] => []
  | (_, child) :: rest => subtrees child ++ subtreesOf rest

end

theorem mem_subtrees_self (tree : Tree) : tree ∈ tree.subtrees := by
  cases tree <;> simp [subtrees]

theorem mem_subtreesOf {inner : Tree} {children : List Child} :
    inner ∈ subtreesOf children ↔ ∃ child ∈ children, inner ∈ child.2.subtrees := by
  induction children with
  | nil =>
      simp [subtreesOf]
  | cons child rest inductionHypothesis =>
      simp [subtreesOf, inductionHypothesis]

theorem mem_subtrees_of_child
    {tree inner : Tree} {child : Child} (isChild : child ∈ tree.children)
    (isInside : inner ∈ child.2.subtrees) :
    inner ∈ tree.subtrees := by
  cases tree with
  | token spelling =>
      cases isChild
  | leaf kind place spelling =>
      cases isChild
  | branch kind place children =>
      exact List.mem_cons_of_mem _ (mem_subtreesOf.mpr ⟨child, isChild, isInside⟩)

end Tree

/-- Whether lowering gives a node. -/
def givesNode : Except Fault (Option Shape.Node) → Bool
  | .ok (some _) => true
  | _ => false

/-- What the grammar guarantees at every depth of a tree. -/
structure Tree.Grammatical (options : Options) (tree : Tree) : Prop where
  /-- No field has the name of the field of children. -/
  fields : ∀ inner ∈ tree.subtrees, ∀ child ∈ inner.children,
    child.1 ≠ some Shape.childrenField
  /-- The bare parameter of an arrow function is a named node. -/
  parameters : ∀ inner ∈ tree.subtrees, inner.kind? = some .arrowFunction →
    ∀ child ∈ inner.children, child.1 = some "parameter" → child.2.kind?.isSome = true
  /-- The first named child of a substitution is lowered to a node. -/
  substitutions : ∀ inner ∈ tree.subtrees, inner.kind? = some .templateSubstitution →
    givesNode (lowerFirst options inner.children) = true

instance (options : Options) (tree : Tree) : Decidable (tree.Grammatical options) :=
  decidable_of_iff
    ((∀ inner ∈ tree.subtrees, ∀ child ∈ inner.children, child.1 ≠ some Shape.childrenField) ∧
      (∀ inner ∈ tree.subtrees, inner.kind? = some .arrowFunction →
        ∀ child ∈ inner.children, child.1 = some "parameter" → child.2.kind?.isSome = true) ∧
      ∀ inner ∈ tree.subtrees, inner.kind? = some .templateSubstitution →
        givesNode (lowerFirst options inner.children) = true)
    ⟨fun holds => ⟨holds.1, holds.2.1, holds.2.2⟩,
      fun holds => ⟨holds.fields, holds.parameters, holds.substitutions⟩⟩

theorem Tree.Grammatical.child
    {options : Options} {tree : Tree} (grammatical : tree.Grammatical options) {child : Child}
    (isChild : child ∈ tree.children) :
    child.2.Grammatical options where
  fields := fun inner isInside =>
    grammatical.fields inner (Tree.mem_subtrees_of_child isChild isInside)
  parameters := fun inner isInside =>
    grammatical.parameters inner (Tree.mem_subtrees_of_child isChild isInside)
  substitutions := fun inner isInside =>
    grammatical.substitutions inner (Tree.mem_subtrees_of_child isChild isInside)

/-! ## Shapes of grammatical trees -/

theorem wellFormed_privateName (name : String) :
    WellFormed ((Shape.Node.bare .privateIdentifier).push "name" (.word name)).toTree := by
  have named : SoundFields .privateIdentifier (pushAll [("name", .word name)] []) := by
    apply soundFields_pushAll
    intro entry isEntry
    rw [List.mem_singleton.mp isEntry]
    exact SoundValue.of_word (show "name" ≠ Shape.childrenField by decide) name
  exact named.wellFormed rfl nofun

theorem wellFormed_shorthandProperty (name : String) :
    WellFormed (shorthandProperty name).toTree := by
  have noTemplate : Shape.Kind.property ≠ .templateLiteral := by
    decide
  have noHole : Shape.Kind.identifier ≠ .elision := by
    decide
  have word : ∀ field, SoundValue .property field (Shape.Node.leaf .identifier name).toTree :=
    fun field => SoundValue.of_node (Shape.wellFormed_leaf rfl name) noHole
  have pair : SoundFields .property
      (pushAll [("key", (Shape.Node.leaf .identifier name).toTree),
        ("value", (Shape.Node.leaf .identifier name).toTree)] []) := by
    apply soundFields_pushAll
    intro entry isEntry
    simp only [List.mem_cons, List.not_mem_nil, or_false] at isEntry
    rcases isEntry with rfl | rfl
    · exact word "key"
    · exact word "value"
  have asPair : (shorthandProperty name).toTree = .node .property
      (pushAll [("key", (Shape.Node.leaf .identifier name).toTree),
        ("value", (Shape.Node.leaf .identifier name).toTree)] []) none := by
    simp [shorthandProperty, pushAll, Shape.Node.push, Shape.Node.bare, Shape.Node.toTree]
  rw [asPair]
  exact pair.wellFormed rfl fun isTemplate => absurd isTemplate noTemplate

section Nodes

variable {options : Options} {children : List Child}

/-- What a child leaves is sound in the node of its parent. -/
theorem soundValue_of_leaves
    {parent : Kind} {shape : Shape.Kind} (isShape : parent.shape? = some shape)
    {child : Child} (named : child.1 ≠ some Shape.childrenField)
    (wellFormed : ∀ node, lower options child.2 = .ok (some node) → WellFormed node.toTree)
    {entry : Entry} (leaves : Leaves options parent child entry) :
    SoundValue shape entry.1 entry.2 := by
  cases leaves with
  | hole child isArray =>
      exact
        { wellFormed := Shape.wellFormed_bare rfl nofun
          isNode := fun _ => rfl
          hole := fun _ => ⟨rfl, hasHoles_of_isArray isArray isShape⟩ }
  | word name spelling =>
      have otherName : name ≠ Shape.childrenField := fun isChildren => named (by rw [isChildren])
      exact .of_word otherName spelling
  | keyword spelling =>
      exact SoundValue.of_word (show Shape.tokensField ≠ Shape.childrenField by decide) spelling
  | property field tree name =>
      exact SoundValue.of_node (wellFormed_shorthandProperty name) nofun
  | shape field lowered =>
      exact SoundValue.of_node (wellFormed _ lowered) (noHole_of_lower lowered)

/-- Only named nodes leave something in the field of bare parameters. -/
theorem isNode_of_leaves
    {parent : Kind} {child : Child} {value : Shape.Tree}
    (named : child.1 = some "parameter" → child.2.kind?.isSome = true)
    (leaves : Leaves options parent child ("parameter", value)) :
    value.isNode = true := by
  generalize isEntry : ("parameter", value) = entry at leaves
  cases leaves with
  | hole child isArray =>
      exact absurd (Prod.mk.inj isEntry).1 (by decide)
  | word name spelling =>
      obtain ⟨rfl, -⟩ := Prod.mk.inj isEntry
      cases named rfl
  | keyword spelling =>
      exact absurd (Prod.mk.inj isEntry).1 (by decide)
  | property field tree name =>
      rw [(Prod.mk.inj isEntry).2]
      rfl
  | shape field lowered =>
      rw [(Prod.mk.inj isEntry).2]
      rfl

theorem wellFormed_of_builtNode
    {kind : Kind} {shape : Shape.Kind} (isShape : kind.shape? = some shape)
    (fields : ∀ child ∈ children, child.1 ≠ some Shape.childrenField)
    (parameters : kind = .arrowFunction → ∀ child ∈ children, child.1 = some "parameter" →
      child.2.kind?.isSome = true)
    (wellFormed : ∀ child ∈ children, ∀ node, lower options child.2 = .ok (some node) →
      WellFormed node.toTree)
    {text : String} {node : Shape.Node}
    (made : builtNode options kind text children shape = .ok (some node)) :
    WellFormed node.toTree := by
  have noTemplate : shape ≠ .templateLiteral := by
    rintro rfl
    exact shape?_ne_templateLiteral kind isShape
  unfold builtNode at made
  split at made
  · rename_i lexical
    cases made
    exact Shape.wellFormed_leaf lexical text
  rename_i structural
  rw [Bool.not_eq_true] at structural
  split at made
  · cases made
    exact Shape.wellFormed_bare structural noTemplate
  obtain ⟨pushed, lowered, built⟩ := bind_eq_ok_iff.mp made
  cases built
  obtain ⟨entries, rfl, fromChildren⟩ := leaves_of_lowerChildren lowered
  have sound : SoundFields shape (pushAll entries []) := by
    apply soundFields_pushAll
    intro entry isEntry
    obtain ⟨child, isChild, leaves⟩ := fromChildren entry isEntry
    exact soundValue_of_leaves isShape (fields child isChild) (wellFormed child isChild) leaves
  have named : kind = .arrowFunction →
      ∀ value ∈ Fields.get "parameter" (pushAll entries []), value.isNode = true := by
    intro isArrow value isValue
    rw [get_pushAll_nil] at isValue
    obtain ⟨child, isChild, leaves⟩ := fromChildren _ (mem_valuesIn.mp isValue)
    exact isNode_of_leaves (parameters isArrow child isChild) leaves
  exact (soundFields_settle sound named).wellFormed structural
    fun isTemplate => absurd isTemplate noTemplate

end Nodes

/-! ## Templates -/

/-- The entries of a template: stretches of text and expressions by turns, a
stretch of text first and last. -/
structure Pieces (entries : List Entry) : Prop where
  sound : ∀ entry ∈ entries, SoundValue .templateLiteral entry.1 entry.2
  balanced : (valuesIn "quasis" entries).length = (valuesIn "expressions" entries).length + 1
  quasis : ∀ quasi ∈ valuesIn "quasis" entries, quasi.isOf .templateElement = true

theorem soundValue_quasi {kind : Shape.Kind} (name text : String) :
    SoundValue kind name (Shape.Node.leaf .templateElement text).toTree :=
  SoundValue.of_node (Shape.wellFormed_leaf rfl text) nofun

theorem pieces_last (text : String) :
    Pieces [("quasis", (Shape.Node.leaf .templateElement text).toTree)] where
  sound := by
    intro entry isEntry
    rw [List.mem_singleton.mp isEntry]
    exact soundValue_quasi _ text
  balanced := by
    simp
  quasis := by
    intro quasi isQuasi
    rw [valuesIn_cons_self, valuesIn_nil, List.mem_singleton] at isQuasi
    rw [isQuasi]
    rfl

theorem pieces_substitution
    (text : String) {node : Shape.Node} (wellFormed : WellFormed node.toTree)
    (noHole : node.kind ≠ .elision) {later : List Entry} (pieces : Pieces later) :
    Pieces (substitutionEntries text (some node) ++ later) where
  sound := by
    intro entry isEntry
    simp only [substitutionEntries, Option.map_some, Option.toList_some, List.cons_append,
      List.nil_append, List.mem_cons] at isEntry
    rcases isEntry with rfl | rfl | isLater
    · exact soundValue_quasi _ text
    · exact SoundValue.of_node wellFormed noHole
    · exact pieces.sound entry isLater
  balanced := by
    simp [substitutionEntries, pieces.balanced]
  quasis := by
    intro quasi isQuasi
    have isQuasi : quasi = (Shape.Node.leaf .templateElement text).toTree ∨
        quasi ∈ valuesIn "quasis" later := by
      simpa [substitutionEntries] using isQuasi
    rcases isQuasi with rfl | isLater
    · rfl
    · exact pieces.quasis quasi isLater

theorem pieces_of_lowerTemplate
    {options : Options} {children : List Child}
    (wellFormed : ∀ child ∈ children, ∀ node,
      lowerFirst options child.2.children = .ok (some node) → WellFormed node.toTree)
    (substitutions : ∀ child ∈ children, child.2.kind? = some .templateSubstitution →
      givesNode (lowerFirst options child.2.children) = true)
    {text : String} {fields result : Fields}
    (lowered : lowerTemplate options text children fields = .ok result) :
    ∃ entries, result = pushAll entries fields ∧ Pieces entries := by
  induction children generalizing text fields with
  | nil =>
      simp only [lowerTemplate, Except.ok.injEq] at lowered
      exact ⟨[("quasis", (Shape.Node.leaf .templateElement text).toTree)], lowered.symm,
        pieces_last text⟩
  | cons child rest inductionHypothesis =>
      obtain ⟨field, tree⟩ := child
      have inRest := @inductionHypothesis
        (fun other isOther => wellFormed other (List.mem_cons_of_mem _ isOther))
        (fun other isOther => substitutions other (List.mem_cons_of_mem _ isOther))
      by_cases substitution : ∃ place inner, tree = .branch .templateSubstitution place inner
      · obtain ⟨place, inner, rfl⟩ := substitution
        rw [lowerTemplate_substitution] at lowered
        obtain ⟨shape, innerLowered, restLowered⟩ := bind_eq_ok_iff.mp lowered
        have given : givesNode (lowerFirst options inner) = true :=
          substitutions _ List.mem_cons_self rfl
        cases shape with
        | none =>
            rw [innerLowered] at given
            cases given
        | some node =>
            obtain ⟨later, rfl, pieces⟩ := inRest restLowered
            obtain ⟨_, _, nodeLowered⟩ := exists_child_of_lowerFirst innerLowered
            exact ⟨_, (pushAll_append _ _ _).symm,
              pieces_substitution text (wellFormed _ List.mem_cons_self node innerLowered)
                (noHole_of_lower nodeLowered) pieces⟩
      · obtain ⟨longer, goesOn⟩ := lowerTemplate_text
          (fun place inner isSubstitution => substitution ⟨place, inner, isSubstitution⟩)
          text field rest fields
        rw [goesOn] at lowered
        exact inRest lowered

theorem Pieces.wellFormed {entries : List Entry} (pieces : Pieces entries) :
    WellFormed (.node .templateLiteral (pushAll entries []) none) := by
  have alternate : Shape.Alternate (pushAll entries []) := by
    rw [Shape.Alternate, get_pushAll_nil, get_pushAll_nil]
    exact ⟨pieces.balanced, pieces.quasis⟩
  exact (soundFields_pushAll pieces.sound).wellFormed rfl fun _ => alternate

/-! ## Whole trees -/

/-- A grammatical tree, and the first of its children, are lowered to well-formed
nodes if they are lowered to nodes. -/
theorem wellFormed_of_grammatical
    {options : Options} (tree : Tree) (grammatical : tree.Grammatical options) :
    (∀ node, lower options tree = .ok (some node) → WellFormed node.toTree) ∧
      ∀ node, lowerFirst options tree.children = .ok (some node) → WellFormed node.toTree := by
  induction tree using Tree.induction_children with
  | step tree inductionHypothesis =>
    have inChildren := fun child isChild =>
      inductionHypothesis child isChild (grammatical.child isChild)
    have inFirst : ∀ node, lowerFirst options tree.children = .ok (some node) →
        WellFormed node.toTree := by
      intro node lowered
      obtain ⟨child, isChild, childLowered⟩ := exists_child_of_lowerFirst lowered
      exact (inChildren child isChild).1 node childLowered
    have here := Tree.mem_subtrees_self tree
    refine ⟨?_, inFirst⟩
    intro node lowered
    cases lowered_of_lower lowered with
    | privateName name =>
        exact wellFormed_privateName name
    | wrapped inner =>
        exact inFirst node inner
    | template pieces =>
        obtain ⟨entries, rfl, arePieces⟩ := pieces_of_lowerTemplate
          (fun child isChild => (inChildren child isChild).2)
          (fun child isChild => grammatical.substitutions _
            (Tree.mem_subtrees_of_child isChild (Tree.mem_subtrees_self child.2)))
          pieces
        exact arePieces.wellFormed
    | built isKind isShape made =>
        exact wellFormed_of_builtNode isShape (grammatical.fields tree here)
          (fun isArrow => grammatical.parameters tree here (isArrow ▸ isKind))
          (fun child isChild => (inChildren child isChild).1) made

/-- Every shape that a grammatical tree is lowered to is well formed at every
depth, and holes stand in arrays only, so it is none itself.  The same holds of
the shape of a program that leaves no trace. -/
theorem lowered_shapes_are_wellFormed
    {options : Options} {tree : Tree} (grammatical : tree.Grammatical options) :
    (∀ node, lower options tree = .ok (some node) →
      WellFormed node.toTree ∧ node.kind ≠ .elision) ∧
    ∀ program, lowerProgram options tree = .ok program → WellFormed program.toTree := by
  have wellFormed := (wellFormed_of_grammatical tree grammatical).1
  constructor
  · intro node lowered
    exact ⟨wellFormed node lowered, noHole_of_lower lowered⟩
  · intro program lowered
    obtain ⟨shape, shapeLowered, rfl⟩ := lower_of_lowerProgram lowered
    cases shape with
    | none =>
        exact Shape.wellFormed_bare rfl nofun
    | some node =>
        exact wellFormed node shapeLowered

/-- The tree of a declaration with a hole in its pattern, an arrow with a bare
parameter, and a template in a subscript, around a constructor without arguments. -/
def mixedTree : Tree :=
  .branch .variableDeclaration ⟨1, 1⟩
    [(none, .token "var"), (none, .branch .variableDeclarator ⟨1, 5⟩
      [(some "name", .branch .arrayPattern ⟨1, 5⟩
        [(none, .token "["), (none, .token ","), (none, .leaf .identifier ⟨1, 7⟩ "b"),
          (none, .token "]")]),
       (none, .token "="),
       (some "value", .branch .arrowFunction ⟨1, 12⟩
        [(some "parameter", .leaf .identifier ⟨1, 12⟩ "x"), (none, .token "=>"),
         (some "body", .branch .subscriptExpression ⟨1, 17⟩
          [(some "object", .leaf .identifier ⟨1, 17⟩ "x"), (none, .token "["),
           (some "index", .branch .templateString ⟨1, 19⟩
            [(none, .token "\x60"), (none, .leaf .stringFragment ⟨1, 20⟩ "p"),
             (none, .branch .templateSubstitution ⟨1, 21⟩
              [(none, .token "$\x7b"),
               (none, .branch .newExpression ⟨1, 23⟩
                [(none, .token "new"), (some "constructor", .leaf .identifier ⟨1, 27⟩ "F")]),
               (none, .token "\x7d")]),
             (none, .token "\x60")]),
           (none, .token "]")])])]),
      (none, .token ";")]

theorem mixedTree_has_wellFormed_shape :
    mixedTree.Grammatical {} ∧
      ∃ node, lower {} mixedTree = .ok (some node) ∧ WellFormed node.toTree := by
  have grammatical : mixedTree.Grammatical {} := by
    decide +kernel
  obtain ⟨node, lowered⟩ : ∃ node, lower {} mixedTree = .ok (some node) :=
    ⟨_, rfl⟩
  exact ⟨grammatical, node, lowered, ((lowered_shapes_are_wellFormed grammatical).1 node lowered).1⟩

end ShapeAudit.Source
