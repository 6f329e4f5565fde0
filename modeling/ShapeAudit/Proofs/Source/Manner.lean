import ShapeAudit.Proofs.Shape.Kinds
import ShapeAudit.Proofs.Source.Outline

/-!
# The manner of lowering

What becomes of a tree, and of a child of a tree, is settled by what it is,
whatever the options: options only decide whether lowering goes on.  What a child
leaves is pushed into the fields of its parent, and what was pushed is never
lost, except that the index of a subscript takes the place of its property.
-/

namespace ShapeAudit.Source

open Shape (Fields)
open Shape.Tree (kindsOfFields kindsOfItems mem_kindsOfItems mem_kindsOfFields_push
  mem_kindsOfFields_put mem_kindsOfFields_remove)

/-! ## Pushed and settled fields -/

theorem mem_kindsOfFields_pushAll
    {kind : Shape.Kind} (entries : List Entry) (fields : Fields) :
    kind ∈ kindsOfFields (pushAll entries fields) ↔
      (∃ entry ∈ entries, kind ∈ entry.2.kinds) ∨ kind ∈ kindsOfFields fields := by
  induction entries generalizing fields with
  | nil =>
      simp [pushAll]
  | cons entry rest inductionHypothesis =>
      rw [pushAll_cons, inductionHypothesis, Shape.Tree.mem_kindsOfFields_push]
      simp only [List.mem_cons, exists_eq_or_imp]
      rw [or_left_comm, or_assoc]

theorem mem_kinds_parameterList {kind : Shape.Kind} (values : List Shape.Tree) :
    kind ∈ (parameterList values).kinds ↔
      kind = .formalParameters ∨ kind ∈ kindsOfItems values := by
  rw [parameterList, Shape.Tree.kinds, List.mem_cons, mem_kindsOfFields_pushAll,
    mem_kindsOfItems]
  simp only [List.mem_map, kindsOfFields, List.not_mem_nil, or_false]
  constructor
  · rintro (isList | ⟨_, ⟨value, isValue, rfl⟩, inValue⟩)
    · exact .inl isList
    · exact .inr ⟨value, isValue, inValue⟩
  · rintro (isList | ⟨value, isValue, inValue⟩)
    · exact .inl isList
    · exact .inr ⟨_, ⟨value, isValue, rfl⟩, inValue⟩

theorem mem_kindsOfItems_filter
    {kind : Shape.Kind} (values : List Shape.Tree) :
    kind ∈ kindsOfItems (values.filter isNotVar) ↔ kind ∈ kindsOfItems values := by
  rw [mem_kindsOfItems, mem_kindsOfItems]
  constructor
  · rintro ⟨value, isKept, inValue⟩
    exact ⟨value, (List.mem_filter.mp isKept).1, inValue⟩
  · rintro ⟨value, isValue, inValue⟩
    refine ⟨value, List.mem_filter.mpr ⟨isValue, ?_⟩, inValue⟩
    cases value <;> simp_all [isNotVar, Shape.Tree.asWord?, Shape.Tree.kinds]

theorem mem_kindsOfFields_withoutVar
    {kind : Shape.Kind} {fields : Fields} (ascending : Fields.Ascending fields) :
    kind ∈ kindsOfFields (withoutVar fields) ↔ kind ∈ kindsOfFields fields := by
  unfold withoutVar
  split
  · rfl
  · rw [mem_kindsOfFields_remove Shape.tokensField fields, ← mem_kindsOfItems_filter]
    split
    · rename_i nothingKept
      rw [List.isEmpty_iff.mp nothingKept]
      simp [kindsOfItems]
    · rw [mem_kindsOfFields_put ascending]

/-- Settling drops no node, except that the field `property` of a subscript
gives way to its index, and makes up none but lists of parameters and of
arguments. -/
theorem kindsOfFields_settle
    {parent : Kind} {fields : Fields} (ascending : Fields.Ascending fields)
    (kept : parent = .subscriptExpression → Fields.find? "property" fields = none) :
    ∃ made : List Shape.Kind, made ⊆ [.formalParameters, .arguments] ∧
      ∀ kind, kind ∈ kindsOfFields (settle parent fields) ↔
        kind ∈ made ∨ kind ∈ kindsOfFields fields := by
  rcases settle_cases parent with rfl | rfl | rfl | rfl | unsettled
  · refine ⟨[], by simp, fun kind => ?_⟩
    have noProperty : Fields.find? "property" (Fields.remove "index" fields) = none := by
      rw [Fields.find?_remove_of_ne (by decide), kept rfl]
    simp only [settle]
    split
    · rw [mem_kindsOfFields_put (Fields.ascending_remove ascending _),
        Fields.remove_of_absent noProperty, ← mem_kindsOfFields_remove]
      simp
    · simp
  · have parameters :
        ((Fields.get "parameter" fields).foldl
          (fun node value => Shape.Node.push node Shape.childrenField value)
            (Shape.Node.bare .formalParameters)).toTree =
          parameterList (Fields.get "parameter" fields) :=
      foldl_push_children _ _ _ _
    simp only [settle]
    split
    · refine ⟨[.formalParameters], by simp, fun kind => ?_⟩
      rw [parameters, mem_kindsOfFields_push, mem_kinds_parameterList, List.mem_singleton,
        mem_kindsOfFields_remove "parameter" fields, or_assoc]
    · exact ⟨[], by simp, by simp⟩
  · refine ⟨[], by simp, fun kind => ?_⟩
    rw [settle_variable]
    split
    · simp [mem_kindsOfFields_withoutVar ascending]
    · simp [mem_kindsOfFields_push, mem_kindsOfFields_withoutVar ascending, Shape.Tree.kinds]
  · simp only [settle]
    split
    · exact ⟨[], by simp, by simp⟩
    · refine ⟨[.arguments], by simp, fun kind => ?_⟩
      simp [mem_kindsOfFields_push, Shape.Node.bare, Shape.Node.toTree, Shape.Tree.kinds,
        kindsOfFields]
  · exact ⟨[], by simp, by simp [unsettled]⟩

/-! ## What a tree becomes -/

theorem bind_eq_ok_iff
    {α β : Type} {first : Except Fault α} {next : α → Except Fault β} {result : β} :
    (first >>= next) = .ok result ↔ ∃ value, first = .ok value ∧ next value = .ok result := by
  cases first <;> simp [bind, Except.bind]

/-- What children leave that are not lowered themselves holds only kinds that all
options admit. -/
def Harmless (shape : Shape.Tree) : Prop :=
  ∀ kind ∈ shape.kinds, kind.isJsx = false ∧ kind.isModuleItem = false

/-- The names of the fields that a child in a field can leave something in. -/
def MayFill (field : Option String) (name : String) : Prop :=
  field.getD Shape.childrenField = name ∨ name = Shape.childrenField ∨ name = Shape.tokensField

section Children

variable (parent : Kind) (awaiting : Bool) (field : Option String) (tree : Tree)

/-- What becomes of a child, whatever the options: it leaves something of its
own, or its shape. -/
inductive ChildFate : Prop where
  | leaves (still : Bool) (entries : List Entry)
      (noLine : tree.isA .hashBangLine = false)
      (filled : ∀ entry ∈ entries, MayFill field entry.1 ∧ Harmless entry.2)
      (goesOn : ∀ options rest fields,
        lowerChildren options parent awaiting ((field, tree) :: rest) fields =
          lowerChildren options parent still rest (pushAll entries fields))
  | lowers
      (goesOn : ∀ options rest fields,
        lowerChildren options parent awaiting ((field, tree) :: rest) fields = do
          let shape ← lower options tree
          lowerChildren options parent false rest
            (pushAll (shape.map fun node =>
              (field.getD Shape.childrenField, node.toTree)).toList fields))

theorem childFate_token (spelling : String) :
    ChildFate parent awaiting field (.token spelling) := by
  have elision : Harmless (Shape.Node.bare .elision).toTree := by
    simp [Harmless, Shape.Node.bare, Shape.Node.toTree, Shape.Tree.kinds, kindsOfFields,
      Shape.Kind.isJsx, Shape.Kind.isModuleItem]
  have word : ∀ text, Harmless (.word text) := by
    simp [Harmless, Shape.Tree.kinds]
  cases inArray : parent.isArray with
  | true =>
      by_cases hole : spelling = "," ∧ awaiting = true
      · refine .leaves true [(Shape.childrenField, (Shape.Node.bare .elision).toTree)] rfl ?_ ?_
        · simpa [MayFill] using elision
        · simp [lowerChildren, inArray, hole, pushAll]
      · refine .leaves (decide (spelling = ",") || awaiting) [] rfl (by simp) ?_
        by_cases comma : spelling = "," <;> simp_all [lowerChildren, pushAll]
  | false =>
      cases field with
      | some name =>
          cases modifier : isFieldModifier name spelling with
          | true =>
              exact .leaves awaiting [] rfl (by simp)
                (by simp [lowerChildren, inArray, modifier, pushAll])
          | false =>
              refine .leaves awaiting [(name, .word spelling)] rfl ?_
                (by simp [lowerChildren, inArray, modifier, pushAll])
              simpa [MayFill] using word spelling
      | none =>
          cases kept : isKeptKeyword spelling with
          | true =>
              refine .leaves awaiting [(Shape.tokensField, .word spelling)] rfl ?_
                (by simp [lowerChildren, inArray, kept, pushAll])
              simpa [MayFill] using word spelling
          | false =>
              exact .leaves awaiting [] rfl (by simp)
                (by simp [lowerChildren, inArray, kept, pushAll])

theorem noLine_of_any
    {tree : Tree} {holds : Kind → Bool} (isHeld : tree.kind?.any holds = true)
    (notOfLines : holds .hashBangLine = false) :
    tree.isA .hashBangLine = false := by
  cases isKind : tree.kind? with
  | none =>
      simp [Tree.isA, isKind]
  | some kind =>
      have different : kind ≠ .hashBangLine := by
        rintro rfl
        simp [isKind, notOfLines] at isHeld
      simpa [Tree.isA, isKind] using different

theorem harmless_shorthandProperty (name : String) :
    Harmless (shorthandProperty name).toTree := by
  simp [Harmless, shorthandProperty, Shape.Node.push, Shape.Node.toTree, Shape.Tree.kinds,
    mem_kindsOfFields_push, Shape.Node.bare, Shape.Node.leaf, kindsOfFields,
    Shape.Kind.isJsx, Shape.Kind.isModuleItem]

theorem childFate_named
    (named : ∀ spelling, tree = .token spelling → False) :
    ChildFate parent awaiting field tree := by
  have unfolded := fun options rest fields =>
    lowerChildren.eq_4 options parent awaiting fields field tree rest named
  cases extra : tree.isExtra with
  | true =>
      refine .leaves awaiting [] (noLine_of_any extra rfl) (by simp) ?_
      simp [unfolded, extra, pushAll]
  | false =>
      cases shorthand : parent.isObject && tree.kind?.any Kind.isShorthand with
      | true =>
          have isShorthand := (Bool.and_eq_true_iff.mp shorthand).2
          refine .leaves false
            [(field.getD Shape.childrenField, (shorthandProperty tree.spelling).toTree)]
            (noLine_of_any isShorthand rfl) ?_ ?_
          · simpa [MayFill] using harmless_shorthandProperty tree.spelling
          · simp [unfolded, extra, shorthand, pushAll]
      | false =>
          refine .lowers fun options rest fields => ?_
          rw [unfolded]
          cases lower options tree with
          | error fault =>
              simp [extra, shorthand, bind, Except.bind]
          | ok shape =>
              cases shape <;> simp [extra, shorthand, bind, Except.bind, pushAll]

theorem childFate : ChildFate parent awaiting field tree := by
  cases tree with
  | token spelling =>
      exact childFate_token parent awaiting field spelling
  | leaf kind place spelling =>
      exact childFate_named parent awaiting field _ fun _ equal => by cases equal
  | branch kind place children =>
      exact childFate_named parent awaiting field _ fun _ equal => by cases equal

end Children

/-- The node of a shape that is made of what a tree spells or of what its
children leave. -/
def builtNode (options : Options) (kind : Kind) (text : String) (children : List Child)
    (shape : Shape.Kind) : Except Fault (Option Shape.Node) := do
  if shape.isLexical then return some (Shape.Node.leaf shape text)
  if shape = .jsxText then return some (Shape.Node.bare shape)
  let fields ← lowerChildren options kind true children []
  return some ⟨shape, settle kind fields, none⟩

/-- Whether nodes of a kind are lowered to nodes of their own. -/
def Kind.isBuilt : Kind → Bool
  | .comment | .htmlComment | .hashBangLine | .parenthesizedExpression | .computedPropertyName
  | .templateString | .privatePropertyIdentifier => false
  | _ => true

/-- A node of its own has what its children leave. -/
theorem lower_of_lowerChildren
    {options : Options} {kind : Kind} (isBuilt : kind.isBuilt = true) {place : Place}
    {shape : Shape.Kind} (gated : shapeOf options kind place = .ok shape)
    (structural : shape.isLexical = false) (noText : shape ≠ .jsxText)
    {children : List Child} {fields : Fields}
    (lowered : lowerChildren options kind true children [] = .ok fields) :
    lower options (.branch kind place children) = .ok (some ⟨shape, settle kind fields, none⟩) := by
  unfold lower
  split
  · cases isBuilt
  · cases isBuilt
  · cases isBuilt
  · cases isBuilt
  · cases isBuilt
  · cases isBuilt
  · cases isBuilt
  · simp [gated, structural, noText, lowered, bind, Except.bind, pure, Except.pure]

/-- How a tree is lowered, whatever the options: to something fixed, not at all
unless a first line is accepted, as its first proper child, as a template, or as
a node of its own around what its children leave. -/
inductive Manner (tree : Tree) : Prop where
  | fixed (shape : Option Shape.Node)
      (harmless : ∀ node ∈ shape, Harmless node.toTree)
      (lowered : ∀ options, lower options tree = .ok shape)
  | line (isLine : tree.isA .hashBangLine = true)
  | wrapper
      (lowered : ∀ options, lower options tree = lowerFirst options tree.children)
  | template
      (lowered : ∀ options, lower options tree = do
        let fields ← lowerTemplate options "" tree.children []
        return some ⟨.templateLiteral, fields, none⟩)
  | node (kind : Kind) (place : Place) (text : String)
      (isKind : tree.kind? = some kind)
      (lowered : ∀ options, lower options tree =
        shapeOf options kind place >>= builtNode options kind text tree.children)

theorem harmless_privateName (name : String) :
    Harmless ((Shape.Node.bare .privateIdentifier).push "name" (.word name)).toTree := by
  simp [Harmless, Shape.Node.push, Shape.Node.toTree, Shape.Tree.kinds, mem_kindsOfFields_push,
    Shape.Node.bare, kindsOfFields, Shape.Kind.isJsx, Shape.Kind.isModuleItem]

theorem harmless_emptyTemplate :
    Harmless ((Shape.Node.bare .templateLiteral).push "quasis"
      (Shape.Node.leaf .templateElement "").toTree).toTree := by
  simp [Harmless, Shape.Node.push, Shape.Node.toTree, Shape.Tree.kinds, mem_kindsOfFields_push,
    Shape.Node.bare, Shape.Node.leaf, kindsOfFields, Shape.Kind.isJsx, Shape.Kind.isModuleItem]

theorem manner_leaf (kind : Kind) (place : Place) (spelling : String) :
    Manner (.leaf kind place spelling) := by
  by_cases isEmpty : kind = .comment ∨ kind = .htmlComment ∨ kind = .parenthesizedExpression ∨
      kind = .computedPropertyName
  · refine .fixed none (by simp) fun options => ?_
    rcases isEmpty with rfl | rfl | rfl | rfl <;> rw [lower]
  by_cases isLine : kind = .hashBangLine
  · exact .line (by simp [isLine, Tree.isA, Tree.kind?])
  by_cases isTemplate : kind = .templateString
  · subst isTemplate
    refine .fixed (some ((Shape.Node.bare .templateLiteral).push "quasis"
      (Shape.Node.leaf .templateElement "").toTree)) ?_ fun options => by rw [lower]
    rintro _ ⟨⟩
    exact harmless_emptyTemplate
  by_cases isPrivate : kind = .privatePropertyIdentifier
  · subst isPrivate
    refine .fixed (some ((Shape.Node.bare .privateIdentifier).push "name" (.word spelling))) ?_
      fun options => by rw [lower]
    rintro _ ⟨⟩
    exact harmless_privateName spelling
  obtain ⟨noComment, noHtml, noParentheses, noComputed⟩ := by
    simpa only [not_or] using isEmpty
  refine .node kind place spelling rfl fun options => ?_
  rw [lower.eq_9 options kind place spelling noComment noHtml isLine noParentheses noComputed
    isTemplate isPrivate]
  rfl

theorem manner_branch (kind : Kind) (place : Place) (children : List Child) :
    Manner (.branch kind place children) := by
  by_cases isComment : kind = .comment ∨ kind = .htmlComment
  · refine .fixed none (by simp) fun options => ?_
    rcases isComment with rfl | rfl <;> rw [lower]
  by_cases isLine : kind = .hashBangLine
  · exact .line (by simp [isLine, Tree.isA, Tree.kind?])
  by_cases isWrapper : kind = .parenthesizedExpression ∨ kind = .computedPropertyName
  · refine .wrapper fun options => ?_
    rcases isWrapper with rfl | rfl <;> rw [lower] <;> rfl
  by_cases isTemplate : kind = .templateString
  · subst isTemplate
    exact .template fun options => by rw [lower]; rfl
  by_cases isPrivate : kind = .privatePropertyIdentifier
  · subst isPrivate
    refine .fixed (some ((Shape.Node.bare .privateIdentifier).push "name"
      (.word (Tree.spellingOf children)))) ?_ fun options => by rw [lower]
    rintro _ ⟨⟩
    exact harmless_privateName _
  obtain ⟨noComment, noHtml⟩ := not_or.mp isComment
  obtain ⟨noParentheses, noComputed⟩ := not_or.mp isWrapper
  refine .node kind place (Tree.spellingOf children) rfl fun options => ?_
  rw [lower.eq_17 options kind place children noComment noHtml isLine noParentheses noComputed
    isTemplate isPrivate]
  rfl

theorem manner (tree : Tree) : Manner tree := by
  cases tree with
  | token spelling =>
      exact .fixed none (by simp) fun options => by rw [lower]
  | leaf kind place spelling =>
      exact manner_leaf kind place spelling
  | branch kind place children =>
      exact manner_branch kind place children

/-! ## Nothing that was pushed is lost -/

theorem lowerChildren_eq_pushAll
    {options : Options} {parent : Kind} {awaiting : Bool} {children : List Child}
    {fields result : Fields}
    (lowered : lowerChildren options parent awaiting children fields = .ok result) :
    ∃ entries, result = pushAll entries fields ∧
      ∀ entry ∈ entries, ∃ child ∈ children, MayFill child.1 entry.1 := by
  induction children generalizing awaiting fields with
  | nil =>
      cases lowered
      exact ⟨[], rfl, by simp⟩
  | cons child rest inductionHypothesis =>
      obtain ⟨field, tree⟩ := child
      cases childFate parent awaiting field tree with
      | leaves still here noLine filled goesOn =>
          rw [goesOn] at lowered
          obtain ⟨entries, rfl, fromRest⟩ := inductionHypothesis lowered
          refine ⟨here ++ entries, (pushAll_append _ _ _).symm, ?_⟩
          intro entry isEntry
          rcases List.mem_append.mp isEntry with isHere | isLater
          · exact ⟨_, List.mem_cons_self, (filled entry isHere).1⟩
          · obtain ⟨other, isOther, fills⟩ := fromRest entry isLater
            exact ⟨other, List.mem_cons_of_mem _ isOther, fills⟩
      | lowers goesOn =>
          rw [goesOn] at lowered
          obtain ⟨shape, -, restLowered⟩ := bind_eq_ok_iff.mp lowered
          obtain ⟨entries, rfl, fromRest⟩ := inductionHypothesis restLowered
          refine ⟨_ ++ entries, (pushAll_append _ _ _).symm, ?_⟩
          intro entry isEntry
          rcases List.mem_append.mp isEntry with isHere | isLater
          · refine ⟨_, List.mem_cons_self, ?_⟩
            cases shape <;> simp_all [MayFill]
          · obtain ⟨other, isOther, fills⟩ := fromRest entry isLater
            exact ⟨other, List.mem_cons_of_mem _ isOther, fills⟩

/-- What a substitution in a template leaves. -/
def substitutionEntries (text : String) (shape : Option Shape.Node) : List Entry :=
  ("quasis", (Shape.Node.leaf .templateElement text).toTree) ::
    (shape.map fun node => ("expressions", node.toTree)).toList

theorem lowerTemplate_substitution
    (options : Options) (text : String) (field : Option String) (place : Place)
    (inner rest : List Child) (fields : Fields) :
    lowerTemplate options text ((field, .branch .templateSubstitution place inner) :: rest)
        fields =
      lowerFirst options inner >>= fun shape =>
        lowerTemplate options "" rest (pushAll (substitutionEntries text shape) fields) := by
  rw [lowerTemplate]
  cases lowerFirst options inner with
  | error fault =>
      rfl
  | ok shape =>
      cases shape <;> rfl

theorem lowerTemplate_eq_pushAll
    {options : Options} {text : String} {children : List Child} {fields result : Fields}
    (lowered : lowerTemplate options text children fields = .ok result) :
    ∃ entries, result = pushAll entries fields := by
  induction children generalizing text fields with
  | nil =>
      simp only [lowerTemplate, Except.ok.injEq] at lowered
      exact ⟨[("quasis", (Shape.Node.leaf .templateElement text).toTree)], lowered.symm⟩
  | cons child rest inductionHypothesis =>
      obtain ⟨field, tree⟩ := child
      by_cases substitution : ∃ place inner, tree = .branch .templateSubstitution place inner
      · obtain ⟨place, inner, rfl⟩ := substitution
        rw [lowerTemplate_substitution] at lowered
        obtain ⟨shape, -, restLowered⟩ := bind_eq_ok_iff.mp lowered
        obtain ⟨entries, rfl⟩ := inductionHypothesis restLowered
        exact ⟨_ ++ entries, (pushAll_append _ _ _).symm⟩
      · obtain ⟨longer, goesOn⟩ := lowerTemplate_text
          (fun place inner isSubstitution => substitution ⟨place, inner, isSubstitution⟩)
          text field rest fields
        exact inductionHypothesis (goesOn options ▸ lowered)

end ShapeAudit.Source
