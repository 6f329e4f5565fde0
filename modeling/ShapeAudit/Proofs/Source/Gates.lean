import ShapeAudit.Proofs.Source.Manner

/-!
# Options as gates

Options decide whether a tree is lowered and never what it is lowered to.  A
kind of shape is admitted or not where its node is met; nothing that has passed
is dropped afterwards, and nothing is made up that would have been refused.  So
what the options have to allow can be read off the shape that the most
permissive ones give.
-/

namespace ShapeAudit.Source

open Shape (Fields)
open Shape.Tree (kindsOfFields)

/-! ## What options admit -/

namespace Options

/-- The options that refuse nothing. -/
def permissive : Options where
  asModule := true
  hashBang := true
  jsx := true

/-- Whether shapes of a kind are accepted. -/
def admits (options : Options) (kind : Shape.Kind) : Bool :=
  (options.jsx || !kind.isJsx) && (options.asModule || !kind.isModuleItem)

/-- Whether options allow no more than others. -/
structure Within (options wider : Options) : Prop where
  asModule : options.asModule = true → wider.asModule = true
  hashBang : options.hashBang = true → wider.hashBang = true
  jsx : options.jsx = true → wider.jsx = true

/-- Whether every kind that the shape of a tree holds is accepted. -/
def AdmitsShape (options : Options) (shape : Option Shape.Node) : Prop :=
  ∀ node ∈ shape, ∀ kind ∈ node.toTree.kinds, options.admits kind = true

/-- Whether every kind that fields hold is accepted. -/
def AdmitsFields (options : Options) (fields : Fields) : Prop :=
  ∀ kind ∈ kindsOfFields fields, options.admits kind = true

/-- Whether a tree is accepted as far as it is a first line that begins with
`#!`. -/
def AdmitsLine (options : Options) (tree : Tree) : Prop :=
  tree.isA .hashBangLine = true → options.hashBang = true

theorem permissive_admits (kind : Shape.Kind) : permissive.admits kind = true := by
  rfl

end Options

theorem shapeOf_eq_ok_iff
    {options : Options} {kind : Kind} {place : Place} {shape : Shape.Kind} :
    shapeOf options kind place = .ok shape ↔
      kind.shape? = some shape ∧ options.admits shape = true := by
  unfold shapeOf
  cases found : kind.shape? with
  | none =>
      simp
  | some other =>
      have isItem : (other = .importDeclaration || other = .exportDeclaration) =
          other.isModuleItem := by
        cases other <;> rfl
      have admitted : options.admits other =
          (!(other.isJsx && !options.jsx) && !(other.isModuleItem && !options.asModule)) := by
        unfold Options.admits
        cases other.isJsx <;> cases options.jsx <;> cases other.isModuleItem <;>
          cases options.asModule <;> rfl
      dsimp only
      rw [isItem, Option.some.injEq]
      constructor
      · intro accepted
        split at accepted
        · cases accepted
        · split at accepted
          · cases accepted
          · cases accepted
            exact ⟨rfl, by simp_all⟩
      · rintro ⟨rfl, isAdmitted⟩
        rw [admitted, Bool.and_eq_true, Bool.not_eq_true', Bool.not_eq_true'] at isAdmitted
        rw [isAdmitted.1, isAdmitted.2]
        rfl

theorem Harmless.admits
    {shape : Shape.Tree} (harmless : Harmless shape) (options : Options) :
    ∀ kind ∈ shape.kinds, options.admits kind = true := by
  intro kind isHeld
  obtain ⟨noJsx, noItem⟩ := harmless kind isHeld
  simp [Options.admits, noJsx, noItem]

/-! ## What options refuse -/

/-- Options give a shape exactly when the permissive ones give it and every kind
in it is admitted. -/
def Options.Gate
    (options : Options) (lowering : Options → Except Fault (Option Shape.Node)) : Prop :=
  ∀ shape, lowering options = .ok shape ↔
    lowering .permissive = .ok shape ∧ options.AdmitsShape shape

section Gates

variable {options : Options}

theorem gate_lowerFirst
    {children : List Child} (gates : ∀ child ∈ children, options.Gate (lower · child.2)) :
    options.Gate (lowerFirst · children) := by
  induction children with
  | nil =>
      intro shape
      simp only [lowerFirst]
      constructor
      · rintro ⟨⟩
        exact ⟨rfl, by simp [Options.AdmitsShape]⟩
      · rintro ⟨given, -⟩
        exact given
  | cons child rest inductionHypothesis =>
      obtain ⟨field, tree⟩ := child
      simp only [lowerFirst]
      split
      · exact gates _ List.mem_cons_self
      · exact inductionHypothesis fun other isOther => gates other (List.mem_cons_of_mem _ isOther)

theorem admitsFields_pushAll
    (entries : List Entry) (fields : Fields) :
    options.AdmitsFields (pushAll entries fields) ↔
      (∀ entry ∈ entries, ∀ kind ∈ entry.2.kinds, options.admits kind = true) ∧
        options.AdmitsFields fields := by
  simp only [Options.AdmitsFields, mem_kindsOfFields_pushAll]
  constructor
  · intro admitted
    exact ⟨fun entry isEntry kind isHeld => admitted kind (.inl ⟨entry, isEntry, isHeld⟩),
      fun kind isHeld => admitted kind (.inr isHeld)⟩
  · rintro ⟨ofEntries, ofFields⟩ kind (⟨entry, isEntry, isHeld⟩ | isHeld)
    · exact ofEntries entry isEntry kind isHeld
    · exact ofFields kind isHeld

theorem admitsFields_shape
    (name : String) (shape : Option Shape.Node) (fields : Fields) :
    options.AdmitsFields (pushAll (shape.map fun node => (name, node.toTree)).toList fields) ↔
      options.AdmitsShape shape ∧ options.AdmitsFields fields := by
  rw [admitsFields_pushAll]
  cases shape <;> simp [Options.AdmitsShape]

theorem admitsFields_nil : options.AdmitsFields [] := by
  simp [Options.AdmitsFields, kindsOfFields]

theorem admitsLine_of_noLine
    {tree : Tree} (noLine : tree.isA .hashBangLine = false) : options.AdmitsLine tree := by
  intro isLine
  rw [noLine] at isLine
  cases isLine

/-- Children are refused exactly when a first line among them is, or a kind in
what they leave. -/
theorem gate_lowerChildren
    {parent : Kind} {children : List Child}
    (gates : ∀ child ∈ children, ∀ shape, lower options child.2 = .ok shape ↔
      lower .permissive child.2 = .ok shape ∧ options.AdmitsShape shape ∧
        options.AdmitsLine child.2)
    (awaiting : Bool) {fields : Fields} (admitted : options.AdmitsFields fields)
    (result : Fields) :
    lowerChildren options parent awaiting children fields = .ok result ↔
      lowerChildren .permissive parent awaiting children fields = .ok result ∧
        options.AdmitsFields result ∧ ∀ child ∈ children, options.AdmitsLine child.2 := by
  induction children generalizing awaiting fields with
  | nil =>
      simp only [lowerChildren, Except.ok.injEq, List.not_mem_nil, false_implies, implies_true,
        and_true]
      constructor
      · rintro rfl
        exact ⟨rfl, admitted⟩
      · exact And.left
  | cons child rest inductionHypothesis =>
      obtain ⟨field, tree⟩ := child
      have inRest := inductionHypothesis fun other isOther =>
        gates other (List.mem_cons_of_mem _ isOther)
      rw [List.forall_mem_cons]
      cases childFate parent awaiting field tree with
      | leaves still here noLine filled goesOn =>
          have accepted : options.AdmitsLine tree := admitsLine_of_noLine noLine
          have stillAdmitted : options.AdmitsFields (pushAll here fields) :=
            (admitsFields_pushAll here fields).mpr
              ⟨fun entry isEntry => (filled entry isEntry).2.admits options, admitted⟩
          rw [goesOn, goesOn, inRest still stillAdmitted]
          simp [accepted]
      | lowers goesOn =>
          rw [goesOn, goesOn, bind_eq_ok_iff, bind_eq_ok_iff]
          constructor
          · rintro ⟨shape, shapeLowered, restLowered⟩
            obtain ⟨shapeGiven, shapeAdmitted, accepted⟩ :=
              (gates _ List.mem_cons_self shape).mp shapeLowered
            obtain ⟨restGiven, resultAdmitted, othersAccepted⟩ :=
              (inRest false ((admitsFields_shape _ shape fields).mpr
                ⟨shapeAdmitted, admitted⟩)).mp restLowered
            exact ⟨⟨shape, shapeGiven, restGiven⟩, resultAdmitted, accepted, othersAccepted⟩
          · rintro ⟨⟨shape, shapeGiven, restGiven⟩, resultAdmitted, accepted, othersAccepted⟩
            -- the shape of the child is still there in the result
            obtain ⟨entries, rfl, -⟩ := lowerChildren_eq_pushAll restGiven
            have stillAdmitted := ((admitsFields_pushAll entries _).mp resultAdmitted).2
            have shapeAdmitted := ((admitsFields_shape _ shape fields).mp stillAdmitted).1
            exact ⟨shape,
              (gates _ List.mem_cons_self shape).mpr ⟨shapeGiven, shapeAdmitted, accepted⟩,
              (inRest false stillAdmitted).mpr ⟨restGiven, resultAdmitted, othersAccepted⟩⟩

theorem admitsFields_substitution
    (text : String) (shape : Option Shape.Node) (fields : Fields) :
    options.AdmitsFields (pushAll (substitutionEntries text shape) fields) ↔
      options.AdmitsShape shape ∧ options.AdmitsFields fields := by
  rw [admitsFields_pushAll]
  cases shape <;>
    simp [substitutionEntries, Options.AdmitsShape, Shape.Node.leaf, Shape.Node.toTree,
      Shape.Tree.kinds, kindsOfFields, Options.admits, Shape.Kind.isJsx,
      Shape.Kind.isModuleItem]

theorem gate_lowerTemplate
    {children : List Child}
    (gates : ∀ child ∈ children, options.Gate (lowerFirst · child.2.children))
    (text : String) {fields : Fields} (admitted : options.AdmitsFields fields)
    (result : Fields) :
    lowerTemplate options text children fields = .ok result ↔
      lowerTemplate .permissive text children fields = .ok result ∧
        options.AdmitsFields result := by
  induction children generalizing text fields with
  | nil =>
      have stillAdmitted := (admitsFields_substitution text none fields).mpr
        ⟨by simp [Options.AdmitsShape], admitted⟩
      simp only [lowerTemplate, Except.ok.injEq]
      constructor
      · rintro rfl
        exact ⟨rfl, stillAdmitted⟩
      · exact And.left
  | cons child rest inductionHypothesis =>
      obtain ⟨field, tree⟩ := child
      have inRest := inductionHypothesis fun other isOther =>
        gates other (List.mem_cons_of_mem _ isOther)
      by_cases substitution : ∃ place inner, tree = .branch .templateSubstitution place inner
      · obtain ⟨place, inner, rfl⟩ := substitution
        have innerGate : options.Gate (lowerFirst · inner) := gates _ List.mem_cons_self
        rw [lowerTemplate_substitution, lowerTemplate_substitution, bind_eq_ok_iff,
          bind_eq_ok_iff]
        constructor
        · rintro ⟨shape, shapeLowered, restLowered⟩
          obtain ⟨shapeGiven, shapeAdmitted⟩ := (innerGate shape).mp shapeLowered
          obtain ⟨restGiven, resultAdmitted⟩ :=
            (inRest "" ((admitsFields_substitution text shape fields).mpr
              ⟨shapeAdmitted, admitted⟩)).mp restLowered
          exact ⟨⟨shape, shapeGiven, restGiven⟩, resultAdmitted⟩
        · rintro ⟨⟨shape, shapeGiven, restGiven⟩, resultAdmitted⟩
          obtain ⟨entries, rfl⟩ := lowerTemplate_eq_pushAll restGiven
          have stillAdmitted := ((admitsFields_pushAll entries _).mp resultAdmitted).2
          have shapeAdmitted :=
            ((admitsFields_substitution text shape fields).mp stillAdmitted).1
          exact ⟨shape, (innerGate shape).mpr ⟨shapeGiven, shapeAdmitted⟩,
            (inRest "" stillAdmitted).mpr ⟨restGiven, resultAdmitted⟩⟩
      · obtain ⟨longer, goesOn⟩ := lowerTemplate_text
          (fun place inner isSubstitution => substitution ⟨place, inner, isSubstitution⟩)
          text field rest fields
        rw [goesOn, goesOn]
        exact inRest longer admitted

/-! ### Nodes -/

/-- What is settled holds a refused kind exactly when the fields do. -/
theorem admitsFields_settle
    {parent : Kind} {fields : Fields} (ascending : Fields.Ascending fields)
    (kept : parent = .subscriptExpression → Fields.find? "property" fields = none) :
    options.AdmitsFields (settle parent fields) ↔ options.AdmitsFields fields := by
  obtain ⟨made, fromLists, inSettled⟩ := kindsOfFields_settle ascending kept
  have madeAdmitted : ∀ kind ∈ made, options.admits kind = true := by
    intro kind isMade
    have isList := fromLists isMade
    simp only [List.mem_cons, List.not_mem_nil, or_false] at isList
    rcases isList with rfl | rfl <;>
      simp [Options.admits, Shape.Kind.isJsx, Shape.Kind.isModuleItem]
  simp only [Options.AdmitsFields, inSettled]
  constructor
  · intro admitted kind isHeld
    exact admitted kind (.inr isHeld)
  · rintro admitted kind (isMade | isHeld)
    · exact madeAdmitted kind isMade
    · exact admitted kind isHeld

theorem admitsShape_node
    (shape : Shape.Kind) (fields : Fields) (value : Option String) :
    options.AdmitsShape (some ⟨shape, fields, value⟩) ↔
      options.admits shape = true ∧ options.AdmitsFields fields := by
  simp [Options.AdmitsShape, Options.AdmitsFields, Shape.Node.toTree, Shape.Tree.kinds]

/-- The fields of a subscript whose children are in other fields than `property`
have no such field. -/
theorem find?_property_eq_none
    {parent : Kind} {awaiting : Bool} {children : List Child} {result : Fields}
    (lowered : lowerChildren options parent awaiting children [] = .ok result)
    (noProperty : ∀ child ∈ children, child.1 ≠ some "property") :
    Fields.find? "property" result = none := by
  obtain ⟨entries, rfl, fills⟩ := lowerChildren_eq_pushAll lowered
  have noEntry : valuesIn "property" entries = [] := by
    apply valuesIn_eq_nil
    intro entry isEntry
    obtain ⟨⟨field, tree⟩, isChild, mayFill⟩ := fills entry isEntry
    have otherField := noProperty _ isChild
    rintro isProperty
    rw [isProperty] at mayFill
    cases field <;> simp_all [MayFill, Shape.childrenField, Shape.tokensField]
  rw [find?_pushAll_nil, noEntry]
  rfl

section Nodes

variable {kind : Kind} {children : List Child}

/-- Every node around the children of a tree is of the shape that was gated. -/
theorem admits_of_builtNode
    {chosen : Options} {text : String} {shape : Shape.Kind} {result : Option Shape.Node}
    (made : builtNode chosen kind text children shape = .ok result)
    (admitted : options.AdmitsShape result) :
    options.admits shape = true := by
  unfold builtNode at made
  split at made
  · cases made
    exact ((admitsShape_node _ _ _).mp admitted).1
  · split at made
    · cases made
      exact ((admitsShape_node _ _ _).mp admitted).1
    · obtain ⟨fields, -, made⟩ := bind_eq_ok_iff.mp made
      cases made
      exact ((admitsShape_node _ _ _).mp admitted).1

variable
  (noProperty : kind = .subscriptExpression → ∀ child ∈ children, child.1 ≠ some "property")
  (noLine : ∀ child ∈ children, child.2.isA .hashBangLine = false)
  (gates : ∀ child ∈ children, options.Gate (lower · child.2))

include noProperty noLine gates

theorem gate_builtNode
    {shape : Shape.Kind} (admitted : options.admits shape = true) (text : String) :
    options.Gate (builtNode · kind text children shape) := by
  intro result
  have bare : ∀ value, options.AdmitsShape (some ⟨shape, [], value⟩) :=
    fun value => (admitsShape_node _ _ _).mpr ⟨admitted, admitsFields_nil⟩
  unfold builtNode
  split
  · refine ⟨fun made => ⟨made, ?_⟩, And.left⟩
    cases made
    exact bare _
  split
  · refine ⟨fun made => ⟨made, ?_⟩, And.left⟩
    cases made
    exact bare none
  have accepted : ∀ child ∈ children, options.AdmitsLine child.2 :=
    fun child isChild => admitsLine_of_noLine (noLine child isChild)
  have inChildren : ∀ fields, lowerChildren options kind true children [] = .ok fields ↔
      lowerChildren .permissive kind true children [] = .ok fields ∧
        options.AdmitsFields fields := by
    intro fields
    rw [gate_lowerChildren _ true admitsFields_nil]
    · exact and_congr_right fun _ => and_iff_left accepted
    · intro child isChild childShape
      rw [gates child isChild childShape]
      exact and_congr_right fun _ => (and_iff_left (accepted child isChild)).symm
  have settled : ∀ fields, lowerChildren .permissive kind true children [] = .ok fields →
      (options.AdmitsShape (some ⟨shape, settle kind fields, none⟩) ↔
        options.AdmitsFields fields) := by
    intro fields given
    obtain ⟨entries, isPushed, -⟩ := lowerChildren_eq_pushAll given
    have ascending : Fields.Ascending fields :=
      isPushed ▸ ascending_pushAll entries Fields.ascending_nil
    rw [admitsShape_node, admitsFields_settle ascending
      fun isSubscript => find?_property_eq_none given (noProperty isSubscript)]
    exact and_iff_right admitted
  rw [bind_eq_ok_iff, bind_eq_ok_iff]
  constructor
  · rintro ⟨fields, lowered, made⟩
    obtain ⟨given, fieldsAdmitted⟩ := (inChildren fields).mp lowered
    refine ⟨⟨fields, given, made⟩, ?_⟩
    cases made
    exact (settled fields given).mpr fieldsAdmitted
  · rintro ⟨⟨fields, given, made⟩, resultAdmitted⟩
    refine ⟨fields, (inChildren fields).mpr ⟨given, ?_⟩, made⟩
    cases made
    exact (settled fields given).mp resultAdmitted

/-- A node is refused exactly when its own shape is, or a kind in what its
children leave. -/
theorem gate_node (place : Place) (text : String) :
    options.Gate fun chosen =>
      shapeOf chosen kind place >>= builtNode chosen kind text children := by
  intro result
  cases isShape : kind.shape? with
  | none =>
      simp [shapeOf, isShape, bind, Except.bind]
  | some shape =>
      have given : shapeOf .permissive kind place = .ok shape :=
        shapeOf_eq_ok_iff.mpr ⟨isShape, Options.permissive_admits shape⟩
      dsimp only
      rw [given]
      cases admitted : options.admits shape with
      | true =>
          have accepted : shapeOf options kind place = .ok shape :=
            shapeOf_eq_ok_iff.mpr ⟨isShape, admitted⟩
          rw [accepted]
          exact gate_builtNode noProperty noLine gates admitted text result
      | false =>
          constructor
          · intro made
            obtain ⟨other, accepted, -⟩ := bind_eq_ok_iff.mp made
            obtain ⟨isOther, otherAdmitted⟩ := shapeOf_eq_ok_iff.mp accepted
            rw [isShape] at isOther
            cases isOther
            simp [admitted] at otherAdmitted
          · rintro ⟨made, resultAdmitted⟩
            have otherwise := admits_of_builtNode made resultAdmitted
            simp [admitted] at otherwise

end Nodes

end Gates

/-! ## Trees as the grammar makes them -/

namespace Tree

mutual

/-- Whether no first line that begins with `#!` stands in a tree, and no child of
a subscript in a field `property`. -/
def isRegular : Tree → Bool
  | .token _ => true
  | .leaf kind _ _ => kind ≠ .hashBangLine
  | .branch kind _ children =>
      kind ≠ .hashBangLine &&
        (kind ≠ .subscriptExpression || children.all fun child => child.1 ≠ some "property") &&
        areRegular children

/-- Whether all children are regular. -/
def areRegular : List (Option String × Tree) → Bool
  | [] => true
  | (_, child) :: rest => isRegular child && areRegular rest

end

/-- Whether a tree is that of a program, with first lines that begin with `#!`
nowhere but among the children of the program. -/
def isRegularProgram (tree : Tree) : Bool :=
  tree.isA .program &&
    tree.children.all fun child => child.2.isA .hashBangLine || child.2.isRegular

theorem areRegular_eq_true_iff {children : List Child} :
    areRegular children = true ↔ ∀ child ∈ children, child.2.isRegular = true := by
  induction children with
  | nil =>
      simp [areRegular]
  | cons child rest inductionHypothesis =>
      simp [areRegular, inductionHypothesis]

theorem isRegular_of_mem_children
    {tree : Tree} (regular : tree.isRegular = true) {child : Child}
    (isChild : child ∈ tree.children) :
    child.2.isRegular = true := by
  cases tree with
  | token spelling =>
      cases isChild
  | leaf kind place spelling =>
      cases isChild
  | branch kind place children =>
      simp only [isRegular, Bool.and_eq_true] at regular
      exact areRegular_eq_true_iff.mp regular.2 child isChild

theorem noLine_of_isRegular
    {tree : Tree} (regular : tree.isRegular = true) :
    tree.isA .hashBangLine = false := by
  cases tree <;> simp_all [isRegular, isA, kind?]

theorem noProperty_of_isRegular
    {tree : Tree} (regular : tree.isRegular = true)
    (isSubscript : tree.kind? = some .subscriptExpression) :
    ∀ child ∈ tree.children, child.1 ≠ some "property" := by
  cases tree with
  | token spelling =>
      cases isSubscript
  | leaf kind place spelling =>
      simp [children]
  | branch kind place children =>
      cases isSubscript
      simp only [isRegular, ne_eq, not_true_eq_false, decide_false, Bool.false_or,
        Bool.and_eq_true, List.all_eq_true, decide_eq_true_eq] at regular
      exact regular.1.2

mutual

/-- What follows for a tree from the same for its children holds of all trees. -/
theorem induction_children
    {motive : Tree → Prop}
    (step : ∀ tree, (∀ child ∈ tree.children, motive child.2) → motive tree) :
    ∀ tree, motive tree
  | .token spelling => step _ (by simp [children])
  | .leaf kind place spelling => step _ (by simp [children])
  | .branch kind place children => step _ (forall_children step children)

theorem forall_children
    {motive : Tree → Prop}
    (step : ∀ tree, (∀ child ∈ tree.children, motive child.2) → motive tree) :
    ∀ children : List (Option String × Tree), ∀ child ∈ children, motive child.2
  | [], _, isChild => nomatch isChild
  | (_, tree) :: rest, child, isChild => by
      rcases List.mem_cons.mp isChild with rfl | isLater
      · exact induction_children step tree
      · exact forall_children step rest child isLater

end

end Tree

section Regular

variable {options : Options}

/-- A regular tree and the first of its children are refused for their kinds
only. -/
theorem gate_of_isRegular (tree : Tree) (regular : tree.isRegular = true) :
    options.Gate (lower · tree) ∧ options.Gate (lowerFirst · tree.children) := by
  induction tree using Tree.induction_children with
  | step tree inductionHypothesis =>
    have childGate : ∀ child ∈ tree.children, options.Gate (lower · child.2) :=
      fun child isChild => (inductionHypothesis child isChild
        (Tree.isRegular_of_mem_children regular isChild)).1
    have innerGate : ∀ child ∈ tree.children, options.Gate (lowerFirst · child.2.children) :=
      fun child isChild => (inductionHypothesis child isChild
        (Tree.isRegular_of_mem_children regular isChild)).2
    have noLine : ∀ child ∈ tree.children, child.2.isA .hashBangLine = false :=
      fun child isChild =>
        Tree.noLine_of_isRegular (Tree.isRegular_of_mem_children regular isChild)
    have firstGate : options.Gate (lowerFirst · tree.children) := gate_lowerFirst childGate
    refine ⟨?_, firstGate⟩
    intro result
    cases manner tree with
    | fixed shape harmless lowered =>
        simp only [lowered, Except.ok.injEq]
        constructor
        · rintro rfl
          exact ⟨rfl, fun node isNode => (harmless node isNode).admits options⟩
        · exact And.left
    | line isLine =>
        rw [Tree.noLine_of_isRegular regular] at isLine
        cases isLine
    | wrapper lowered =>
        simp only [lowered]
        exact firstGate result
    | template lowered =>
        have inTemplate := gate_lowerTemplate innerGate "" admitsFields_nil
        have admitsTemplate : ∀ fields,
            options.AdmitsShape (some ⟨.templateLiteral, fields, none⟩) ↔
              options.AdmitsFields fields := by
          intro fields
          rw [admitsShape_node]
          simp [Options.admits, Shape.Kind.isJsx, Shape.Kind.isModuleItem]
        simp only [lowered]
        rw [bind_eq_ok_iff, bind_eq_ok_iff]
        constructor
        · rintro ⟨fields, fieldsLowered, made⟩
          obtain ⟨given, admitted⟩ := (inTemplate fields).mp fieldsLowered
          refine ⟨⟨fields, given, made⟩, ?_⟩
          cases made
          exact (admitsTemplate fields).mpr admitted
        · rintro ⟨⟨fields, given, made⟩, admitted⟩
          refine ⟨fields, (inTemplate fields).mpr ⟨given, ?_⟩, made⟩
          cases made
          exact (admitsTemplate fields).mp admitted
    | node kind place text isKind lowered =>
        simp only [lowered]
        exact gate_node
          (fun isSubscript => Tree.noProperty_of_isRegular regular (isSubscript ▸ isKind))
          noLine childGate place text result

end Regular

/-! ## Whole programs -/

section Programs

variable {tree : Tree}

theorem lowerProgram_eq_node (isProgram : tree.isA .program = true) (options : Options) :
    lowerProgram options tree =
      lowerChildren options .program true tree.children [] >>= fun fields =>
        .ok ⟨.program, fields, none⟩ := by
  have lowered : lower options tree =
      lowerChildren options .program true tree.children [] >>= fun fields =>
        .ok (some ⟨.program, fields, none⟩) := by
    cases tree with
    | token spelling =>
        cases isProgram
    | leaf kind place spelling =>
        have isKind : kind = .program := by
          simpa [Tree.isA, Tree.kind?] using isProgram
        subst isKind
        simp only [lower]
        rfl
    | branch kind place children =>
        have isKind : kind = .program := by
          simpa [Tree.isA, Tree.kind?] using isProgram
        subst isKind
        simp only [lower]
        rfl
  rw [lowerProgram, lowered]
  cases lowerChildren options .program true tree.children [] <;> rfl

theorem lower_line (isLine : tree.isA .hashBangLine = true) (options : Options)
    (shape : Option Shape.Node) :
    lower options tree = .ok shape ↔ shape = none ∧ options.hashBang = true := by
  cases tree with
  | token spelling =>
      cases isLine
  | leaf kind place spelling =>
      have isKind : kind = .hashBangLine := by
        simpa [Tree.isA, Tree.kind?] using isLine
      subst isKind
      rw [lower]
      cases options.hashBang <;> simp [eq_comm]
  | branch kind place children =>
      have isKind : kind = .hashBangLine := by
        simpa [Tree.isA, Tree.kind?] using isLine
      subst isKind
      rw [lower]
      cases options.hashBang <;> simp [eq_comm]

theorem admitsShape_some (options : Options) (node : Shape.Node) :
    options.AdmitsShape (some node) ↔
      (options.jsx = true ∨ ∀ kind ∈ node.toTree.kinds, kind.isJsx = false) ∧
        (options.asModule = true ∨ ∀ kind ∈ node.toTree.kinds, kind.isModuleItem = false) := by
  cases options with
  | mk asModule hashBang jsx =>
      cases jsx <;> cases asModule <;>
        simp [Options.AdmitsShape, Options.admits, forall_and]

theorem admitsLine_iff (options : Options) (children : List Child) :
    (∀ child ∈ children, options.AdmitsLine child.2) ↔
      options.hashBang = true ∨ ∀ child ∈ children, child.2.isA .hashBangLine = false := by
  cases allowed : options.hashBang <;> simp [Options.AdmitsLine, allowed]

/-- A regular program is refused exactly for the kinds in its shape or for its
first line. -/
theorem gate_lowerProgram
    (regular : tree.isRegularProgram = true) (options : Options) (node : Shape.Node) :
    lowerProgram options tree = .ok node ↔
      lowerProgram .permissive tree = .ok node ∧ options.AdmitsShape (some node) ∧
        ∀ child ∈ tree.children, options.AdmitsLine child.2 := by
  obtain ⟨isProgram, childrenRegular⟩ := Bool.and_eq_true_iff.mp regular
  have gates : ∀ child ∈ tree.children, ∀ shape, lower options child.2 = .ok shape ↔
      lower .permissive child.2 = .ok shape ∧ options.AdmitsShape shape ∧
        options.AdmitsLine child.2 := by
    intro child isChild shape
    cases isLine : child.2.isA .hashBangLine with
    | true =>
        rw [lower_line isLine, lower_line isLine]
        simp only [Options.AdmitsLine, isLine, Options.permissive, true_implies, and_true]
        constructor
        · rintro ⟨rfl, allowed⟩
          exact ⟨rfl, by simp [Options.AdmitsShape], allowed⟩
        · rintro ⟨isNone, -, allowed⟩
          exact ⟨isNone, allowed⟩
    | false =>
        have childRegular : child.2.isRegular = true := by
          simpa [isLine] using List.all_eq_true.mp childrenRegular child isChild
        rw [(gate_of_isRegular child.2 childRegular).1 shape]
        exact and_congr_right fun _ => (and_iff_left (admitsLine_of_noLine isLine)).symm
  rw [lowerProgram_eq_node isProgram, lowerProgram_eq_node isProgram, bind_eq_ok_iff,
    bind_eq_ok_iff]
  have admitsProgram : ∀ fields, options.AdmitsShape (some ⟨.program, fields, none⟩) ↔
      options.AdmitsFields fields := by
    intro fields
    rw [admitsShape_node]
    exact and_iff_right (by simp [Options.admits, Shape.Kind.isJsx, Shape.Kind.isModuleItem])
  constructor
  · rintro ⟨fields, lowered, made⟩
    obtain ⟨given, admitted, accepted⟩ :=
      (gate_lowerChildren gates true admitsFields_nil fields).mp lowered
    refine ⟨⟨fields, given, made⟩, ?_, accepted⟩
    cases made
    exact (admitsProgram fields).mpr admitted
  · rintro ⟨⟨fields, given, made⟩, admitted, accepted⟩
    refine ⟨fields, (gate_lowerChildren gates true admitsFields_nil fields).mpr
      ⟨given, ?_, accepted⟩, made⟩
    cases made
    exact (admitsProgram fields).mp admitted

/-- Options never change the shape of a program: they give the one that the
permissive options give or refuse it, and they refuse it exactly for JSX, for
imports and exports, or for a first line that begins with `#!`, where they do not
allow these.  So what they give is given by all options that allow more. -/
theorem options_only_gate_lowering
    (regular : tree.isRegularProgram = true) (options : Options) (node : Shape.Node) :
    (lowerProgram options tree = .ok node ↔
      lowerProgram .permissive tree = .ok node ∧
        (options.jsx = true ∨ ∀ kind ∈ node.toTree.kinds, kind.isJsx = false) ∧
        (options.asModule = true ∨ ∀ kind ∈ node.toTree.kinds, kind.isModuleItem = false) ∧
        (options.hashBang = true ∨
          ∀ child ∈ tree.children, child.2.isA .hashBangLine = false)) ∧
      ∀ wider : Options, options.Within wider →
        lowerProgram options tree = .ok node → lowerProgram wider tree = .ok node := by
  have gated : ∀ chosen : Options, lowerProgram chosen tree = .ok node ↔
      lowerProgram .permissive tree = .ok node ∧
        (chosen.jsx = true ∨ ∀ kind ∈ node.toTree.kinds, kind.isJsx = false) ∧
        (chosen.asModule = true ∨ ∀ kind ∈ node.toTree.kinds, kind.isModuleItem = false) ∧
        (chosen.hashBang = true ∨
          ∀ child ∈ tree.children, child.2.isA .hashBangLine = false) := by
    intro chosen
    rw [gate_lowerProgram regular, admitsShape_some, admitsLine_iff, and_assoc]
  refine ⟨gated options, fun wider within accepted => ?_⟩
  obtain ⟨given, jsx, items, lines⟩ := (gated options).mp accepted
  exact (gated wider).mpr ⟨given, jsx.imp_left within.jsx, items.imp_left within.asModule,
    lines.imp_left within.hashBang⟩

/-- The tree of `<b/>;` behind a first line that begins with `#!`. -/
def elementAfterLine : Tree :=
  .branch .program ⟨1, 1⟩
    [(none, .leaf .hashBangLine ⟨1, 1⟩ "#!node"),
      (none, .branch .expressionStatement ⟨2, 1⟩
        [(none, .branch .jsxSelfClosingElement ⟨2, 1⟩
            [(none, .token "<"), (some "name", .leaf .identifier ⟨2, 2⟩ "b"),
              (none, .token "/>")]),
          (none, .token ";")])]

/-- The shape of `<b/>;`. -/
def elementShape : Shape.Node :=
  (Shape.Node.bare .program).push Shape.childrenField
    ((Shape.Node.bare .expressionStatement).push Shape.childrenField
      ((Shape.Node.bare .jsxSelfClosingElement).push "name"
        (Shape.Node.leaf .identifier "b").toTree).toTree).toTree

theorem options_only_gate_elementAfterLine :
    elementAfterLine.isRegularProgram = true ∧
      lowerProgram { jsx := true } elementAfterLine = .ok elementShape ∧
      lowerProgram { jsx := false } elementAfterLine ≠ .ok elementShape ∧
      lowerProgram { hashBang := false, jsx := true } elementAfterLine ≠ .ok elementShape := by
  have regular : elementAfterLine.isRegularProgram = true := by decide +kernel
  have noItem : ∀ kind ∈ elementShape.toTree.kinds, kind.isModuleItem = false := by
    decide +kernel
  have isElement : .jsxSelfClosingElement ∈ elementShape.toTree.kinds := by decide +kernel
  refine ⟨regular, (options_only_gate_lowering regular { jsx := true } elementShape).1.mpr
    ⟨rfl, .inl rfl, .inr noItem, .inl rfl⟩, fun accepted => ?_, fun accepted => ?_⟩
  · obtain ⟨-, allowed | noJsx, -⟩ :=
      (options_only_gate_lowering regular { jsx := false } elementShape).1.mp accepted
    · cases allowed
    · cases noJsx _ isElement
  · obtain ⟨-, -, -, allowed | noLine⟩ := (options_only_gate_lowering regular
      { hashBang := false, jsx := true } elementShape).1.mp accepted
    · cases allowed
    · cases noLine _ List.mem_cons_self

end Programs

end ShapeAudit.Source
