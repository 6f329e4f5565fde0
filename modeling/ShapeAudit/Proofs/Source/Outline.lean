import ShapeAudit.Proofs.Source.Entries

/-!
# Outlines

The outline of a concrete tree is its shape without lexical detail.  It is
composed: of a child, the outline of its parent depends only on what is seen of
it, which is its spelling if it is a token, nothing if it is a comment, and
otherwise its own outline and whether it is a shorthand entry or a substitution.
Places are never seen.
-/

namespace ShapeAudit.Source

open Shape (Fields)
open Shape.Tree (erase eraseItems eraseFields anyLeaf)

/-! ## What is seen of a tree -/

/-- A shape without lexical detail.  Which fault stands in its place is
forgotten. -/
def erased (result : Except Fault (Option Shape.Node)) : Option (Option Shape.Tree) :=
  result.toOption.map fun value => value.map fun node => erase node.toTree

/-- The outline of a tree, if the tree is not refused. -/
def outline? (options : Options) (tree : Tree) : Option (Option Shape.Tree) :=
  erased (lower options tree)

/-- What a node sees of a child. -/
inductive Sight where
  /-- A token, by its spelling. -/
  | token (spelling : String)
  /-- A comment. -/
  | comment
  /-- Any other node: whether it is a shorthand entry, its outline, and, if it
  is a substitution, the outline of what it substitutes. -/
  | node (shorthand : Bool) (outline : Option (Option Shape.Tree))
      (substituted : Option (Option (Option Shape.Tree)))

/-- The outline of what a substitution of a template holds. -/
def substituted? (options : Options) : Tree → Option (Option (Option Shape.Tree))
  | .branch .templateSubstitution _ children => some (erased (lowerFirst options children))
  | _ => none

/-- What a node sees of a tree among its children. -/
def sight (options : Options) : Tree → Sight
  | .token spelling => .token spelling
  | tree =>
    if tree.isExtra then .comment
    else .node (tree.kind?.any Kind.isShorthand) (outline? options tree)
      (substituted? options tree)

/-- What a node sees in one place: a field and a sight. -/
abbrev Seen := Option String × Sight

/-- What a node sees of its children. -/
def seen (options : Options) (children : List Child) : List Seen :=
  children.map fun child => (child.1, sight options child.2)

theorem sight_of_isExtra
    (options : Options) {tree : Tree} (extra : tree.isExtra = true) :
    sight options tree = .comment := by
  cases tree with
  | token spelling =>
      cases extra
  | leaf kind place spelling =>
      exact if_pos extra
  | branch kind place children =>
      exact if_pos extra

theorem sight_of_isProper
    (options : Options) {tree : Tree} (proper : tree.isProper = true) :
    sight options tree =
      .node (tree.kind?.any Kind.isShorthand) (outline? options tree)
        (substituted? options tree) := by
  have named : ∀ spelling, tree = .token spelling → False := by
    rintro spelling rfl
    cases proper
  simp_all [sight.eq_2 options tree named, Tree.isProper]

theorem sight_of_not_isProper
    (options : Options) {tree : Tree} (notProper : tree.isProper = false) :
    (∃ spelling, sight options tree = .token spelling) ∨ sight options tree = .comment := by
  cases tree with
  | token spelling =>
      exact .inl ⟨spelling, rfl⟩
  | leaf kind place spelling =>
      exact .inr (by simp_all [sight, Tree.isProper, Tree.kind?])
  | branch kind place children =>
      exact .inr (by simp_all [sight, Tree.isProper, Tree.kind?])

@[simp]
theorem seen_append (options : Options) (first second : List Child) :
    seen options (first ++ second) = seen options first ++ seen options second := by
  simp [seen]

@[simp]
theorem seen_cons (options : Options) (child : Child) (rest : List Child) :
    seen options (child :: rest) = (child.1, sight options child.2) :: seen options rest := by
  rfl

@[simp]
theorem seen_nil (options : Options) :
    seen options [] = [] := by
  rfl

/-! ## What a node makes of it -/

/-- The outline of the property that a shorthand entry stands for. -/
def anyProperty : Shape.Tree :=
  .node .property [("key", [anyLeaf]), ("value", [anyLeaf])] none

/-- What a token outside of arrays leaves. -/
def tokenEntries (field : Option String) (spelling : String) : List Entry :=
  match field with
  | some name => if isFieldModifier name spelling then [] else [(name, .word spelling)]
  | none => if isKeptKeyword spelling then [(Shape.tokensField, .word spelling)] else []

/-- What one child leaves. -/
def Sight.entries? (parent : Kind) (awaiting : Bool) (field : Option String) :
    Sight → Option (List Entry)
  | .token spelling =>
    if parent.isArray then
      some (if spelling = "," ∧ awaiting = true then
        [(Shape.childrenField, (Shape.Node.bare .elision).toTree)] else [])
    else some (tokenEntries field spelling)
  | .comment => some []
  | .node shorthand outline _ =>
    if parent.isObject && shorthand then some [(field.getD Shape.childrenField, anyProperty)]
    else outline.map fun value =>
      (value.map fun tree => (field.getD Shape.childrenField, tree)).toList

/-- Whether an element is awaited behind a child. -/
def Sight.awaits (parent : Kind) (awaiting : Bool) : Sight → Bool
  | .token spelling => (parent.isArray && decide (spelling = ",")) || awaiting
  | .comment => awaiting
  | .node _ _ _ => false

/-- Whether an element is awaited behind a list of children. -/
def awaitsAfter (parent : Kind) : Bool → List Seen → Bool
  | awaiting, [] => awaiting
  | awaiting, (_, child) :: rest => awaitsAfter parent (child.awaits parent awaiting) rest

/-- What a list of children leaves. -/
def entries? (parent : Kind) : Bool → List Seen → Option (List Entry)
  | _, [] => some []
  | awaiting, (field, child) :: rest =>
    (child.entries? parent awaiting field).bind fun here =>
      (entries? parent (child.awaits parent awaiting) rest).map fun later => here ++ later

/-- The outline of the first proper child. -/
def first? : List Seen → Option (Option Shape.Tree)
  | [] => some none
  | (_, .node _ outline _) :: _ => outline
  | _ :: rest => first? rest

/-- What one child of a template leaves. -/
def Sight.pieces? : Sight → Option (List Entry)
  | .node _ _ (some substituted) =>
    substituted.map fun value =>
      ("quasis", anyLeaf) :: (value.map fun tree => ("expressions", tree)).toList
  | _ => some []

/-- What the children of a template leave. -/
def pieces? : List Seen → Option (List Entry)
  | [] => some [("quasis", anyLeaf)]
  | (_, child) :: rest =>
    child.pieces?.bind fun here => (pieces? rest).map fun later => here ++ later

/-- The kind of shape that stands for a node, if the node is not refused. -/
def gate (options : Options) (kind : Kind) : Option Shape.Kind :=
  (shapeOf options kind ⟨1, 1⟩).toOption

/-- The outline of a node of which some children are seen. -/
def compose (options : Options) (kind : Kind) (children : List Seen) :
    Option (Option Shape.Tree) :=
  match kind with
  | .comment | .htmlComment => some none
  | .hashBangLine => if options.hashBang then some none else none
  | .parenthesizedExpression | .computedPropertyName => first? children
  | .templateString =>
    (pieces? children).map fun entries =>
      some (.node .templateLiteral (pushAll entries []) none)
  | _ =>
    (gate options kind).bind fun shape =>
      if shape.isLexical then some (some anyLeaf)
      else if shape = .jsxText then some (some (.node .jsxText [] none))
      else (entries? kind true children).map fun entries =>
        some (.node shape (settle kind (pushAll entries [])) none)

theorem entries?_append
    (kind : Kind) (awaiting : Bool) (before after : List Seen) :
    entries? kind awaiting (before ++ after) =
      (entries? kind awaiting before).bind fun earlier =>
        (entries? kind (awaitsAfter kind awaiting before) after).map fun later =>
          earlier ++ later := by
  induction before generalizing awaiting with
  | nil =>
      simp [entries?, awaitsAfter]
  | cons child rest inductionHypothesis =>
      obtain ⟨field, seenAs⟩ := child
      simp only [List.cons_append, entries?, awaitsAfter]
      rw [inductionHypothesis]
      cases seenAs.entries? kind awaiting field with
      | none =>
          rfl
      | some here =>
          cases entries? kind (seenAs.awaits kind awaiting) rest with
          | none =>
              rfl
          | some earlier =>
              simp [Option.map_map, Function.comp_def]

/-- What is left around a proper child does not depend on the child. -/
theorem entries?_around
    (kind : Kind) (awaiting : Bool) (before after : List Seen) (field : Option String)
    (shorthand : Bool) (outline : Option (Option Shape.Tree))
    (substituted : Option (Option (Option Shape.Tree))) :
    entries? kind awaiting (before ++ (field, .node shorthand outline substituted) :: after) =
      (entries? kind awaiting before).bind fun earlier =>
        ((Sight.node shorthand outline substituted).entries? kind true field).bind fun here =>
          (entries? kind false after).map fun later => earlier ++ (here ++ later) := by
  rw [entries?_append, entries?]
  cases here : (Sight.node shorthand outline substituted).entries? kind true field <;>
    simp_all [Sight.entries?, Sight.awaits, Option.map_map, Function.comp_def]

/-- What children leave depends on their parent only as far as it is an array
or an object. -/
theorem entries?_kind
    {kind other : Kind} (sameArray : kind.isArray = other.isArray)
    (sameObject : kind.isObject = other.isObject) (awaiting : Bool) (children : List Seen) :
    entries? kind awaiting children = entries? other awaiting children := by
  induction children generalizing awaiting with
  | nil =>
      rfl
  | cons child rest inductionHypothesis =>
      obtain ⟨field, seenAs⟩ := child
      cases seenAs <;>
        simp [entries?, Sight.entries?, Sight.awaits, sameArray, sameObject,
          inductionHypothesis]

/-- Only arrays care for awaited elements. -/
theorem entries?_awaiting
    {kind : Kind} (noArray : kind.isArray = false) (children : List Seen)
    (awaiting other : Bool) :
    entries? kind awaiting children = entries? kind other children := by
  induction children generalizing awaiting other with
  | nil =>
      rfl
  | cons child rest inductionHypothesis =>
      obtain ⟨field, seenAs⟩ := child
      have sameHere :
          seenAs.entries? kind awaiting field = seenAs.entries? kind other field := by
        cases seenAs <;> simp [Sight.entries?, noArray]
      rw [entries?, entries?, sameHere,
        inductionHypothesis (seenAs.awaits kind awaiting) (seenAs.awaits kind other)]

theorem name_of_mem_tokenEntries
    {field : Option String} {spelling : String} {entry : Entry}
    (isEntry : entry ∈ tokenEntries field spelling) :
    field = some entry.1 ∨ entry.1 = Shape.tokensField := by
  unfold tokenEntries at isEntry
  split at isEntry
  · split at isEntry
    · cases isEntry
    · exact .inl (by rw [List.mem_singleton.mp isEntry])
  · split at isEntry
    · exact .inr (by rw [List.mem_singleton.mp isEntry])
    · cases isEntry

theorem name_of_mem_child
    {kind : Kind} {awaiting : Bool} {field : Option String} {child : Sight}
    {entries : List Entry} (left : child.entries? kind awaiting field = some entries)
    {entry : Entry} (isEntry : entry ∈ entries) :
    field = some entry.1 ∨ entry.1 = Shape.childrenField ∨ entry.1 = Shape.tokensField := by
  have inField : entry.1 = field.getD Shape.childrenField →
      field = some entry.1 ∨ entry.1 = Shape.childrenField ∨ entry.1 = Shape.tokensField := by
    cases field <;> simp_all
  cases child with
  | token spelling =>
      simp only [Sight.entries?] at left
      split at left
      · cases left
        split at isEntry
        · exact .inr (.inl (by rw [List.mem_singleton.mp isEntry]))
        · cases isEntry
      · cases left
        rcases name_of_mem_tokenEntries isEntry with sameField | isTokens
        · exact .inl sameField
        · exact .inr (.inr isTokens)
  | comment =>
      cases left
      cases isEntry
  | node shorthand outline substituted =>
      apply inField
      simp only [Sight.entries?] at left
      split at left
      · cases left
        rw [List.mem_singleton.mp isEntry]
      · obtain ⟨value, -, rfl⟩ := Option.map_eq_some_iff.mp left
        cases value with
        | none =>
            cases isEntry
        | some tree =>
            rw [List.mem_singleton.mp isEntry]

/-- Every entry goes to the field of some child, or to the fields of children
and keywords that have none. -/
theorem name_of_mem_entries?
    {kind : Kind} {awaiting : Bool} {children : List Seen} {entries : List Entry}
    (left : entries? kind awaiting children = some entries) {entry : Entry}
    (isEntry : entry ∈ entries) :
    (∃ child ∈ children, child.1 = some entry.1) ∨ entry.1 = Shape.childrenField ∨
      entry.1 = Shape.tokensField := by
  induction children generalizing awaiting entries with
  | nil =>
      cases left
      cases isEntry
  | cons child rest inductionHypothesis =>
      obtain ⟨field, seenAs⟩ := child
      simp only [entries?, Option.bind_eq_some_iff, Option.map_eq_some_iff] at left
      obtain ⟨here, leftHere, later, leftLater, rfl⟩ := left
      rcases List.mem_append.mp isEntry with inHere | inLater
      · rcases name_of_mem_child leftHere inHere with sameField | others
        · exact .inl ⟨(field, seenAs), List.mem_cons_self, sameField⟩
        · exact .inr others
      · rcases inductionHypothesis leftLater inLater with ⟨child, isChild, sameField⟩ | others
        · exact .inl ⟨child, List.mem_cons_of_mem _ isChild, sameField⟩
        · exact .inr others

/-! ## Lowering composes outlines -/

theorem toOption_shapeOf (options : Options) (kind : Kind) (place : Place) :
    (shapeOf options kind place).toOption = gate options kind := by
  unfold gate shapeOf
  split
  · rfl
  · split
    · rfl
    · split <;> rfl

theorem erase_shorthandProperty (name : String) :
    erase (shorthandProperty name).toTree = anyProperty := by
  have keyFirst : Text.lessThan "value" "key" = false := by
    decide
  simp [shorthandProperty, Shape.Node.push, Shape.Node.bare, Shape.Node.leaf,
    Shape.Node.toTree, Shape.Kind.isLexical, anyProperty, Fields.push, keyFirst, erase,
    eraseFields, eraseItems]

/-- Entries without lexical detail. -/
def eraseEntries (entries : List Entry) : List Entry :=
  entries.map fun entry => (entry.1, erase entry.2)

section Children

variable {options : Options} {parent : Kind} {awaiting : Bool} {field : Option String}
  {rest : List Child} {fields : Fields} {tree : Tree}

variable (options parent awaiting field rest fields tree) in
/-- What lowering does with the first child: it refuses the child, or pushes
what the child leaves and goes on. -/
inductive ChildStep : Prop where
  | refused
      (nothing : (sight options tree).entries? parent awaiting field = none)
      (fails : (lowerChildren options parent awaiting ((field, tree) :: rest) fields).toOption =
        none)
  | pushed
      (entries : List Entry)
      (leaves : (sight options tree).entries? parent awaiting field =
        some (eraseEntries entries))
      (goesOn : lowerChildren options parent awaiting ((field, tree) :: rest) fields =
        lowerChildren options parent ((sight options tree).awaits parent awaiting) rest
          (pushAll entries fields))

theorem childStep_token (spelling : String) :
    ChildStep options parent awaiting field rest fields (.token spelling) := by
  have elision :
      erase (Shape.Node.bare .elision).toTree = (Shape.Node.bare .elision).toTree := by
    simp [Shape.Node.bare, Shape.Node.toTree, erase, eraseFields, Shape.Kind.isLexical]
  cases inArray : parent.isArray with
  | true =>
      by_cases hole : spelling = "," ∧ awaiting = true
      · refine .pushed [(Shape.childrenField, (Shape.Node.bare .elision).toTree)] ?_ ?_
        · simp [sight, Sight.entries?, inArray, hole, eraseEntries, elision]
        · simp [sight, Sight.awaits, lowerChildren, inArray, hole, pushAll]
      · refine .pushed [] ?_ ?_
        · simp [sight, Sight.entries?, inArray, hole, eraseEntries]
        · by_cases comma : spelling = "," <;>
            simp_all [sight, Sight.awaits, lowerChildren, pushAll]
  | false =>
      cases field with
      | some name =>
          cases modifier : isFieldModifier name spelling with
          | true =>
              refine .pushed [] ?_ ?_
              · simp [sight, Sight.entries?, tokenEntries, inArray, modifier, eraseEntries]
              · simp [sight, Sight.awaits, lowerChildren, inArray, modifier, pushAll]
          | false =>
              refine .pushed [(name, .word spelling)] ?_ ?_
              · simp [sight, Sight.entries?, tokenEntries, inArray, modifier, eraseEntries,
                  erase]
              · simp [sight, Sight.awaits, lowerChildren, inArray, modifier, pushAll]
      | none =>
          cases kept : isKeptKeyword spelling with
          | true =>
              refine .pushed [(Shape.tokensField, .word spelling)] ?_ ?_
              · simp [sight, Sight.entries?, tokenEntries, inArray, kept, eraseEntries, erase]
              · simp [sight, Sight.awaits, lowerChildren, inArray, kept, pushAll]
          | false =>
              refine .pushed [] ?_ ?_
              · simp [sight, Sight.entries?, tokenEntries, inArray, kept, eraseEntries]
              · simp [sight, Sight.awaits, lowerChildren, inArray, kept, pushAll]

theorem childStep_named
    (named : ∀ spelling, tree = .token spelling → False) :
    ChildStep options parent awaiting field rest fields tree := by
  have unfolded := lowerChildren.eq_4 options parent awaiting fields field tree rest named
  cases extra : tree.isExtra with
  | true =>
      have seenAs := sight_of_isExtra options extra
      refine .pushed [] ?_ ?_
      · simp [seenAs, Sight.entries?, eraseEntries]
      · simp [unfolded, seenAs, extra, Sight.awaits, pushAll]
  | false =>
      have seenAs :
          sight options tree = .node (tree.kind?.any Kind.isShorthand)
            (outline? options tree) (substituted? options tree) := by
        simp [sight.eq_2 options tree named, extra]
      cases shorthand : parent.isObject && tree.kind?.any Kind.isShorthand with
      | true =>
          refine .pushed
            [(field.getD Shape.childrenField, (shorthandProperty tree.spelling).toTree)] ?_ ?_
          · simp [seenAs, Sight.entries?, shorthand, eraseEntries, erase_shorthandProperty]
          · simp [unfolded, seenAs, extra, shorthand, Sight.awaits, pushAll]
      | false =>
          cases lowered : lower options tree with
          | error fault =>
              refine .refused ?_ ?_
              · simp [seenAs, Sight.entries?, shorthand, outline?, lowered, erased,
                  Except.toOption]
              · simp [unfolded, extra, shorthand, lowered, bind, Except.bind,
                  Except.toOption]
          | ok value =>
              refine .pushed
                ((value.map fun node => (field.getD Shape.childrenField, node.toTree)).toList)
                ?_ ?_
              · cases value <;>
                  simp [seenAs, Sight.entries?, shorthand, outline?, lowered, erased,
                    Except.toOption, eraseEntries]
              · cases value <;>
                  simp [unfolded, seenAs, extra, shorthand, lowered, Sight.awaits, bind,
                    Except.bind, pushAll]

variable (options parent awaiting field rest fields tree) in
theorem childStep :
    ChildStep options parent awaiting field rest fields tree := by
  cases tree with
  | token spelling =>
      exact childStep_token spelling
  | leaf kind place spelling =>
      exact childStep_named fun _ equal => by cases equal
  | branch kind place children =>
      exact childStep_named fun _ equal => by cases equal

end Children

/-- The fields of a node, without lexical detail, are made of the entries that
its children leave. -/
theorem lowerChildren_eq_entries
    (options : Options) (parent : Kind) (awaiting : Bool) (children : List Child)
    (fields : Fields) :
    (lowerChildren options parent awaiting children fields).toOption.map eraseFields =
      (entries? parent awaiting (seen options children)).map fun entries =>
        pushAll entries (eraseFields fields) := by
  induction children generalizing awaiting fields with
  | nil =>
      rfl
  | cons child rest inductionHypothesis =>
      obtain ⟨field, tree⟩ := child
      rw [seen_cons, entries?]
      cases childStep options parent awaiting field rest fields tree with
      | refused nothing fails =>
          rw [nothing, fails]
          rfl
      | pushed here leaves goesOn =>
          rw [leaves, goesOn, inductionHypothesis, eraseFields_pushAll]
          simp only [Option.bind_some, Option.map_map]
          congr 1
          funext later
          exact (pushAll_append _ _ _).symm

theorem lowerFirst_eq_first (options : Options) (children : List Child) :
    erased (lowerFirst options children) = first? (seen options children) := by
  induction children with
  | nil =>
      rfl
  | cons child rest inductionHypothesis =>
      obtain ⟨field, tree⟩ := child
      rw [lowerFirst, seen_cons]
      cases proper : tree.isProper with
      | true =>
          rw [sight_of_isProper options proper]
          rfl
      | false =>
          rcases sight_of_not_isProper options proper with
            ⟨spelling, seenAs⟩ | seenAs
          · simpa [seenAs, first?] using inductionHypothesis
          · simpa [seenAs, first?] using inductionHypothesis

/-! ### Templates -/

section Templates

variable (options : Options) {tree : Tree}

theorem substituted?_of_ne
    (noSubstitution : ∀ place children,
      tree = .branch .templateSubstitution place children → False) :
    substituted? options tree = none := by
  unfold substituted?
  split
  · exact (noSubstitution _ _ rfl).elim
  · rfl

theorem pieces?_of_substituted?
    {options : Options} (noSubstitution : substituted? options tree = none) :
    (sight options tree).pieces? = some [] := by
  cases proper : tree.isProper with
  | true =>
      rw [sight_of_isProper options proper, noSubstitution]
      rfl
  | false =>
      rcases sight_of_not_isProper options proper with ⟨spelling, seenAs⟩ | seenAs
      · rw [seenAs]
        rfl
      · rw [seenAs]
        rfl

/-- Whatever is no substitution goes to the text of a template or is dropped. -/
theorem lowerTemplate_text
    (noSubstitution : ∀ place children,
      tree = .branch .templateSubstitution place children → False)
    (text : String) (field : Option String) (rest : List Child) (fields : Fields) :
    ∃ longer, ∀ options : Options,
      lowerTemplate options text ((field, tree) :: rest) fields =
        lowerTemplate options longer rest fields := by
  by_cases backtick : tree = .token "\x60"
  · subst backtick
    exact ⟨text, fun options => by rw [lowerTemplate]⟩
  · refine ⟨if tree.isExtra then text else text ++ tree.spelling, fun options => ?_⟩
    rw [lowerTemplate.eq_4 options text fields field tree rest noSubstitution backtick]
    split <;> rfl

end Templates

theorem lowerTemplate_eq_pieces
    (options : Options) (text : String) (children : List Child) (fields : Fields) :
    (lowerTemplate options text children fields).toOption.map eraseFields =
      (pieces? (seen options children)).map fun entries =>
        pushAll entries (eraseFields fields) := by
  have eraseQuasi :
      ∀ quasi, erase (Shape.Node.leaf .templateElement quasi).toTree = anyLeaf := by
    intro quasi
    exact Shape.Tree.erase_lexical rfl
  induction children generalizing text fields with
  | nil =>
      simp [lowerTemplate, seen, pieces?, Except.toOption, eraseQuasi, pushAll]
  | cons child rest inductionHypothesis =>
      obtain ⟨field, tree⟩ := child
      rw [seen_cons, pieces?]
      by_cases substitution :
          ∃ place children, tree = .branch .templateSubstitution place children
      · obtain ⟨place, children, rfl⟩ := substitution
        have seenAs :
            (sight options (.branch .templateSubstitution place children)).pieces? =
              (erased (lowerFirst options children)).map fun value =>
                ("quasis", anyLeaf) ::
                  (value.map fun tree => ("expressions", tree)).toList := by
          rfl
        rw [lowerTemplate, seenAs]
        cases lowered : lowerFirst options children with
        | error fault =>
            rfl
        | ok value =>
            cases value with
            | none =>
                simp only [bind, Except.bind, inductionHypothesis,
                  Shape.Tree.eraseFields_push, eraseQuasi]
                simp [erased, Except.toOption, pushAll, Function.comp_def]
            | some node =>
                simp only [bind, Except.bind, inductionHypothesis,
                  Shape.Tree.eraseFields_push, eraseQuasi]
                simp [erased, Except.toOption, pushAll, Function.comp_def]
      · have noSubstitution :
            ∀ place children, tree = .branch .templateSubstitution place children → False :=
          fun place children isSubstitution => substitution ⟨place, children, isSubstitution⟩
        obtain ⟨longer, goesOn⟩ :=
          lowerTemplate_text noSubstitution text field rest fields
        rw [goesOn, inductionHypothesis,
          pieces?_of_substituted? (substituted?_of_ne options noSubstitution)]
        simp

/-! ### Nodes -/

/-- A node around fields that may be refused. -/
theorem erased_node
    (shape : Shape.Kind) (structural : shape.isLexical = false) (kind : Kind)
    (fields : Except Fault Fields) :
    erased (do
        let values ← fields
        return some ⟨shape, settle kind values, none⟩) =
      (fields.toOption.map eraseFields).map fun values =>
        some (.node shape (settle kind values) none) := by
  cases fields with
  | error fault =>
      rfl
  | ok values =>
      simp [erased, Except.toOption, bind, Except.bind, pure, Except.pure, Shape.Node.toTree,
        structural, eraseFields_settle]

/-- A node that is lowered in the general way, whatever its fields are. -/
theorem erased_general
    (options : Options) (kind : Kind) (place : Place) (text : String)
    (fields : Except Fault Fields) :
    erased (do
        let shape ← shapeOf options kind place
        if shape.isLexical then return some (Shape.Node.leaf shape text)
        if shape = .jsxText then return some (Shape.Node.bare shape)
        let values ← fields
        return some ⟨shape, settle kind values, none⟩) =
      (gate options kind).bind fun shape =>
        if shape.isLexical then some (some anyLeaf)
        else if shape = .jsxText then some (some (.node .jsxText [] none))
        else (fields.toOption.map eraseFields).map fun values =>
          some (.node shape (settle kind values) none) := by
  rw [← toOption_shapeOf options kind place]
  cases shapeOf options kind place with
  | error fault =>
      rfl
  | ok shape =>
      cases lexical : shape.isLexical with
      | true =>
          simp [erased, Except.toOption, bind, Except.bind, lexical, pure, Except.pure,
            Shape.Node.leaf, Shape.Node.toTree]
      | false =>
          by_cases isText : shape = .jsxText
          · subst isText
            rfl
          · simpa [Except.toOption, bind, Except.bind, lexical, isText] using
              erased_node shape lexical kind fields

/-- The children of a tree. -/
def Tree.children : Tree → List Child
  | .branch _ _ children => children
  | _ => []

/-- The outline of a node is composed of what is seen of its children. -/
theorem outline?_eq_compose
    (options : Options) {kind : Kind} (notPrivate : kind ≠ .privatePropertyIdentifier)
    {tree : Tree} (isKind : tree.kind? = some kind) :
    outline? options tree = compose options kind (seen options tree.children) := by
  cases tree with
  | token spelling =>
      cases isKind
  | leaf treeKind place spelling =>
      cases isKind
      unfold compose outline?
      -- Without children, all but hash bangs and the general case are fixed.
      split <;> try (rw [lower]; rfl)
      · rw [lower]
        cases options.hashBang <;> rfl
      · rename_i noComment noHtml noHashBang noParentheses noComputed noTemplate
        rw [lower.eq_9 options kind place spelling noComment noHtml noHashBang noParentheses
          noComputed noTemplate notPrivate]
        exact erased_general options kind place spelling (.ok [])
  | branch treeKind place children =>
      cases isKind
      unfold compose outline?
      split <;> try (rw [lower]; rfl)
      · rw [lower]
        cases options.hashBang <;> rfl
      · rw [lower]
        exact lowerFirst_eq_first options children
      · rw [lower]
        exact lowerFirst_eq_first options children
      · have made := erased_node .templateLiteral rfl .templateString
          (lowerTemplate options "" children [])
        rw [lowerTemplate_eq_pieces, Option.map_map] at made
        rw [lower]
        exact made
      · rename_i noComment noHtml noHashBang noParentheses noComputed noTemplate
        rw [lower.eq_17 options kind place children noComment noHtml noHashBang noParentheses
          noComputed noTemplate notPrivate, erased_general, lowerChildren_eq_entries]
        simp only [Option.map_map]
        rfl

/-! ## Sights -/

/-- The outline that is seen. -/
def Sight.outline? : Sight → Option (Option Shape.Tree)
  | .node _ outline _ => outline
  | _ => some none

theorem Kind.eq_of_isExtra {kind : Kind} (extra : kind.isExtra = true) :
    kind = .comment ∨ kind = .htmlComment := by
  unfold Kind.isExtra at extra
  split at extra
  · exact .inl rfl
  · exact .inr rfl
  · cases extra

theorem kind?_eq_none_iff (tree : Tree) :
    tree.kind? = none ↔ ∃ spelling, tree = .token spelling := by
  cases tree <;> simp [Tree.kind?]

theorem outline?_of_not_isProper
    (options : Options) {tree : Tree} (notProper : tree.isProper = false) :
    outline? options tree = some none := by
  cases isKind : tree.kind? with
  | none =>
      obtain ⟨spelling, rfl⟩ := (kind?_eq_none_iff tree).mp isKind
      rfl
  | some kind =>
      have extra : kind.isExtra = true := by
        simpa [Tree.isProper, Tree.isExtra, isKind] using notProper
      rcases Kind.eq_of_isExtra extra with rfl | rfl
      · exact outline?_eq_compose options (by decide) isKind
      · exact outline?_eq_compose options (by decide) isKind

theorem outline?_eq_sight (options : Options) (tree : Tree) :
    outline? options tree = (sight options tree).outline? := by
  cases proper : tree.isProper with
  | true =>
      rw [sight_of_isProper options proper]
      rfl
  | false =>
      rw [outline?_of_not_isProper options proper]
      rcases sight_of_not_isProper options proper with ⟨spelling, seenAs⟩ | seenAs
      · rw [seenAs]
        rfl
      · rw [seenAs]
        rfl

/-- What is seen of a branch is composed of what is seen of its children. -/
theorem sight_branch
    (options : Options) {kind : Kind} (notPrivate : kind ≠ .privatePropertyIdentifier)
    (notExtra : kind.isExtra = false) (place : Place) (children : List Child) :
    sight options (.branch kind place children) =
      .node kind.isShorthand (compose options kind (seen options children))
        (if kind = .templateSubstitution then some (first? (seen options children)) else none) := by
  have proper : (Tree.branch kind place children).isProper = true := by
    simp [Tree.isProper, Tree.isExtra, Tree.kind?, notExtra]
  have outline : outline? options (.branch kind place children) = _ :=
    outline?_eq_compose options notPrivate rfl
  rw [sight_of_isProper options proper, outline]
  by_cases substitution : kind = .templateSubstitution
  · subst substitution
    simp [substituted?, lowerFirst_eq_first, Tree.kind?, Tree.children]
  · have noSubstitution :
        substituted? options (.branch kind place children) = none := by
      apply substituted?_of_ne
      intro otherPlace otherChildren isSubstitution
      cases isSubstitution
      exact substitution rfl
    simp [noSubstitution, substitution, Tree.kind?, Tree.children]

/-! ## Outlines and shapes -/

theorem outline?_eq_some_iff
    {options : Options} {tree : Tree} {outline : Option Shape.Tree} :
    outline? options tree = some outline ↔
      ∃ shape, lower options tree = .ok shape ∧
        (shape.map fun node => erase node.toTree) = outline := by
  unfold outline? erased
  cases lower options tree with
  | error fault =>
      simp [Except.toOption]
  | ok shape =>
      simp [Except.toOption]

/-- Tokens and comments are not lowered to nodes. -/
theorem isProper_of_lower
    {options : Options} {tree : Tree} {node : Shape.Node}
    (lowered : lower options tree = .ok (some node)) :
    tree.isProper = true := by
  cases proper : tree.isProper with
  | true =>
      rfl
  | false =>
      have outlined := outline?_eq_some_iff.mpr ⟨some node, lowered, rfl⟩
      rw [outline?_of_not_isProper options proper] at outlined
      cases outlined

theorem lowerProgram_of_lower
    {options : Options} {tree : Tree} {shape : Option Shape.Node}
    (lowered : lower options tree = .ok shape) :
    lowerProgram options tree = .ok (shape.getD (Shape.Node.bare .program)) := by
  simp [lowerProgram, lowered, bind, Except.bind, pure, Except.pure]

theorem lower_of_lowerProgram
    {options : Options} {tree : Tree} {program : Shape.Node}
    (lowered : lowerProgram options tree = .ok program) :
    ∃ shape, lower options tree = .ok shape ∧
      shape.getD (Shape.Node.bare .program) = program := by
  unfold lowerProgram at lowered
  cases result : lower options tree with
  | error fault =>
      simp [result, bind, Except.bind] at lowered
  | ok shape =>
      refine ⟨shape, rfl, ?_⟩
      simpa [result, bind, Except.bind, pure, Except.pure] using lowered

theorem lowerProgram_of_outline?
    {options : Options} {tree : Tree} {outline : Shape.Tree}
    (outlined : outline? options tree = some (some outline)) :
    ∃ program, lowerProgram options tree = .ok program ∧ erase program.toTree = outline := by
  obtain ⟨shape, lowered, erased⟩ := outline?_eq_some_iff.mp outlined
  cases shape with
  | none =>
      cases erased
  | some node =>
      exact ⟨node, lowerProgram_of_lower lowered, Option.some.inj erased⟩

/-! ## Places -/

namespace Tree

mutual

/-- A tree without its places. -/
def unplaced : Tree → Tree
  | .token spelling => .token spelling
  | .leaf kind _ spelling => .leaf kind ⟨1, 1⟩ spelling
  | .branch kind _ children => .branch kind ⟨1, 1⟩ (unplacedChildren children)

/-- Children without their places. -/
def unplacedChildren : List (Option String × Tree) → List (Option String × Tree)
  | [] => []
  | (field, child) :: rest => (field, unplaced child) :: unplacedChildren rest

end

mutual

theorem spelling_unplaced : ∀ tree : Tree, tree.unplaced.spelling = tree.spelling
  | .token _ => rfl
  | .leaf _ _ _ => rfl
  | .branch _ _ children => by
      rw [unplaced, spelling, spelling, spellingOf_unplacedChildren children]

theorem spellingOf_unplacedChildren :
    ∀ children : List (Option String × Tree),
      spellingOf (unplacedChildren children) = spellingOf children
  | [] => rfl
  | (field, child) :: rest => by
      rw [unplacedChildren, spellingOf, spellingOf, spelling_unplaced child,
        spellingOf_unplacedChildren rest]

end

end Tree

theorem sight_leaf_place
    (options : Options) (kind : Kind) (place other : Place) (spelling : String) :
    sight options (.leaf kind place spelling) = sight options (.leaf kind other spelling) := by
  have sameOutline :
      outline? options (.leaf kind place spelling) =
        outline? options (.leaf kind other spelling) := by
    by_cases isPrivate : kind = .privatePropertyIdentifier
    · subst isPrivate
      simp only [outline?, lower]
    · rw [outline?_eq_compose options isPrivate rfl, outline?_eq_compose options isPrivate rfl]
      rfl
  simp only [sight, sameOutline]
  rfl

-- A private identifier is the one branch of which more than the sights of its
-- children is seen, namely what they spell.
mutual

theorem sight_unplaced (options : Options) :
    ∀ tree : Tree, sight options tree.unplaced = sight options tree
  | .token _ => rfl
  | .leaf kind place spelling => sight_leaf_place options kind _ place spelling
  | .branch kind place children => by
      rw [Tree.unplaced]
      by_cases isPrivate : kind = .privatePropertyIdentifier
      · subst isPrivate
        simp [sight, outline?, lower, Tree.spellingOf_unplacedChildren, substituted?,
          Tree.kind?, Tree.isExtra, Kind.isExtra]
      · cases extra : kind.isExtra with
        | true =>
            simp [sight, Tree.isExtra, Tree.kind?, extra]
        | false =>
            rw [sight_branch options isPrivate extra, sight_branch options isPrivate extra,
              seen_unplacedChildren options children]

theorem seen_unplacedChildren (options : Options) :
    ∀ children : List (Option String × Tree),
      seen options (Tree.unplacedChildren children) = seen options children
  | [] => rfl
  | (field, child) :: rest => by
      rw [Tree.unplacedChildren, seen_cons, seen_cons, sight_unplaced options child,
        seen_unplacedChildren options rest]

end

theorem outline?_unplaced (options : Options) (tree : Tree) :
    outline? options tree.unplaced = outline? options tree := by
  rw [outline?_eq_sight, outline?_eq_sight, sight_unplaced]

end ShapeAudit.Source
