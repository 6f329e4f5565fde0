import ShapeAudit.Proofs.Alignment
import ShapeAudit.Proofs.Source.Prefixed
import ShapeAudit.Proofs.Source.WellFormed

/-!
# Sizes of alike programs

The comparison does not look into lexical nodes, and the count of nodes does.
So the two fit together where lexical nodes have no fields: there a tree has as
many nodes as its erasure, and alike trees have equally many.  Lowering makes
lexical nodes without fields only, so two sources between which no difference
is reported have shapes of the same size.
-/

namespace ShapeAudit

namespace Shape

open Shape.Tree

/-! ## Trees and their erasures -/

/-- No lexical node in a tree, at any depth, has fields. -/
inductive LeavesBare : Tree → Prop where
  | word (value : String) : LeavesBare (.word value)
  | list {items : List Tree} :
      (∀ item ∈ items, LeavesBare item) →
      LeavesBare (.list items)
  | node {kind : Kind} {fields : Fields} {text : Option String} :
      (kind.isLexical = true → fields = []) →
      (∀ field ∈ fields, ∀ value ∈ field.2, LeavesBare value) →
      LeavesBare (.node kind fields text)

mutual

theorem count_erase :
    ∀ tree : Tree, LeavesBare tree → (erase tree).count = tree.count
  | .node kind fields text, .node bare inside => by
      cases lexical : kind.isLexical with
      | true =>
          rw [erase_lexical lexical, bare lexical]
          rfl
      | false =>
          rw [erase_structural lexical, count, count, countFields_eraseFields fields inside]
  | .list items, .list inside => by
      rw [erase, count, count, countItems_eraseItems items inside]
  | .word value, _ => by
      rw [erase]

theorem countItems_eraseItems :
    ∀ items : List Tree, (∀ item ∈ items, LeavesBare item) →
      countItems (eraseItems items) = countItems items
  | [], _ => by
      rw [eraseItems]
  | item :: rest, bare => by
      have here := count_erase item (bare item List.mem_cons_self)
      have there := countItems_eraseItems rest fun other isOther =>
        bare other (List.mem_cons_of_mem item isOther)
      rw [eraseItems, countItems, countItems, here, there]

theorem countFields_eraseFields :
    ∀ fields : List (String × List Tree),
      (∀ field ∈ fields, ∀ value ∈ field.2, LeavesBare value) →
        countFields (eraseFields fields) = countFields fields
  | [], _ => by
      rw [eraseFields]
  | (name, items) :: rest, bare => by
      have here := countItems_eraseItems items (bare (name, items) List.mem_cons_self)
      have there := countFields_eraseFields rest fun other isOther =>
        bare other (List.mem_cons_of_mem (name, items) isOther)
      rw [eraseFields, countFields, countFields, here, there]

end

/-- Trees that are not told apart have equally many nodes. -/
theorem count_eq_of_alike
    {a b : Tree} (bareA : LeavesBare a) (bareB : LeavesBare b) (alike : differ a b = false) :
    a.count = b.count := by
  have sameErasure : erase a = erase b := (differ_eq_false_iff a b).mp alike
  rw [← count_erase a bareA, ← count_erase b bareB, sameErasure]

/-! ## Fields with bare leaves -/

/-- Every value in some fields satisfies a condition. -/
def Fields.Hold (condition : Tree → Prop) (fields : Fields) : Prop :=
  ∀ field ∈ fields, ∀ value ∈ field.2, condition value

namespace Fields.Hold

variable {condition : Tree → Prop} {fields : Fields} {name : String}

theorem nil : Hold condition [] := by
  intro field isField
  cases isField

theorem cons_iff {values : List Tree} :
    Hold condition ((name, values) :: fields) ↔
      (∀ value ∈ values, condition value) ∧ Hold condition fields := by
  simp [Hold]

theorem of_mem_get
    (held : Hold condition fields) {value : Tree} (isValue : value ∈ get name fields) :
    condition value := by
  rw [get_eq_find?] at isValue
  cases found : find? name fields with
  | none =>
      simp [found] at isValue
  | some values =>
      rw [found] at isValue
      exact held (name, values) (mem_of_find? found) value isValue

theorem remove (held : Hold condition fields) : Hold condition (remove name fields) :=
  fun field isField => held field (mem_of_mem_remove isField)

theorem put
    (held : Hold condition fields) {values : List Tree}
    (areHeld : ∀ value ∈ values, condition value) :
    Hold condition (put name values fields) := by
  induction fields with
  | nil =>
      exact cons_iff.mpr ⟨areHeld, nil⟩
  | cons head rest inductionHypothesis =>
      obtain ⟨headHeld, restHeld⟩ := cons_iff.mp held
      unfold Fields.put
      split
      · exact cons_iff.mpr ⟨areHeld, restHeld⟩
      · split
        · exact cons_iff.mpr ⟨areHeld, held⟩
        · exact cons_iff.mpr ⟨headHeld, inductionHypothesis restHeld⟩

theorem push
    (held : Hold condition fields) {value : Tree} (isHeld : condition value) :
    Hold condition (push name value fields) := by
  induction fields with
  | nil =>
      exact cons_iff.mpr ⟨by simpa using isHeld, nil⟩
  | cons head rest inductionHypothesis =>
      obtain ⟨headHeld, restHeld⟩ := cons_iff.mp held
      unfold Fields.push
      split
      · refine cons_iff.mpr ⟨?_, restHeld⟩
        intro other isOther
        rcases List.mem_append.mp isOther with isOld | isNew
        · exact headHeld other isOld
        · rw [List.mem_singleton.mp isNew]
          exact isHeld
      · split
        · exact cons_iff.mpr ⟨by simpa using isHeld, held⟩
        · exact cons_iff.mpr ⟨headHeld, inductionHypothesis restHeld⟩

end Fields.Hold

theorem leavesBare_structural
    {kind : Kind} {fields : Fields} {text : Option String}
    (structural : kind.isLexical = false) (held : fields.Hold LeavesBare) :
    LeavesBare (.node kind fields text) :=
  .node (by simp [structural]) held

theorem leavesBare_leaf (kind : Kind) (text : String) :
    LeavesBare (Node.leaf kind text).toTree :=
  .node (fun _ => rfl) Fields.Hold.nil

end Shape

/-! ## Lowered trees -/

namespace Source

open Shape (Fields LeavesBare leavesBare_structural leavesBare_leaf)

theorem hold_pushAll
    {condition : Shape.Tree → Prop} {entries : List Entry} {fields : Fields}
    (entriesHeld : ∀ entry ∈ entries, condition entry.2) (held : fields.Hold condition) :
    (pushAll entries fields).Hold condition := by
  induction entries generalizing fields with
  | nil =>
      exact held
  | cons entry rest inductionHypothesis =>
      rw [pushAll_cons]
      have pushed : (Fields.push entry.1 entry.2 fields).Hold condition :=
        held.push (entriesHeld entry List.mem_cons_self)
      exact inductionHypothesis
        (fun other isOther => entriesHeld other (List.mem_cons_of_mem entry isOther)) pushed

theorem leavesBare_parameterList
    {values : List Shape.Tree} (bare : ∀ value ∈ values, LeavesBare value) :
    LeavesBare (parameterList values) := by
  apply leavesBare_structural rfl
  refine hold_pushAll ?_ .nil
  intro entry isEntry
  obtain ⟨value, isValue, rfl⟩ := List.mem_map.mp isEntry
  exact bare value isValue

/-- Settling moves and drops values and makes up nodes without lexical fields. -/
theorem leavesBare_settle
    (kind : Kind) {fields : Fields} (held : fields.Hold LeavesBare) :
    (settle kind fields).Hold LeavesBare := by
  rcases settle_cases kind with rfl | rfl | rfl | rfl | unsettled
  · unfold settle
    dsimp only
    split
    · exact held.remove.put fun value isValue => held.of_mem_get isValue
    · exact held
  · unfold settle
    dsimp only
    split
    · rw [Shape.Node.bare, foldl_push_children]
      exact held.remove.push
        (leavesBare_parameterList fun value isValue => held.of_mem_get isValue)
    · exact held
  · have heldWithout : (withoutVar fields).Hold LeavesBare := by
      unfold withoutVar
      split
      · exact held
      · split
        · exact held.remove
        · exact held.put fun value isValue => held.of_mem_get (List.mem_filter.mp isValue).1
    rw [settle_variable]
    split
    · exact heldWithout
    · exact heldWithout.push (.word "var")
  · unfold settle
    dsimp only
    split
    · exact held
    · exact held.push (leavesBare_structural rfl .nil)
  · rw [unsettled]
    exact held

theorem leavesBare_shorthandProperty (name : String) :
    LeavesBare (shorthandProperty name).toTree := by
  have word := leavesBare_leaf .identifier name
  have pair : (Fields.push "value" (Shape.Node.leaf .identifier name).toTree
      (Fields.push "key" (Shape.Node.leaf .identifier name).toTree [])).Hold LeavesBare :=
    (Fields.Hold.nil.push word).push word
  exact leavesBare_structural rfl pair

section Nodes

variable {options : Options} {children : List Child}

theorem leavesBare_of_leaves
    {parent : Kind} {child : Child}
    (bare : ∀ node, lower options child.2 = .ok (some node) → LeavesBare node.toTree)
    {entry : Entry} (leaves : Leaves options parent child entry) :
    LeavesBare entry.2 := by
  cases leaves with
  | hole child isArray =>
      exact leavesBare_structural rfl .nil
  | word name spelling =>
      exact .word spelling
  | keyword spelling =>
      exact .word spelling
  | property field tree name =>
      exact leavesBare_shorthandProperty name
  | shape field lowered =>
      exact bare _ lowered

theorem leavesBare_of_builtNode
    (bare : ∀ child ∈ children, ∀ node, lower options child.2 = .ok (some node) →
      LeavesBare node.toTree)
    {kind : Kind} {shape : Shape.Kind} {text : String} {node : Shape.Node}
    (made : builtNode options kind text children shape = .ok (some node)) :
    LeavesBare node.toTree := by
  unfold builtNode at made
  split at made
  · cases made
    exact leavesBare_leaf shape text
  rename_i structural
  rw [Bool.not_eq_true] at structural
  split at made
  · cases made
    exact leavesBare_structural structural .nil
  obtain ⟨pushed, lowered, built⟩ := bind_eq_ok_iff.mp made
  cases built
  obtain ⟨entries, rfl, fromChildren⟩ := leaves_of_lowerChildren lowered
  apply leavesBare_structural structural
  apply leavesBare_settle
  refine hold_pushAll ?_ .nil
  intro entry isEntry
  obtain ⟨child, isChild, leaves⟩ := fromChildren entry isEntry
  exact leavesBare_of_leaves (bare child isChild) leaves

theorem leavesBare_of_lowerTemplate
    (bare : ∀ child ∈ children, ∀ node,
      lowerFirst options child.2.children = .ok (some node) → LeavesBare node.toTree)
    {text : String} {fields result : Fields} (held : fields.Hold LeavesBare)
    (lowered : lowerTemplate options text children fields = .ok result) :
    result.Hold LeavesBare := by
  induction children generalizing text fields with
  | nil =>
      cases lowered
      exact held.push (leavesBare_leaf .templateElement text)
  | cons child rest inductionHypothesis =>
      obtain ⟨field, tree⟩ := child
      have inRest := @inductionHypothesis fun other isOther =>
        bare other (List.mem_cons_of_mem _ isOther)
      by_cases substitution : ∃ place inner, tree = .branch .templateSubstitution place inner
      · obtain ⟨place, inner, rfl⟩ := substitution
        rw [lowerTemplate_substitution] at lowered
        obtain ⟨shape, innerLowered, restLowered⟩ := bind_eq_ok_iff.mp lowered
        refine inRest (hold_pushAll ?_ held) restLowered
        intro entry isEntry
        rcases List.mem_cons.mp isEntry with rfl | isExpression
        · exact leavesBare_leaf .templateElement text
        · obtain ⟨node, rfl, rfl⟩ : ∃ node, shape = some node ∧
              ("expressions", node.toTree) = entry := by
            simpa using isExpression
          exact bare _ List.mem_cons_self node innerLowered
      · obtain ⟨longer, goesOn⟩ := lowerTemplate_text
          (fun place inner isSubstitution => substitution ⟨place, inner, isSubstitution⟩)
          text field rest fields
        rw [goesOn] at lowered
        exact inRest held lowered

end Nodes

theorem leavesBare_of_lower
    {options : Options} (tree : Tree) :
    (∀ node, lower options tree = .ok (some node) → LeavesBare node.toTree) ∧
      ∀ node, lowerFirst options tree.children = .ok (some node) → LeavesBare node.toTree := by
  induction tree using Tree.induction_children with
  | step tree inductionHypothesis =>
    have inFirst : ∀ node, lowerFirst options tree.children = .ok (some node) →
        LeavesBare node.toTree := by
      intro node lowered
      obtain ⟨child, isChild, childLowered⟩ := exists_child_of_lowerFirst lowered
      exact (inductionHypothesis child isChild).1 node childLowered
    refine ⟨?_, inFirst⟩
    intro node lowered
    cases lowered_of_lower lowered with
    | privateName name =>
        exact leavesBare_structural rfl (Fields.Hold.nil.push (.word name))
    | wrapped inner =>
        exact inFirst node inner
    | template pieces =>
        have held := leavesBare_of_lowerTemplate
          (fun child isChild => (inductionHypothesis child isChild).2) .nil pieces
        exact leavesBare_structural rfl held
    | built isKind isShape made =>
        exact leavesBare_of_builtNode
          (fun child isChild => (inductionHypothesis child isChild).1) made

theorem leavesBare_of_parse
    {options : Options} {text : String} {program : Shape.Node}
    (parsed : parse options text = .ok program) :
    LeavesBare program.toTree := by
  obtain ⟨tree, treeRead⟩ := readTree_of_parse parsed
  rw [parse_of_readTree treeRead] at parsed
  obtain ⟨shape, shapeLowered, rfl⟩ := lower_of_lowerProgram parsed
  cases shape with
  | none =>
      exact leavesBare_structural rfl .nil
  | some node =>
      exact (leavesBare_of_lower tree).1 node shapeLowered

end Source

/-! ## Sizes -/

/-- Nodes that are not told apart have equally many nodes, provided that lexical
nodes in them have no fields.  No source gives a lexical node with fields, so
the shapes of two aligned sources have the same size whenever a comparison
reports no difference. -/
theorem alike_programs_have_the_same_size :
    (∀ a b : Shape.Node, Shape.LeavesBare a.toTree → Shape.LeavesBare b.toTree →
      a.differ b = false → a.count = b.count) ∧
    (∀ (options : Source.Options) (text : String) (program : Shape.Node),
      Source.parse options text = .ok program → Shape.LeavesBare program.toTree) ∧
    ∀ (options : Source.Options) (source transformed : String) (verdict : Verdict),
      compareSources options source transformed = .ok verdict →
      verdict.different = false →
        ∃ first second,
          Source.parse options (alignStrict source transformed).1 = .ok first ∧
          Source.parse options (alignStrict source transformed).2 = .ok second ∧
          first.count = second.count := by
  have sameSize : ∀ a b : Shape.Node, Shape.LeavesBare a.toTree → Shape.LeavesBare b.toTree →
      a.differ b = false → a.count = b.count :=
    fun a b bareA bareB alike => Shape.count_eq_of_alike bareA bareB alike
  refine ⟨sameSize, fun _ _ _ parsed => Source.leavesBare_of_parse parsed, ?_⟩
  intro options source transformed verdict compared same
  obtain ⟨first, second, readsFirst, readsSecond, rfl⟩ := compareSources_eq_ok_iff.mp compared
  rw [Verdict.different_ofNodes] at same
  exact ⟨first, second, readsFirst, readsSecond,
    sameSize first second (Source.leavesBare_of_parse readsFirst)
      (Source.leavesBare_of_parse readsSecond) same⟩

/-- A call by another name with another argument, one of the two behind a
directive. -/
theorem renamed_calls_have_the_same_size :
    ∃ first second,
      Source.parse {} "'use strict';f(1)" = .ok first ∧
      Source.parse {} "\"use strict\";\ng('2')" = .ok second ∧
      first.count = second.count := by
  have compared : compareSources {} "'use strict';f(1)" "g('2')" = .ok Verdict.same :=
    Source.eq_ok_of_toOption (by decide +kernel)
  have aligned : alignStrict "'use strict';f(1)" "g('2')" =
      ("'use strict';f(1)", "\"use strict\";\ng('2')") := by
    decide +kernel
  have sized := alike_programs_have_the_same_size.2.2 {} _ _ Verdict.same compared rfl
  rwa [aligned] at sized

-- A name with a field inside is not told apart from one without, and yet it is
-- larger: what lowering guarantees is needed.
example :
    (Shape.Node.mk .identifier [("a", [(Shape.Node.bare .program).toTree])] none).differ
        (Shape.Node.bare .identifier) = false ∧
      (Shape.Node.mk .identifier [("a", [(Shape.Node.bare .program).toTree])] none).count ≠
        (Shape.Node.bare .identifier).count := by
  decide +kernel

end ShapeAudit
