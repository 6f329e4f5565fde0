import Mathlib.Data.List.Forall2
import ShapeAudit.Proofs.Source.Lowering
import ShapeAudit.Proofs.Source.WellFormed

/-!
# Holes of arrays

Between its brackets an array has slots, divided by commas, each empty or with
one element.  Lowering sees a stream of tokens, elements and comments, and keeps
no more than whether an element is awaited.  It still leaves one entry for each
slot, a hole for an empty one, except that a last slot that is empty leaves
nothing.  So arrays are told apart slot by slot.
-/

namespace ShapeAudit.Source

open Shape (Fields)
open Shape.Tree (erase eraseFields)

/-! ## Slots -/

/-- The tokens and elements of an array with some slots. -/
def bracketed (slots : List (Option Tree)) : List Tree :=
  .token "[" :: ([.token ","].intercalate (slots.map Option.toList) ++ [.token "]"])

/-- Children that are an array with some slots and comments anywhere.  The grammar
puts the elements of arrays in no field. -/
structure Slotted (slots : List (Option Tree)) (children : List Child) : Prop where
  parts : (children.filter fun child => !child.2.isExtra).map Prod.snd = bracketed slots
  unfielded : ∀ child ∈ children, child.2.isProper = true → child.1 = none

/-- The slots of an array, without the last one if it is empty. -/
def withoutFinalHole {α : Type} : List (Option α) → List (Option α)
  | [] => []
  | [none] => []
  | slot :: rest => slot :: withoutFinalHole rest

/-- What a slot leaves: the shape of its element, or a hole. -/
def slotValue : Option Shape.Node → Shape.Tree
  | some node => node.toTree
  | none => (Shape.Node.bare .elision).toTree

/-- The shapes of the elements in some slots. -/
def SlotShapes (options : Options) : List (Option Tree) → List (Option Shape.Node) → Prop :=
  List.Forall₂ (Option.Rel fun tree node => lower options tree = .ok (some node))

/-- Entries among the children, one for each value. -/
def childEntries (values : List Shape.Tree) : List Entry :=
  values.map fun value => (Shape.childrenField, value)

/-- Trees as children in no field. -/
def unfielded (trees : List Tree) : List Child :=
  trees.map fun tree => (none, tree)

theorem withoutFinalHole_subset {α : Type} (slots : List (Option α)) :
    withoutFinalHole slots ⊆ slots := by
  fun_induction withoutFinalHole slots with
  | case1 =>
      exact List.Subset.refl _
  | case2 =>
      exact List.nil_subset _
  | case3 slot rest notLast inductionHypothesis =>
      exact List.cons_subset_cons slot inductionHypothesis

/-! ## One child after the other -/

section Steps

variable {options : Options} {kind : Kind} (isArray : kind.isArray = true)

theorem lowerChildren_extra
    {tree : Tree} (extra : tree.isExtra = true) (awaiting : Bool) (field : Option String)
    (rest : List Child) (fields : Fields) :
    lowerChildren options kind awaiting ((field, tree) :: rest) fields =
      lowerChildren options kind awaiting rest fields := by
  have named : ∀ spelling, tree = .token spelling → False := by
    rintro spelling rfl
    cases extra
  simp [lowerChildren.eq_4 _ _ _ _ _ _ _ named, extra]

/-- What children leave depends on the later ones through what these leave. -/
theorem lowerChildren_cons_congr
    {rest other : List Child}
    (same : ∀ awaiting fields, lowerChildren options kind awaiting rest fields =
      lowerChildren options kind awaiting other fields)
    (child : Child) (awaiting : Bool) (fields : Fields) :
    lowerChildren options kind awaiting (child :: rest) fields =
      lowerChildren options kind awaiting (child :: other) fields := by
  obtain ⟨field, tree⟩ := child
  cases tree <;> simp only [lowerChildren, same]

include isArray

theorem lowerChildren_comma
    (awaiting : Bool) (field : Option String) (rest : List Child) (fields : Fields) :
    lowerChildren options kind awaiting ((field, .token ",") :: rest) fields =
      lowerChildren options kind true rest
        (pushAll (if awaiting then childEntries [slotValue none] else []) fields) := by
  cases awaiting <;> simp [lowerChildren, isArray, pushAll, childEntries, slotValue]

theorem lowerChildren_bracket
    {spelling : String} (noComma : spelling ≠ ",") (awaiting : Bool) (field : Option String)
    (rest : List Child) (fields : Fields) :
    lowerChildren options kind awaiting ((field, .token spelling) :: rest) fields =
      lowerChildren options kind awaiting rest fields := by
  simp [lowerChildren, isArray, noComma]

theorem lowerChildren_element
    {tree : Tree} {node : Shape.Node} (lowered : lower options tree = .ok (some node))
    (awaiting : Bool) (rest : List Child) (fields : Fields) :
    lowerChildren options kind awaiting ((none, tree) :: rest) fields =
      lowerChildren options kind false rest
        (pushAll (childEntries [slotValue (some node)]) fields) := by
  have noObject : kind.isObject = false := by
    rcases Kind.eq_of_isArray isArray with rfl | rfl
    · rfl
    · rfl
  exact lowerChildren_of_lower (isProper_of_lower lowered) noObject lowered awaiting rest fields

/-- Comments, and fields of commas and brackets, are of no account. -/
theorem lowerChildren_parts
    {children : List Child}
    (noField : ∀ child ∈ children, child.2.isProper = true → child.1 = none)
    (awaiting : Bool) (fields : Fields) :
    lowerChildren options kind awaiting children fields =
      lowerChildren options kind awaiting
        (unfielded ((children.filter fun child => !child.2.isExtra).map Prod.snd)) fields := by
  induction children generalizing awaiting fields with
  | nil =>
      rfl
  | cons child rest inductionHypothesis =>
      obtain ⟨field, tree⟩ := child
      have inRest := inductionHypothesis
        fun other isOther => noField other (List.mem_cons_of_mem _ isOther)
      cases extra : tree.isExtra with
      | true =>
          rw [lowerChildren_extra extra, inRest]
          simp [extra]
      | false =>
          have first : ∀ later, lowerChildren options kind awaiting ((field, tree) :: later)
              fields = lowerChildren options kind awaiting ((none, tree) :: later) fields := by
            intro later
            -- A token in an array is known by its spelling alone.
            cases isKind : tree.kind? with
            | none =>
                obtain ⟨spelling, rfl⟩ := (kind?_eq_none_iff tree).mp isKind
                simp only [lowerChildren, isArray, if_true]
            | some treeKind =>
                have noFieldHere : field = none :=
                  noField _ List.mem_cons_self (by simp [Tree.isProper, isKind, extra])
                rw [noFieldHere]
          rw [first, lowerChildren_cons_congr inRest]
          simp [extra, unfielded]

end Steps

/-! ## One slot after the other -/

section Slots

variable {options : Options} {kind : Kind} (isArray : kind.isArray = true)
  {slot : Option Tree} {shape : Option Shape.Node}
  (lowered : Option.Rel (fun tree node => lower options tree = .ok (some node)) slot shape)

include isArray lowered

/-- A slot before a comma leaves its element or a hole. -/
theorem lowerChildren_slot (rest : List Tree) (fields : Fields) :
    lowerChildren options kind true (unfielded (slot.toList ++ .token "," :: rest)) fields =
      lowerChildren options kind true (unfielded rest)
        (pushAll (childEntries [slotValue shape]) fields) := by
  cases lowered with
  | none =>
      exact lowerChildren_comma isArray true none (unfielded rest) fields
  | some elementLowered =>
      calc
        _ = lowerChildren options kind false (unfielded (.token "," :: rest))
              (pushAll (childEntries [slotValue (some _)]) fields) :=
          lowerChildren_element isArray elementLowered true _ fields
        _ = _ := lowerChildren_comma isArray false none (unfielded rest) _

/-- The last slot leaves its element, if it has one. -/
theorem lowerChildren_lastSlot (fields : Fields) :
    lowerChildren options kind true (unfielded (slot.toList ++ [.token "]"])) fields =
      .ok (pushAll (childEntries ((withoutFinalHole [shape]).map slotValue)) fields) := by
  have closing : ∀ awaiting later, lowerChildren options kind awaiting
      (unfielded [.token "]"]) later = .ok later := by
    intro awaiting later
    exact lowerChildren_bracket isArray (by decide) awaiting none [] later
  cases lowered with
  | none =>
      exact closing true fields
  | some elementLowered =>
      exact (lowerChildren_element isArray elementLowered true _ fields).trans (closing false _)

end Slots

/-- From an awaited element on, all slots leave what they hold, the last one no
hole. -/
theorem lowerChildren_slots
    {options : Options} {kind : Kind} (isArray : kind.isArray = true)
    {slots : List (Option Tree)} {shapes : List (Option Shape.Node)}
    (lowered : SlotShapes options slots shapes) (fields : Fields) :
    lowerChildren options kind true
        (unfielded ([.token ","].intercalate (slots.map Option.toList) ++ [.token "]"])) fields =
      .ok (pushAll (childEntries ((withoutFinalHole shapes).map slotValue)) fields) := by
  induction lowered generalizing fields with
  | nil =>
      exact lowerChildren_bracket isArray (by decide) true none [] fields
  | @cons slot shape rest restShapes slotLowered restLowered inductionHypothesis =>
      -- Whether a comma follows decides if an empty slot is a hole.
      cases restLowered with
      | nil =>
          rw [List.map_singleton, List.intercalate_singleton]
          exact lowerChildren_lastSlot isArray slotLowered fields
      | @cons next nextShape later laterShapes =>
          rw [List.map_cons, List.map_cons, List.intercalate_cons_cons, List.append_assoc,
            List.append_assoc, List.singleton_append,
            lowerChildren_slot isArray slotLowered, ← List.map_cons, inductionHypothesis,
            ← pushAll_append]
          cases shape <;> rfl

/-- An array is a node with nothing but what its slots leave. -/
theorem lower_array
    {options : Options} {kind : Kind} (isArray : kind.isArray = true)
    {slots : List (Option Tree)} {children : List Child} (slotted : Slotted slots children)
    {shapes : List (Option Shape.Node)} (lowered : SlotShapes options slots shapes)
    (place : Place) :
    ∃ shape, kind.shape? = some shape ∧ shape.isLexical = false ∧
      lower options (.branch kind place children) = .ok (some
        ⟨shape, pushAll (childEntries ((withoutFinalHole shapes).map slotValue)) [], none⟩) := by
  have childrenLowered : lowerChildren options kind true children [] =
      .ok (pushAll (childEntries ((withoutFinalHole shapes).map slotValue)) []) := by
    rw [lowerChildren_parts isArray slotted.unfielded, slotted.parts]
    exact (lowerChildren_bracket isArray (by decide) true none _ []).trans
      (lowerChildren_slots isArray lowered [])
  rcases Kind.eq_of_isArray isArray with rfl | rfl
  · exact ⟨.arrayExpression, rfl, rfl,
      lower_of_lowerChildren rfl rfl rfl (by decide) childrenLowered⟩
  · exact ⟨.arrayPattern, rfl, rfl,
      lower_of_lowerChildren rfl rfl rfl (by decide) childrenLowered⟩

/-! ## Arrays side by side -/

theorem shape?_array_iff
    {kind other : Kind} (isArray : kind.isArray = true) (otherIsArray : other.isArray = true)
    {shape otherShape : Shape.Kind} (isShape : kind.shape? = some shape)
    (otherIsShape : other.shape? = some otherShape) :
    shape = otherShape ↔ kind = other := by
  rcases Kind.eq_of_isArray isArray with rfl | rfl <;>
    rcases Kind.eq_of_isArray otherIsArray with rfl | rfl <;>
    cases isShape <;> cases otherIsShape <;> decide

theorem erase_elision_ne
    {node : Shape.Node} (noHole : node.kind ≠ .elision) :
    erase node.toTree ≠ erase (Shape.Node.bare .elision).toTree := by
  intro same
  cases lexical : node.kind.isLexical with
  | true =>
      rw [Shape.Node.toTree, Shape.Tree.erase_lexical lexical] at same
      exact Shape.Tree.structural_ne_anyLeaf rfl same.symm
  | false =>
      have sameKind := (Shape.structural_erase_eq_iff lexical rfl).mp same
      exact noHole sameKind.1

/-- Slots that are both empty, or have elements that are not told apart. -/
def SlotAlike : Option Shape.Node → Option Shape.Node → Prop :=
  Option.Rel fun first second => first.differ second = false

theorem erase_slotValue_eq_iff
    {first second : Option Shape.Node} (firstNoHole : ∀ node ∈ first, node.kind ≠ .elision)
    (secondNoHole : ∀ node ∈ second, node.kind ≠ .elision) :
    erase (slotValue first) = erase (slotValue second) ↔ SlotAlike first second := by
  cases first with
  | none =>
      cases second with
      | none =>
          exact iff_of_true rfl .none
      | some node =>
          exact iff_of_false (erase_elision_ne (secondNoHole node rfl)).symm nofun
  | some node =>
      cases second with
      | none =>
          exact iff_of_false (erase_elision_ne (firstNoHole node rfl)) nofun
      | some other =>
          constructor
          · intro same
            exact .some ((Shape.differ_eq_false_iff _ _).mpr same)
          · intro alike
            cases alike with
            | some notApart =>
                exact (Shape.differ_eq_false_iff _ _).mp notApart

/-- Slots leave alike values exactly when they are alike one by one. -/
theorem erase_slots_eq_iff
    {slots others : List (Option Shape.Node)}
    (noHole : ∀ node, some node ∈ slots → node.kind ≠ .elision)
    (otherNoHole : ∀ node, some node ∈ others → node.kind ≠ .elision) :
    (slots.map slotValue).map erase = (others.map slotValue).map erase ↔
      List.Forall₂ SlotAlike slots others := by
  induction slots generalizing others with
  | nil =>
      simp [eq_comm]
  | cons slot rest inductionHypothesis =>
      cases others with
      | nil =>
          simp
      | cons other otherRest =>
          have first : erase (slotValue slot) = erase (slotValue other) ↔ SlotAlike slot other :=
            erase_slotValue_eq_iff
              (fun node isNode => noHole node (by rw [← isNode]; exact List.mem_cons_self))
              fun node isNode => otherNoHole node (by rw [← isNode]; exact List.mem_cons_self)
          have later := inductionHypothesis
            (fun node isNode => noHole node (List.mem_cons_of_mem _ isNode))
            fun node isNode => otherNoHole node (List.mem_cons_of_mem _ isNode)
          rw [List.map_cons, List.map_cons, List.map_cons, List.map_cons, List.cons.injEq,
            List.forall₂_cons, first, later]

theorem noHole_of_slotShapes
    {options : Options} {slots : List (Option Tree)} {shapes : List (Option Shape.Node)}
    (lowered : SlotShapes options slots shapes) {node : Shape.Node}
    (isShape : some node ∈ shapes) :
    node.kind ≠ .elision := by
  induction lowered with
  | nil =>
      cases isShape
  | cons slotLowered restLowered inductionHypothesis =>
      rcases List.mem_cons.mp isShape with isFirst | isLater
      · cases slotLowered with
        | none =>
            cases isFirst
        | some elementLowered =>
            cases isFirst
            exact noHole_of_lower elementLowered
      · exact inductionHypothesis isLater

theorem erase_children_eq_iff {values others : List Shape.Tree} :
    eraseFields (pushAll (childEntries values) []) =
        eraseFields (pushAll (childEntries others) []) ↔
      values.map erase = others.map erase := by
  have erased : ∀ items, eraseFields (pushAll (childEntries items) []) =
      pushAll (childEntries (items.map erase)) [] := by
    intro items
    simp [childEntries, eraseFields, Function.comp_def]
  rw [erased, erased]
  constructor
  · exact pushAll_children_injective
  · intro same
    rw [same]

/-! ## Slots and their entries -/

/-- A tree is an array of some kind whose slots have some shapes. -/
inductive HasSlots (options : Options) (kind : Kind) (shapes : List (Option Shape.Node)) :
    Tree → Prop where
  | intro {slots : List (Option Tree)} {children : List Child} (place : Place)
      (isArray : kind.isArray = true) (slotted : Slotted slots children)
      (lowered : SlotShapes options slots shapes) :
      HasSlots options kind shapes (.branch kind place children)

theorem lower_of_hasSlots
    {options : Options} {kind : Kind} {shapes : List (Option Shape.Node)} {tree : Tree}
    (array : HasSlots options kind shapes tree) :
    kind.isArray = true ∧ (∀ node, some node ∈ withoutFinalHole shapes → node.kind ≠ .elision) ∧
      ∃ shape, kind.shape? = some shape ∧ shape.isLexical = false ∧
        lower options tree = .ok (some
          ⟨shape, pushAll (childEntries ((withoutFinalHole shapes).map slotValue)) [], none⟩) := by
  obtain ⟨place, isArray, slotted, lowered⟩ := array
  refine ⟨isArray, ?_, lower_array isArray slotted lowered place⟩
  intro node isShape
  exact noHole_of_slotShapes lowered (withoutFinalHole_subset shapes isShape)

/-- The children of an array are its slots in order, a hole for each empty one
but for the last, and there is nothing else in it.  So two arrays are not told
apart exactly when they are of one kind and their slots, without a last one that
is empty, are as many and alike one by one. -/
theorem array_children_are_its_slots
    {options : Options} {kind : Kind} {shapes : List (Option Shape.Node)} {tree : Tree}
    (array : HasSlots options kind shapes tree) :
    ∃ node, lower options tree = .ok (some node) ∧
      kind.shape? = some node.kind ∧ node.text = none ∧
      node.field Shape.childrenField = (withoutFinalHole shapes).map slotValue ∧
      (∀ name, name ≠ Shape.childrenField → Fields.has name node.fields = false) ∧
      ∀ (otherOptions : Options) (otherKind : Kind) (otherShapes : List (Option Shape.Node))
        (otherTree : Tree), HasSlots otherOptions otherKind otherShapes otherTree →
        ∃ other, lower otherOptions otherTree = .ok (some other) ∧
          (node.differ other = false ↔ kind = otherKind ∧
            List.Forall₂ SlotAlike (withoutFinalHole shapes) (withoutFinalHole otherShapes)) := by
  obtain ⟨isArray, noHole, shape, isShape, structural, lowered⟩ := lower_of_hasSlots array
  refine ⟨_, lowered, isShape, rfl, ?_, ?_, ?_⟩
  · rw [Shape.Node.field, get_pushAll_nil, childEntries, valuesIn_map_children]
  · intro name otherName
    have absent : valuesIn name (childEntries ((withoutFinalHole shapes).map slotValue)) = [] := by
      apply valuesIn_eq_nil
      intro entry isEntry
      obtain ⟨value, -, rfl⟩ := List.mem_map.mp isEntry
      exact otherName.symm
    rw [Fields.has_eq_find?, find?_pushAll_nil, absent]
    rfl
  · intro otherOptions otherKind otherShapes otherTree otherArray
    obtain ⟨otherIsArray, otherNoHole, otherShape, otherIsShape, otherStructural, otherLowered⟩ :=
      lower_of_hasSlots otherArray
    refine ⟨_, otherLowered, ?_⟩
    calc
      _ ↔ erase (.node shape _ none) = erase (.node otherShape _ none) :=
        Shape.differ_eq_false_iff _ _
      _ ↔ shape = otherShape ∧ _ := Shape.structural_erase_eq_iff structural otherStructural
      _ ↔ _ := and_congr (shape?_array_iff isArray otherIsArray isShape otherIsShape)
        (erase_children_eq_iff.trans (erase_slots_eq_iff noHole otherNoHole))

/-- The tree of `[,x,/**/,]` for a name `x`. -/
def gappedArray (name : String) : Tree :=
  .branch .array ⟨1, 1⟩
    [(none, .token "["), (none, .token ","), (none, .leaf .identifier ⟨1, 3⟩ name),
      (none, .token ","), (none, .leaf .comment ⟨1, 5⟩ "/**/"), (none, .token ","),
      (none, .token "]")]

/-- The tree of `[,x,]` for a name `x`. -/
def trailingArray (name : String) : Tree :=
  .branch .array ⟨1, 1⟩
    [(none, .token "["), (none, .token ","), (none, .leaf .identifier ⟨1, 3⟩ name),
      (none, .token ","), (none, .token "]")]

theorem gappedArray_hasSlots (name : String) :
    HasSlots {} .array [none, some (Shape.Node.leaf .identifier name), none, none]
      (gappedArray name) := by
  have slotted : Slotted [none, some (.leaf .identifier ⟨1, 3⟩ name), none, none]
      (gappedArray name).children :=
    { parts := rfl
      unfielded := by simp [gappedArray, Tree.children] }
  exact .intro ⟨1, 1⟩ rfl slotted (.cons .none (.cons (.some rfl) (.cons .none (.cons .none .nil))))

theorem trailingArray_hasSlots (name : String) :
    HasSlots {} .array [none, some (Shape.Node.leaf .identifier name), none]
      (trailingArray name) := by
  have slotted : Slotted [none, some (.leaf .identifier ⟨1, 3⟩ name), none]
      (trailingArray name).children :=
    { parts := rfl
      unfielded := by simp [trailingArray, Tree.children] }
  exact .intro ⟨1, 1⟩ rfl slotted (.cons .none (.cons (.some rfl) (.cons .none .nil)))

theorem gappedArray_told_by_slots :
    HasSlots {} .array [none, some (Shape.Node.leaf .identifier "a"), none, none]
        (gappedArray "a") ∧
      ∃ node alike shorter, lower {} (gappedArray "a") = .ok (some node) ∧
        lower {} (gappedArray "b") = .ok (some alike) ∧
        lower {} (trailingArray "a") = .ok (some shorter) ∧
        node.field Shape.childrenField =
          [(Shape.Node.bare .elision).toTree, (Shape.Node.leaf .identifier "a").toTree,
            (Shape.Node.bare .elision).toTree] ∧
        node.differ alike = false ∧ node.differ shorter = true := by
  obtain ⟨node, lowered, -, -, children, -, compared⟩ :=
    array_children_are_its_slots (gappedArray_hasSlots "a")
  obtain ⟨alike, alikeLowered, sameSlots⟩ := compared _ _ _ _ (gappedArray_hasSlots "b")
  obtain ⟨shorter, shorterLowered, fewerSlots⟩ := compared _ _ _ _ (trailingArray_hasSlots "a")
  refine ⟨gappedArray_hasSlots "a", node, alike, shorter, lowered, alikeLowered, shorterLowered,
    children, ?_, ?_⟩
  · apply sameSlots.mpr
    have nameAlike : SlotAlike (some (Shape.Node.leaf .identifier "a"))
        (some (Shape.Node.leaf .identifier "b")) :=
      .some (by decide)
    exact ⟨rfl, .cons .none (.cons nameAlike (.cons .none .nil))⟩
  · rw [← Bool.not_eq_false]
    intro same
    have sameLength := (fewerSlots.mp same).2.length_eq
    exact absurd sameLength (by decide)

end ShapeAudit.Source
