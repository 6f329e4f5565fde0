import ShapeAudit.Proofs.Shape.Fields

/-!
# The kinds in a shape

Which kinds of nodes a shape holds at any depth, and what pushing, putting and
removing fields does to them.
-/

namespace ShapeAudit.Shape

/-- Whether shapes of a kind stand in modules only. -/
def Kind.isModuleItem : Kind → Bool
  | .importDeclaration | .exportDeclaration => true
  | _ => false

namespace Tree

mutual

/-- The kinds of the nodes that a value holds. -/
def kinds : Tree → List Kind
  | .node kind fields _ => kind :: kindsOfFields fields
  | .list items => kindsOfItems items
  | .word _ => []

/-- The kinds of the nodes that a sequence holds. -/
def kindsOfItems : List Tree → List Kind
  | [] => []
  | item :: rest => kinds item ++ kindsOfItems rest

/-- The kinds of the nodes that the fields of a node hold. -/
def kindsOfFields : List (String × List Tree) → List Kind
  | [] => []
  | (_, items) :: rest => kindsOfItems items ++ kindsOfFields rest

end

theorem mem_kindsOfItems {kind : Kind} {items : List Tree} :
    kind ∈ kindsOfItems items ↔ ∃ item ∈ items, kind ∈ item.kinds := by
  induction items with
  | nil =>
      simp [kindsOfItems]
  | cons item rest inductionHypothesis =>
      simp [kindsOfItems, inductionHypothesis]

theorem mem_kindsOfFields_push
    {kind : Kind} (name : String) (value : Tree) (fields : Fields) :
    kind ∈ kindsOfFields (Fields.push name value fields) ↔
      kind ∈ value.kinds ∨ kind ∈ kindsOfFields fields := by
  induction fields with
  | nil =>
      simp [Fields.push, kindsOfFields, kindsOfItems]
  | cons head rest inductionHypothesis =>
      obtain ⟨key, items⟩ := head
      unfold Fields.push
      split
      · simp only [kindsOfFields, List.mem_append, mem_kindsOfItems, List.mem_singleton]
        constructor
        · rintro (⟨item, inItems | rfl, inItem⟩ | inRest)
          · exact .inr (.inl ⟨item, inItems, inItem⟩)
          · exact .inl inItem
          · exact .inr (.inr inRest)
        · rintro (inValue | ⟨item, inItems, inItem⟩ | inRest)
          · exact .inl ⟨value, .inr rfl, inValue⟩
          · exact .inl ⟨item, .inl inItems, inItem⟩
          · exact .inr inRest
      · split
        · simp [kindsOfFields, kindsOfItems]
        · simp only [kindsOfFields, List.mem_append, inductionHypothesis]
          exact or_left_comm

/-- A field and the others make up all fields. -/
theorem mem_kindsOfFields_remove
    {kind : Kind} (name : String) (fields : Fields) :
    kind ∈ kindsOfFields fields ↔
      kind ∈ kindsOfItems (Fields.get name fields) ∨
        kind ∈ kindsOfFields (Fields.remove name fields) := by
  induction fields with
  | nil =>
      simp [Fields.get, Fields.remove, kindsOfFields, kindsOfItems]
  | cons head rest inductionHypothesis =>
      obtain ⟨key, items⟩ := head
      by_cases same : key = name
      · simp [Fields.get, Fields.remove, same, kindsOfFields]
      · simp only [Fields.get, Fields.remove, same, if_false, kindsOfFields, List.mem_append,
          inductionHypothesis]
        exact or_left_comm

/-- A field that is put takes the place of one of the same name. -/
theorem mem_kindsOfFields_put
    {kind : Kind} {fields : Fields} (ascending : Fields.Ascending fields) (name : String)
    (values : List Tree) :
    kind ∈ kindsOfFields (Fields.put name values fields) ↔
      kind ∈ kindsOfItems values ∨ kind ∈ kindsOfFields (Fields.remove name fields) := by
  induction fields with
  | nil =>
      simp [Fields.put, Fields.remove, kindsOfFields]
  | cons head rest inductionHypothesis =>
      obtain ⟨key, items⟩ := head
      obtain ⟨headBelow, restAscending⟩ := List.pairwise_cons.mp ascending
      unfold Fields.put
      split
      · rename_i same
        simp [Fields.remove, same, kindsOfFields]
      · rename_i different
        split
        · rename_i nameBelow
          have absent : Fields.find? name rest = none := by
            apply Fields.find?_eq_none_of_below
            intro field isField
            exact Text.lessThan_trans nameBelow (headBelow field isField)
          simp [Fields.remove, different, Fields.remove_of_absent absent, kindsOfFields]
        · simp only [Fields.remove, different, if_false, kindsOfFields, List.mem_append,
            inductionHypothesis restAscending]
          exact or_left_comm

end Tree

end ShapeAudit.Shape
