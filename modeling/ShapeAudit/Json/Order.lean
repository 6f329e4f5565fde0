import ShapeAudit.Json.Basic
import ShapeAudit.Text.Order

/-!
Ordered values: every object in them, at any depth, holds its members in
increasing order of their names, each name once.  Any value can be arranged
into an ordered one, and an ordered one stays as it is.
-/

namespace ShapeAudit.Json

/-! ## Ordered values -/

/-- Members in increasing order of their names, each name once. -/
def Ascending (members : List (String × Json)) : Prop :=
  members.Pairwise fun earlier later => Text.lessThan earlier.1 later.1 = true

mutual

/-- Every object in a value holds its members in order. -/
def Ordered : Json → Prop
  | array items => OrderedItems items
  | object members => Ascending members ∧ OrderedMembers members
  | _ => True

/-- Every item of a list is ordered. -/
def OrderedItems : List Json → Prop
  | [] => True
  | item :: rest => Ordered item ∧ OrderedItems rest

/-- The value of every member is ordered. -/
def OrderedMembers : List (String × Json) → Prop
  | [] => True
  | (_, value) :: rest => Ordered value ∧ OrderedMembers rest

end

theorem orderedItems_iff (items : List Json) :
    OrderedItems items ↔ ∀ item ∈ items, Ordered item := by
  induction items with
  | nil =>
      simp [OrderedItems]
  | cons item rest inductionHypothesis =>
      simp [OrderedItems, inductionHypothesis]

theorem orderedMembers_iff (members : List (String × Json)) :
    OrderedMembers members ↔ ∀ member ∈ members, Ordered member.2 := by
  induction members with
  | nil =>
      simp [OrderedMembers]
  | cons member rest inductionHypothesis =>
      simp [OrderedMembers, inductionHypothesis]

/-! ## Insertion -/

theorem eq_or_mem_of_mem_insert
    {name : String} {value : Json} {members : List (String × Json)}
    {member : String × Json}
    (isMember : member ∈ insert name value members) :
    member = (name, value) ∨ member ∈ members := by
  induction members with
  | nil =>
      exact Or.inl (by simpa [insert] using isMember)
  | cons head rest inductionHypothesis =>
      unfold insert at isMember
      split at isMember
      · rcases List.mem_cons.mp isMember with atHead | inRest
        · exact Or.inl atHead
        · exact Or.inr (List.mem_cons_of_mem head inRest)
      · split at isMember
        · exact List.mem_cons.mp isMember
        · rcases List.mem_cons.mp isMember with atHead | inRest
          · exact Or.inr (by simp [atHead])
          · rcases inductionHypothesis inRest with inserted | old
            · exact Or.inl inserted
            · exact Or.inr (List.mem_cons_of_mem head old)

theorem ascending_insert
    {members : List (String × Json)}
    (ascending : Ascending members) (name : String) (value : Json) :
    Ascending (insert name value members) := by
  induction members with
  | nil =>
      simp [insert, Ascending]
  | cons head rest inductionHypothesis =>
      obtain ⟨headBelow, restAscending⟩ := List.pairwise_cons.mp ascending
      unfold insert
      split
      · rename_i sameName
        refine List.pairwise_cons.mpr ⟨?_, restAscending⟩
        intro later isLater
        simpa [← sameName] using headBelow later isLater
      · rename_i otherName
        split
        · rename_i nameBelow
          refine List.pairwise_cons.mpr ⟨?_, ascending⟩
          intro later isLater
          rcases List.mem_cons.mp isLater with atHead | inRest
          · simpa [atHead] using nameBelow
          · exact Text.lessThan_trans nameBelow (headBelow later inRest)
        · rename_i nameNotBelow
          refine List.pairwise_cons.mpr ⟨?_, inductionHypothesis restAscending⟩
          intro later isLater
          rcases eq_or_mem_of_mem_insert isLater with inserted | old
          · rw [inserted]
            exact Text.lessThan_of_not_lessThan (Ne.symm otherName)
              (Bool.eq_false_iff.mpr nameNotBelow)
          · exact headBelow later old

theorem orderedMembers_insert
    {value : Json} {members : List (String × Json)}
    (valueOrdered : Ordered value)
    (membersOrdered : OrderedMembers members) (name : String) :
    OrderedMembers (insert name value members) := by
  rw [orderedMembers_iff] at membersOrdered ⊢
  intro member isMember
  rcases eq_or_mem_of_mem_insert isMember with inserted | old
  · rw [inserted]
    exact valueOrdered
  · exact membersOrdered member old

/-! ## Arranging -/

mutual

/-- A value with its members put in order at every depth; of members of the
same name the last one stays. -/
def arrange : Json → Json
  | array items => array (arrangeItems items)
  | object members => object (ordered (arrangeMembers members))
  | other => other

/-- A list with its items arranged. -/
def arrangeItems : List Json → List Json
  | [] => []
  | item :: rest => arrange item :: arrangeItems rest

/-- Members with their values arranged. -/
def arrangeMembers : List (String × Json) → List (String × Json)
  | [] => []
  | (name, value) :: rest => (name, arrange value) :: arrangeMembers rest

end

/-- Inserting members one after the other keeps what is there in order. -/
private theorem object_ordered_foldl
    (members kept : List (String × Json))
    (membersOrdered : OrderedMembers members)
    (keptOrdered : Ordered (object kept)) :
    Ordered (object
      (members.foldl (fun kept member => insert member.1 member.2 kept) kept)) := by
  induction members generalizing kept with
  | nil =>
      exact keptOrdered
  | cons member rest inductionHypothesis =>
      rw [Ordered] at keptOrdered
      rw [List.foldl_cons]
      apply inductionHypothesis _ membersOrdered.2
      exact ⟨ascending_insert keptOrdered.1 member.1 member.2,
        orderedMembers_insert membersOrdered.1 keptOrdered.2 member.1⟩

mutual

theorem ordered_arrange : ∀ value : Json, Ordered (arrange value)
  | null | bool _ | number _ | text _ => by
      simp [arrange, Ordered]
  | array items => by
      simpa [arrange, Ordered] using orderedItems_arrangeItems items
  | object members => by
      rw [arrange]
      exact object_ordered_foldl (arrangeMembers members) []
        (orderedMembers_arrangeMembers members) ⟨List.Pairwise.nil, trivial⟩

theorem orderedItems_arrangeItems :
    ∀ items : List Json, OrderedItems (arrangeItems items)
  | [] => trivial
  | item :: rest => ⟨ordered_arrange item, orderedItems_arrangeItems rest⟩

theorem orderedMembers_arrangeMembers :
    ∀ members : List (String × Json), OrderedMembers (arrangeMembers members)
  | [] => trivial
  | (_, value) :: rest =>
      ⟨ordered_arrange value, orderedMembers_arrangeMembers rest⟩

end

/-! ## Ordered values stay as they are -/

private theorem insert_after_all
    {members : List (String × Json)} {name : String} (value : Json)
    (allBelow : ∀ member ∈ members, Text.lessThan member.1 name = true) :
    insert name value members = members ++ [(name, value)] := by
  induction members with
  | nil =>
      rfl
  | cons head rest inductionHypothesis =>
      have headBelow : Text.lessThan head.1 name = true :=
        allBelow head (List.mem_cons_self)
      have notBefore : Text.lessThan name head.1 = false :=
        Text.lessThan_asymm headBelow
      have restInserted :=
        inductionHypothesis fun member inRest =>
          allBelow member (List.mem_cons_of_mem head inRest)
      simp [insert, Text.ne_of_lessThan headBelow, notBefore, restInserted]

private theorem foldl_insert_ascending
    (members kept : List (String × Json))
    (ascending : Ascending (kept ++ members)) :
    members.foldl (fun kept member => insert member.1 member.2 kept) kept =
      kept ++ members := by
  induction members generalizing kept with
  | nil =>
      simp
  | cons member rest inductionHypothesis =>
      have keptBelow :
          ∀ earlier ∈ kept, Text.lessThan earlier.1 member.1 = true := by
        intro earlier isEarlier
        exact (List.pairwise_append.mp ascending).2.2
          earlier isEarlier member List.mem_cons_self
      rw [List.foldl_cons, insert_after_all member.2 keptBelow]
      have regrouped : kept ++ [member] ++ rest = kept ++ member :: rest := by
        simp
      rw [inductionHypothesis (kept ++ [member]) (by rwa [regrouped]), regrouped]

theorem ordered_eq_self
    {members : List (String × Json)} (ascending : Ascending members) :
    ordered members = members :=
  foldl_insert_ascending members [] ascending

mutual

theorem arrange_eq_self :
    ∀ {value : Json}, Ordered value → arrange value = value
  | null, _ | bool _, _ | number _, _ | text _, _ => by
      simp [arrange]
  | array items, itemsOrdered => by
      rw [Ordered] at itemsOrdered
      rw [arrange, arrangeItems_eq_self itemsOrdered]
  | object members, membersOrdered => by
      rw [Ordered] at membersOrdered
      rw [arrange, arrangeMembers_eq_self membersOrdered.2,
        ordered_eq_self membersOrdered.1]

theorem arrangeItems_eq_self :
    ∀ {items : List Json}, OrderedItems items → arrangeItems items = items
  | [], _ => rfl
  | item :: rest, itemsOrdered => by
      rw [arrangeItems, arrange_eq_self itemsOrdered.1,
        arrangeItems_eq_self itemsOrdered.2]

theorem arrangeMembers_eq_self :
    ∀ {members : List (String × Json)},
      OrderedMembers members → arrangeMembers members = members
  | [], _ => rfl
  | (name, value) :: rest, membersOrdered => by
      rw [arrangeMembers, arrange_eq_self membersOrdered.1,
        arrangeMembers_eq_self membersOrdered.2]

end

end ShapeAudit.Json
