import ShapeAudit.Proofs.Shape.Erasure
import ShapeAudit.Text.Order

/-!
# Fields in order

Fields that hold their names in increasing order behave like a map from names
to sequences, and they are known from what they hold under each name.  A value
that is pushed goes to the end of its own field, and every other field stays as
it is.
-/

namespace ShapeAudit.Shape.Fields

/-- Fields in increasing order of their names, each name once. -/
def Ascending (fields : Fields) : Prop :=
  fields.Pairwise fun earlier later => Text.lessThan earlier.1 later.1 = true

theorem ascending_nil : Ascending [] :=
  List.Pairwise.nil

/-! ## Reading a field -/

/-- The sequence in a field, if the field is present. -/
def find? (name : String) : Fields → Option (List Tree)
  | [] => none
  | (key, values) :: rest => if key = name then some values else find? name rest

theorem get_eq_find? (name : String) (fields : Fields) :
    get name fields = (find? name fields).getD [] := by
  induction fields with
  | nil =>
      rfl
  | cons head rest inductionHypothesis =>
      by_cases found : head.1 = name <;> simp [get, find?, found, inductionHypothesis]

theorem has_eq_find? (name : String) (fields : Fields) :
    has name fields = (find? name fields).isSome := by
  induction fields with
  | nil =>
      rfl
  | cons head rest inductionHypothesis =>
      by_cases found : head.1 = name <;> simp [has, find?, found, inductionHypothesis]

theorem find?_eq_none_of_below
    {name : String} {fields : Fields}
    (below : ∀ field ∈ fields, Text.lessThan name field.1 = true) :
    find? name fields = none := by
  induction fields with
  | nil =>
      rfl
  | cons head rest inductionHypothesis =>
      have different : head.1 ≠ name :=
        Ne.symm (Text.ne_of_lessThan (below head List.mem_cons_self))
      simpa [find?, different] using
        inductionHypothesis fun field isField =>
          below field (List.mem_cons_of_mem head isField)

theorem get_eq_nil_of_below
    {name : String} {fields : Fields}
    (below : ∀ field ∈ fields, Text.lessThan name field.1 = true) :
    get name fields = [] := by
  rw [get_eq_find?, find?_eq_none_of_below below]
  rfl

theorem mem_of_find?
    {name : String} {fields : Fields} {values : List Tree}
    (found : find? name fields = some values) :
    (name, values) ∈ fields := by
  induction fields with
  | nil =>
      cases found
  | cons head rest inductionHypothesis =>
      by_cases sameName : head.1 = name
      · have sameValues : head.2 = values := by
          simpa [find?, sameName] using found
        have atHead : head = (name, values) :=
          Prod.ext sameName sameValues
        exact atHead ▸ List.mem_cons_self
      · have inRest : find? name rest = some values := by
          simpa [find?, sameName] using found
        exact List.mem_cons_of_mem head (inductionHypothesis inRest)

/-- No name that is present comes before the first one. -/
theorem not_lessThan_head
    {head : String × List Tree} {rest : Fields} {name : String}
    (ascending : Ascending (head :: rest))
    (present : (find? name (head :: rest)).isSome = true) :
    Text.lessThan name head.1 = false := by
  obtain ⟨headBelow, -⟩ := List.pairwise_cons.mp ascending
  cases below : Text.lessThan name head.1 with
  | false =>
      rfl
  | true =>
      have absent : find? name (head :: rest) = none := by
        apply find?_eq_none_of_below
        intro field isField
        rcases List.mem_cons.mp isField with rfl | inRest
        · exact below
        · exact Text.lessThan_trans below (headBelow field inRest)
      simp [absent] at present

/-- Fields in order that hold the same under every name are the same. -/
theorem ext_find?
    {first second : Fields} (firstAscending : Ascending first)
    (secondAscending : Ascending second)
    (same : ∀ name, find? name first = find? name second) :
    first = second := by
  induction first generalizing second with
  | nil =>
      cases second with
      | nil =>
          rfl
      | cons head rest =>
          have absent := same head.1
          simp [find?] at absent
  | cons head rest inductionHypothesis =>
      obtain ⟨headBelow, restAscending⟩ := List.pairwise_cons.mp firstAscending
      cases second with
      | nil =>
          have absent := same head.1
          simp [find?] at absent
      | cons otherHead otherRest =>
          obtain ⟨otherBelow, otherRestAscending⟩ := List.pairwise_cons.mp secondAscending
          have notBelow : Text.lessThan head.1 otherHead.1 = false := by
            apply not_lessThan_head secondAscending
            rw [← same head.1]
            simp [find?]
          have notAbove : Text.lessThan otherHead.1 head.1 = false := by
            apply not_lessThan_head firstAscending
            rw [same otherHead.1]
            simp [find?]
          have sameName : head.1 = otherHead.1 := by
            apply Decidable.byContradiction
            intro different
            have above := Text.lessThan_of_not_lessThan different notBelow
            simp [notAbove] at above
          have sameValues : head.2 = otherHead.2 := by
            simpa [find?, sameName] using same head.1
          have sameRest : ∀ name, find? name rest = find? name otherRest := by
            intro name
            by_cases atHead : head.1 = name
            · have restAbsent : find? name rest = none := by
                rw [← atHead]
                exact find?_eq_none_of_below headBelow
              have otherAbsent : find? name otherRest = none := by
                rw [← atHead, sameName]
                exact find?_eq_none_of_below otherBelow
              rw [restAbsent, otherAbsent]
            · simpa [find?, atHead, ← sameName] using same name
          rw [Prod.ext sameName sameValues,
            inductionHypothesis restAscending otherRestAscending sameRest]

/-! ## Putting a field -/

theorem find?_put_self (name : String) (values : List Tree) (fields : Fields) :
    find? name (put name values fields) = some values := by
  induction fields with
  | nil =>
      simp [put, find?]
  | cons head rest inductionHypothesis =>
      unfold put
      split
      · simp [find?]
      · rename_i otherName
        split
        · simp [find?]
        · simpa [find?, otherName] using inductionHypothesis

theorem find?_put_of_ne
    {name other : String} (different : other ≠ name)
    (values : List Tree) (fields : Fields) :
    find? other (put name values fields) = find? other fields := by
  induction fields with
  | nil =>
      simp [put, find?, Ne.symm different]
  | cons head rest inductionHypothesis =>
      unfold put
      split
      · rename_i sameName
        simp [find?, sameName, Ne.symm different]
      · split
        · simp [find?, Ne.symm different]
        · simp [find?, inductionHypothesis]

theorem name_of_mem_put
    {name : String} {values : List Tree} {fields : Fields} {field : String × List Tree}
    (isField : field ∈ put name values fields) :
    field.1 = name ∨ ∃ old ∈ fields, field.1 = old.1 := by
  induction fields with
  | nil =>
      exact Or.inl (by simp_all [put])
  | cons head rest inductionHypothesis =>
      unfold put at isField
      split at isField
      · rcases List.mem_cons.mp isField with atHead | inRest
        · exact Or.inl (by simp [atHead])
        · exact Or.inr ⟨field, List.mem_cons_of_mem head inRest, rfl⟩
      · split at isField
        · rcases List.mem_cons.mp isField with placed | old
          · exact Or.inl (by simp [placed])
          · exact Or.inr ⟨field, old, rfl⟩
        · rcases List.mem_cons.mp isField with atHead | inRest
          · exact Or.inr ⟨head, List.mem_cons_self, by simp [atHead]⟩
          · rcases inductionHypothesis inRest with placed | ⟨old, isOld, sameName⟩
            · exact Or.inl placed
            · exact Or.inr ⟨old, List.mem_cons_of_mem head isOld, sameName⟩

theorem ascending_put
    {fields : Fields} (ascending : Ascending fields) (name : String) (values : List Tree) :
    Ascending (put name values fields) := by
  induction fields with
  | nil =>
      simp [put, Ascending]
  | cons head rest inductionHypothesis =>
      obtain ⟨headBelow, restAscending⟩ := List.pairwise_cons.mp ascending
      unfold put
      split
      · rename_i sameName
        refine List.pairwise_cons.mpr ⟨?_, restAscending⟩
        rw [← sameName]
        exact headBelow
      · rename_i otherName
        split
        · rename_i nameBelow
          refine List.pairwise_cons.mpr ⟨?_, ascending⟩
          intro later isLater
          rcases List.mem_cons.mp isLater with atHead | inRest
          · simpa [atHead] using nameBelow
          · exact Text.lessThan_trans nameBelow (headBelow later inRest)
        · rename_i nameNotBelow
          refine List.pairwise_cons.mpr ⟨?_, inductionHypothesis restAscending⟩
          intro later isLater
          rcases name_of_mem_put isLater with placed | ⟨old, isOld, sameName⟩
          · rw [placed]
            exact Text.lessThan_of_not_lessThan (Ne.symm otherName)
              (Bool.eq_false_iff.mpr nameNotBelow)
          · rw [sameName]
            exact headBelow old isOld

/-! ## Removing a field -/

theorem find?_remove_self
    {fields : Fields} (ascending : Ascending fields) (name : String) :
    find? name (remove name fields) = none := by
  induction fields with
  | nil =>
      rfl
  | cons head rest inductionHypothesis =>
      obtain ⟨headBelow, restAscending⟩ := List.pairwise_cons.mp ascending
      unfold remove
      split
      · rename_i sameName
        rw [← sameName]
        exact find?_eq_none_of_below headBelow
      · rename_i otherName
        simpa [find?, otherName] using inductionHypothesis restAscending

theorem find?_remove_of_ne
    {name other : String} (different : other ≠ name) (fields : Fields) :
    find? other (remove name fields) = find? other fields := by
  induction fields with
  | nil =>
      rfl
  | cons head rest inductionHypothesis =>
      unfold remove
      split
      · rename_i sameName
        simp [find?, sameName, Ne.symm different]
      · simp [find?, inductionHypothesis]

theorem remove_of_absent
    {name : String} {fields : Fields} (absent : find? name fields = none) :
    remove name fields = fields := by
  induction fields with
  | nil =>
      rfl
  | cons head rest inductionHypothesis =>
      by_cases same : head.1 = name
      · simp [find?, same] at absent
      · have absentThere : find? name rest = none := by
          simpa [find?, same] using absent
        simp [remove, same, inductionHypothesis absentThere]

theorem mem_of_mem_remove
    {name : String} {fields : Fields} {field : String × List Tree}
    (isField : field ∈ remove name fields) :
    field ∈ fields := by
  induction fields with
  | nil =>
      cases isField
  | cons head rest inductionHypothesis =>
      unfold remove at isField
      split at isField
      · exact List.mem_cons_of_mem head isField
      · rcases List.mem_cons.mp isField with rfl | inRest
        · exact List.mem_cons_self
        · exact List.mem_cons_of_mem head (inductionHypothesis inRest)

theorem ascending_remove
    {fields : Fields} (ascending : Ascending fields) (name : String) :
    Ascending (remove name fields) := by
  induction fields with
  | nil =>
      exact ascending
  | cons head rest inductionHypothesis =>
      obtain ⟨headBelow, restAscending⟩ := List.pairwise_cons.mp ascending
      unfold remove
      split
      · exact restAscending
      · refine List.pairwise_cons.mpr ⟨?_, inductionHypothesis restAscending⟩
        intro later isLater
        exact headBelow later (mem_of_mem_remove isLater)

/-! ## Pushing a value -/

/-- Pushing a value puts its field with the value at the end. -/
theorem push_eq_put
    {fields : Fields} (ascending : Ascending fields) (name : String) (value : Tree) :
    push name value fields = put name (get name fields ++ [value]) fields := by
  induction fields with
  | nil =>
      rfl
  | cons head rest inductionHypothesis =>
      obtain ⟨headBelow, restAscending⟩ := List.pairwise_cons.mp ascending
      unfold push put
      split
      · rename_i sameName
        simp [get, sameName]
      · rename_i otherName
        split
        · rename_i nameBelow
          have restBelow : ∀ field ∈ rest, Text.lessThan name field.1 = true :=
            fun field isField => Text.lessThan_trans nameBelow (headBelow field isField)
          simp [get, otherName, get_eq_nil_of_below restBelow]
        · simpa [get, otherName] using inductionHypothesis restAscending

theorem ascending_push
    {fields : Fields} (ascending : Ascending fields) (name : String) (value : Tree) :
    Ascending (push name value fields) := by
  rw [push_eq_put ascending]
  exact ascending_put ascending name _

theorem find?_push_self
    {fields : Fields} (ascending : Ascending fields) (name : String) (value : Tree) :
    find? name (push name value fields) = some (get name fields ++ [value]) := by
  rw [push_eq_put ascending]
  exact find?_put_self name _ fields

theorem find?_push_of_ne
    {name other : String} (different : other ≠ name)
    (value : Tree) (fields : Fields) :
    find? other (push name value fields) = find? other fields := by
  induction fields with
  | nil =>
      simp [push, find?, Ne.symm different]
  | cons head rest inductionHypothesis =>
      unfold push
      split
      · rename_i sameName
        simp [find?, sameName, Ne.symm different]
      · split
        · simp [find?, Ne.symm different]
        · simp [find?, inductionHypothesis]

/-- A pushed value goes to the end of its field. -/
theorem get_push_self
    {fields : Fields} (ascending : Ascending fields) (name : String) (value : Tree) :
    get name (push name value fields) = get name fields ++ [value] := by
  rw [get_eq_find? name (push name value fields), find?_push_self ascending]
  rfl

/-- A pushed value leaves the other fields alone. -/
theorem get_push_of_ne
    {name other : String} (different : other ≠ name)
    (value : Tree) (fields : Fields) :
    get other (push name value fields) = get other fields := by
  rw [get_eq_find?, get_eq_find?, find?_push_of_ne different]

/-- Pushing only ever makes a field longer. -/
theorem get_push_extends
    {fields : Fields} (ascending : Ascending fields)
    (name other : String) (value : Tree) :
    get other fields <+: get other (push name value fields) := by
  by_cases same : other = name
  · rw [same, get_push_self ascending]
    exact List.prefix_append _ _
  · have unchanged := get_push_of_ne same value fields
    exact unchanged ▸ List.prefix_rfl

end ShapeAudit.Shape.Fields

/-! ## Erased fields -/

namespace ShapeAudit.Shape.Tree

theorem eraseItems_eq_map (items : List Tree) :
    eraseItems items = items.map erase := by
  induction items with
  | nil =>
      rfl
  | cons item rest inductionHypothesis =>
      simp [eraseItems, inductionHypothesis]

theorem find?_eraseFields (name : String) (fields : Fields) :
    Fields.find? name (eraseFields fields) =
      (Fields.find? name fields).map eraseItems := by
  induction fields with
  | nil =>
      rfl
  | cons field rest inductionHypothesis =>
      by_cases found : field.1 = name <;>
        simp [eraseFields, Fields.find?, found, inductionHypothesis]

@[simp]
theorem has_eraseFields (name : String) (fields : Fields) :
    Fields.has name (eraseFields fields) = Fields.has name fields := by
  rw [Fields.has_eq_find?, Fields.has_eq_find?, find?_eraseFields, Option.isSome_map]

@[simp]
theorem eraseFields_push (name : String) (value : Tree) (fields : Fields) :
    eraseFields (Fields.push name value fields) =
      Fields.push name (erase value) (eraseFields fields) := by
  induction fields with
  | nil =>
      simp [Fields.push, eraseFields, eraseItems]
  | cons head rest inductionHypothesis =>
      obtain ⟨key, values⟩ := head
      by_cases sameName : key = name
      · simp [Fields.push, eraseFields, sameName, eraseItems_eq_map]
      · cases below : Text.lessThan name key <;>
          simp [Fields.push, eraseFields, sameName, below, inductionHypothesis, eraseItems]

@[simp]
theorem eraseFields_put (name : String) (values : List Tree) (fields : Fields) :
    eraseFields (Fields.put name values fields) =
      Fields.put name (eraseItems values) (eraseFields fields) := by
  induction fields with
  | nil =>
      simp [Fields.put, eraseFields]
  | cons head rest inductionHypothesis =>
      obtain ⟨key, old⟩ := head
      by_cases sameName : key = name
      · simp [Fields.put, eraseFields, sameName]
      · cases below : Text.lessThan name key <;>
          simp [Fields.put, eraseFields, sameName, below, inductionHypothesis]

@[simp]
theorem eraseFields_remove (name : String) (fields : Fields) :
    eraseFields (Fields.remove name fields) =
      Fields.remove name (eraseFields fields) := by
  induction fields with
  | nil =>
      rfl
  | cons head rest inductionHypothesis =>
      obtain ⟨key, values⟩ := head
      by_cases sameName : key = name <;>
        simp [Fields.remove, eraseFields, sameName, inductionHypothesis]

end ShapeAudit.Shape.Tree
