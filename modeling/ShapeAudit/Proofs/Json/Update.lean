import ShapeAudit.Json.Order
import ShapeAudit.Json.Pointer

/-!
# Reading and updating along a path

Reading follows keys into objects and indices into arrays, while updating goes
through objects only.  So an update reaches what reading reaches exactly when
no array stands on the way, and then reading finds the changed members.
-/

namespace ShapeAudit.Json

/-! ## Members -/

@[simp]
theorem find?_insert_self
    (name : String) (value : Json) (members : List (String × Json)) :
    find? name (insert name value members) = some value := by
  induction members with
  | nil =>
      simp [insert, find?]
  | cons head rest inductionHypothesis =>
      unfold insert
      split
      · simp [find?]
      · rename_i otherName
        split
        · simp [find?]
        · simpa [find?, otherName] using inductionHypothesis

theorem find?_insert_of_ne
    {name other : String} (different : other ≠ name)
    (value : Json) (members : List (String × Json)) :
    find? other (insert name value members) = find? other members := by
  induction members with
  | nil =>
      simp [insert, find?, Ne.symm different]
  | cons head rest inductionHypothesis =>
      unfold insert
      split
      · rename_i sameName
        simp [find?, sameName, Ne.symm different]
      · split
        · simp [find?, Ne.symm different]
        · simp [find?, inductionHypothesis]

theorem mem_of_find?
    {name : String} {value : Json} {members : List (String × Json)}
    (found : find? name members = some value) :
    (name, value) ∈ members := by
  induction members with
  | nil =>
      simp [find?] at found
  | cons head rest inductionHypothesis =>
      unfold find? at found
      split at found
      · rename_i sameName
        have sameValue : head.2 = value := by
          simpa using found
        rw [← sameName, ← sameValue]
        exact List.mem_cons_self
      · exact List.mem_cons_of_mem head (inductionHypothesis found)

/-- Among members in order, a member is found under its name. -/
theorem find?_of_mem
    {name : String} {value : Json} {members : List (String × Json)}
    (ascending : Ascending members)
    (isMember : (name, value) ∈ members) :
    find? name members = some value := by
  induction members with
  | nil =>
      simp at isMember
  | cons head rest inductionHypothesis =>
      obtain ⟨headBelow, restAscending⟩ := List.pairwise_cons.mp ascending
      rcases List.mem_cons.mp isMember with atHead | inRest
      · simp [find?, ← atHead]
      · have different : head.1 ≠ name :=
          Text.ne_of_lessThan (headBelow _ inRest)
        simpa [find?, different] using inductionHypothesis restAscending inRest

/-- Putting a member where it already stands changes nothing. -/
theorem insert_eq_self
    {name : String} {value : Json} {members : List (String × Json)}
    (ascending : Ascending members)
    (found : find? name members = some value) :
    insert name value members = members := by
  induction members with
  | nil =>
      simp [find?] at found
  | cons head rest inductionHypothesis =>
      obtain ⟨headBelow, restAscending⟩ := List.pairwise_cons.mp ascending
      unfold find? at found
      split at found
      · rename_i sameName
        have sameValue : head.2 = value := by
          simpa using found
        simp [insert, ← sameName, ← sameValue]
      · rename_i otherName
        have nameAbove : Text.lessThan head.1 name = true :=
          headBelow (name, value) (mem_of_find? found)
        simp [insert, otherName, Text.lessThan_asymm nameAbove,
          inductionHypothesis restAscending found]

theorem ordered_of_find?
    {name : String} {value : Json} {members : List (String × Json)}
    (membersOrdered : OrderedMembers members)
    (found : find? name members = some value) :
    Ordered value :=
  (orderedMembers_iff members).mp membersOrdered (name, value) (mem_of_find? found)

/-! ## Reading -/

theorem ordered_of_follow?
    {keys : List String} {value reached : Json}
    (valueOrdered : Ordered value)
    (follows : follow? keys value = some reached) :
    Ordered reached := by
  induction keys generalizing value with
  | nil =>
      have same : value = reached := by
        simpa [follow?] using follows
      rwa [← same]
  | cons key rest inductionHypothesis =>
      cases value with
      | object members =>
          rw [Ordered] at valueOrdered
          obtain ⟨child, found, childFollows⟩ :=
            Option.bind_eq_some_iff.mp (by simpa [follow?] using follows)
          exact inductionHypothesis (ordered_of_find? valueOrdered.2 found) childFollows
      | array items =>
          rw [Ordered, orderedItems_iff] at valueOrdered
          obtain ⟨child, found, childFollows⟩ :=
            Option.bind_eq_some_iff.mp (by simpa [follow?] using follows)
          obtain ⟨place, -, atPlace⟩ := Option.bind_eq_some_iff.mp found
          exact inductionHypothesis
            (valueOrdered child (List.mem_of_getElem? atPlace)) childFollows
      | null | bool _ | number _ | text _ =>
          simp [follow?] at follows

/-! ## Updating -/

/-- Whether every value that a path leads through, its end apart, is an
object; what is missing on the way does not block. -/
def passesObjects : List String → Json → Bool
  | [], _ => true
  | key :: rest, object members =>
    match find? key members with
    | some child => passesObjects rest child
    | none => true
  | _ :: _, _ => false

/-- What one key of a path that reads as an object needs of an object. -/
theorem child_of_follow?
    {key : String} {rest : List String} {members reached : List (String × Json)}
    (follows : follow? (key :: rest) (object members) = some (object reached)) :
    ∃ child, find? key members = some child ∧
      follow? rest child = some (object reached) :=
  Option.bind_eq_some_iff.mp (by simpa [follow?] using follows)

theorem update?_of_not_passesObjects
    (change : List (String × Json) → List (String × Json))
    {keys : List String} {value : Json}
    (blocked : passesObjects keys value = false) :
    update? change keys value = none := by
  induction keys generalizing value with
  | nil =>
      simp [passesObjects] at blocked
  | cons key rest inductionHypothesis =>
      cases value with
      | object members =>
          cases found : find? key members with
          | none =>
              simp [passesObjects, found] at blocked
          | some child =>
              have childBlocked : passesObjects rest child = false := by
                simpa [passesObjects, found] using blocked
              simp [update?, found, inductionHypothesis childBlocked]
      | null | bool _ | number _ | text _ | array _ =>
          simp [update?]

/-- An update that meets only objects succeeds, and reading then finds the
changed members. -/
theorem exists_update?_of_passesObjects
    (change : List (String × Json) → List (String × Json))
    {keys : List String} {value : Json} {reached : List (String × Json)}
    (passes : passesObjects keys value = true)
    (follows : follow? keys value = some (object reached)) :
    ∃ updated, update? change keys value = some updated ∧
      follow? keys updated = some (object (change reached)) := by
  induction keys generalizing value with
  | nil =>
      have same : value = object reached := by
        simpa [follow?] using follows
      exact ⟨object (change reached), by simp [same, update?], by simp [follow?]⟩
  | cons key rest inductionHypothesis =>
      cases value with
      | object members =>
          obtain ⟨child, found, childFollows⟩ := child_of_follow? follows
          have childPasses : passesObjects rest child = true := by
            simpa [passesObjects, found] using passes
          obtain ⟨updated, childUpdated, updatedFollows⟩ :=
            inductionHypothesis childPasses childFollows
          exact ⟨object (insert key updated members),
            by simp [update?, found, childUpdated],
            by simp [follow?, updatedFollows]⟩
      | null | bool _ | number _ | text _ | array _ =>
          simp [passesObjects] at passes

/-- The members of the object that a path leads to; none where nothing stands. -/
def membersAt (keys : List String) (value : Json) : List (String × Json) :=
  ((value.follow? keys).bind asObject?).getD []

theorem membersAt_of_follow?
    {keys : List String} {value : Json} {reached : List (String × Json)}
    (follows : follow? keys value = some (object reached)) :
    membersAt keys value = reached := by
  simp [membersAt, follows, asObject?]

theorem membersAt_missing (keys : List String) :
    membersAt keys (object []) = [] := by
  cases keys with
  | nil =>
      rfl
  | cons key rest =>
      rfl

/-- A path through an object leads on from the member that its first key names,
or from an object without members. -/
theorem membersAt_cons (key : String) (rest : List String) (members : List (String × Json)) :
    membersAt (key :: rest) (object members) =
      membersAt rest ((find? key members).getD (object [])) := by
  cases found : find? key members with
  | none =>
      rw [Option.getD_none, membersAt_missing]
      simp [membersAt, follow?, found]
  | some child =>
      simp [membersAt, follow?, found]

/-- An update depends only on what it makes of the members that it reaches. -/
theorem update?_congr
    {change other : List (String × Json) → List (String × Json)}
    {keys : List String} {value : Json}
    (agree : change (membersAt keys value) = other (membersAt keys value)) :
    update? change keys value = update? other keys value := by
  induction keys generalizing value with
  | nil =>
      cases value with
      | object members =>
          have agreeHere : change members = other members := agree
          simp [update?, agreeHere]
      | null | bool _ | number _ | text _ | array _ =>
          simp [update?]
  | cons key rest inductionHypothesis =>
      cases value with
      | object members =>
          rw [membersAt_cons] at agree
          simp [update?, inductionHypothesis agree]
      | null | bool _ | number _ | text _ | array _ =>
          simp [update?]

/-- An update that keeps the members that it reaches gives the value back, if
it gives anything. -/
theorem update?_unchanged
    {keys : List String} {value updated : Json} {reached : List (String × Json)}
    (valueOrdered : Ordered value)
    (follows : follow? keys value = some (object reached))
    (updates : update? id keys value = some updated) :
    updated = value := by
  induction keys generalizing value updated with
  | nil =>
      have same : value = object reached := by
        simpa [follow?] using follows
      subst same
      simpa [update?] using updates.symm
  | cons key rest inductionHypothesis =>
      cases value with
      | object members =>
          rw [Ordered] at valueOrdered
          obtain ⟨child, found, childFollows⟩ := child_of_follow? follows
          obtain ⟨updatedChild, childUpdates, rebuilt⟩ :=
            Option.map_eq_some_iff.mp (by simpa [update?, found] using updates)
          have childSame : updatedChild = child :=
            inductionHypothesis (ordered_of_find? valueOrdered.2 found)
              childFollows childUpdates
          rw [← rebuilt, childSame, insert_eq_self valueOrdered.1 found]
      | null | bool _ | number _ | text _ | array _ =>
          simp [update?] at updates

/-- An update that keeps members in order keeps a whole value in order. -/
theorem ordered_update?
    {change : List (String × Json) → List (String × Json)}
    (changeOrdered :
      ∀ members, Ordered (object members) → Ordered (object (change members)))
    {keys : List String} {value updated : Json}
    (valueOrdered : Ordered value)
    (updates : update? change keys value = some updated) :
    Ordered updated := by
  induction keys generalizing value updated with
  | nil =>
      cases value with
      | object members =>
          have same : object (change members) = updated := by
            simpa [update?] using updates
          rw [← same]
          exact changeOrdered members valueOrdered
      | null | bool _ | number _ | text _ | array _ =>
          simp [update?] at updates
  | cons key rest inductionHypothesis =>
      cases value with
      | object members =>
          rw [Ordered] at valueOrdered
          obtain ⟨updatedChild, childUpdates, rebuilt⟩ :=
            Option.map_eq_some_iff.mp (by simpa [update?] using updates)
          have childOrdered :
              Ordered ((find? key members).getD (object [])) := by
            cases found : find? key members with
            | none =>
                exact ⟨List.Pairwise.nil, trivial⟩
            | some child =>
                exact ordered_of_find? valueOrdered.2 found
          rw [← rebuilt]
          exact ⟨ascending_insert valueOrdered.1 key updatedChild,
            orderedMembers_insert (inductionHypothesis childOrdered childUpdates)
              valueOrdered.2 key⟩
      | null | bool _ | number _ | text _ | array _ =>
          simp [update?] at updates

end ShapeAudit.Json
