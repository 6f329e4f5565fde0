import ShapeAudit.Proofs.Json.Update

/-!
# Places inside a value

A place is reached by steps into members and items.  Two values are the same but
for some booleans when at every place both have the same outline, in which a
boolean shows only that it is one, and whatever holds none of these booleans is
the same in both.  Setting a boolean member of an object, and doing so at the end
of a path, changes no more than that.
-/

namespace ShapeAudit.Json

/-! ## Places -/

/-- One step into a value. -/
inductive Step where
  | member (name : String)
  | item (place : Nat)
  deriving DecidableEq

/-- What one step leads to. -/
def child? : Step → Json → Option Json
  | .member name, object members => find? name members
  | .item place, array items => items[place]?
  | _, _ => none

/-- What stands at a place. -/
def at? : List Step → Json → Option Json
  | [], value => some value
  | step :: rest, value => (value.child? step).bind (at? rest)

/-- What can be seen of a value without a step into it, the value of a boolean
apart. -/
inductive Outline where
  | null
  | bool
  | number (value : Number)
  | text (value : String)
  | array (size : Nat)
  | object (names : List String)

/-- The outline of a value. -/
def outline : Json → Outline
  | null => .null
  | bool _ => .bool
  | number value => .number value
  | text value => .text value
  | array items => .array items.length
  | object members => .object (members.map Prod.fst)

/-- Two values are the same but for the booleans at some places. -/
structure SameBut (touched : List Step → Prop) (value changed : Json) : Prop where
  /-- No member and no item is added or removed anywhere, and nothing but the value of
  a boolean is changed. -/
  outlined : ∀ place, (changed.at? place).map outline = (value.at? place).map outline
  /-- Whatever holds none of the places is unchanged. -/
  untouched : ∀ place, (∀ below, ¬ touched (place ++ below)) →
    changed.at? place = value.at? place

namespace SameBut

theorem refl (touched : List Step → Prop) (value : Json) : SameBut touched value value where
  outlined _ := rfl
  untouched _ _ := rfl

theorem trans
    {touched : List Step → Prop} {first second third : Json}
    (before : SameBut touched first second) (after : SameBut touched second third) :
    SameBut touched first third where
  outlined place := (after.outlined place).trans (before.outlined place)
  untouched place holdsNone :=
    (after.untouched place holdsNone).trans (before.untouched place holdsNone)

theorem weaken
    {touched wider : List Step → Prop} {value changed : Json}
    (same : SameBut touched value changed) (within : ∀ place, touched place → wider place) :
    SameBut wider value changed where
  outlined := same.outlined
  untouched place holdsNone :=
    same.untouched place fun below isTouched => holdsNone below (within _ isTouched)

theorem ofBool (first second : Bool) :
    SameBut (fun place => place = []) (bool first) (bool second) where
  outlined place := by
    cases place with
    | nil =>
        rfl
    | cons step rest =>
        cases step <;> rfl
  untouched place holdsNone := by
    cases place with
    | nil =>
        exact absurd rfl (holdsNone [])
    | cons step rest =>
        cases step <;> rfl

end SameBut

/-! ## Setting a member that is there -/

theorem names_insert
    {name : String} {old : Json} {members : List (String × Json)}
    (ascending : Ascending members) (found : find? name members = some old) (value : Json) :
    (insert name value members).map Prod.fst = members.map Prod.fst := by
  induction members with
  | nil =>
      cases found
  | cons head rest inductionHypothesis =>
      obtain ⟨headBelow, restAscending⟩ := List.pairwise_cons.mp ascending
      by_cases sameName : head.1 = name
      · simp [insert, sameName]
      · have foundLater : find? name rest = some old := by
          simpa [find?, sameName] using found
        have headBefore : Text.lessThan head.1 name = true :=
          headBelow (name, old) (mem_of_find? foundLater)
        have notBefore := Text.lessThan_asymm headBefore
        simp [insert, sameName, notBefore, inductionHypothesis restAscending foundLater]

/-- Putting another value in place of a member, where the two are the same but for
some booleans. -/
theorem sameBut_insert
    {touched : List Step → Prop} {name : String} {child changed : Json}
    {members : List (String × Json)} (ascending : Ascending members)
    (found : find? name members = some child) (same : SameBut touched child changed) :
    SameBut (fun place => ∃ below, place = .member name :: below ∧ touched below)
      (object members) (object (insert name changed members)) where
  outlined place := by
    cases place with
    | nil =>
        simp [at?, outline, names_insert ascending found]
    | cons step rest =>
        cases step with
        | item _ =>
            rfl
        | member other =>
            by_cases isHere : other = name
            · subst isHere
              simpa [at?, child?, found] using same.outlined rest
            · simp [at?, child?, find?_insert_of_ne isHere]
  untouched place holdsNone := by
    cases place with
    | nil =>
        have childUntouched : changed.at? [] = child.at? [] :=
          same.untouched [] fun below isTouched =>
            holdsNone (.member name :: below) ⟨below, rfl, isTouched⟩
        have sameChild : changed = child := Option.some.inj childUntouched
        rw [sameChild, insert_eq_self ascending found]
    | cons step rest =>
        cases step with
        | item _ =>
            rfl
        | member other =>
            by_cases isHere : other = name
            · subst isHere
              have childUntouched : changed.at? rest = child.at? rest :=
                same.untouched rest fun below isTouched =>
                  holdsNone below ⟨rest ++ below, rfl, isTouched⟩
              simpa [at?, child?, found] using childUntouched
            · simp [at?, child?, find?_insert_of_ne isHere]

/-! ## Updating at the end of a path -/

/-- An update changes what it makes of the members that it reaches, and nothing
else. -/
theorem sameBut_update?
    {touched : List Step → Prop} {change : List (String × Json) → List (String × Json)}
    {keys : List String} {value updated : Json} {reached : List (String × Json)}
    (valueOrdered : Ordered value)
    (follows : follow? keys value = some (object reached))
    (updates : update? change keys value = some updated)
    (same : SameBut touched (object reached) (object (change reached))) :
    SameBut (fun place => ∃ below, place = keys.map Step.member ++ below ∧ touched below)
      value updated := by
  induction keys generalizing value updated with
  | nil =>
      have isReached : value = object reached := by
        simpa [follow?] using follows
      subst isReached
      have isChanged : object (change reached) = updated := by
        simpa [update?] using updates
      rw [← isChanged]
      exact same.weaken fun place isTouched => ⟨place, rfl, isTouched⟩
  | cons key rest inductionHypothesis =>
      cases value with
      | object members =>
          rw [Ordered] at valueOrdered
          obtain ⟨child, found, childFollows⟩ := child_of_follow? follows
          obtain ⟨updatedChild, childUpdates, rebuilt⟩ :=
            Option.map_eq_some_iff.mp (by simpa [update?, found] using updates)
          have sameChild :=
            inductionHypothesis (ordered_of_find? valueOrdered.2 found) childFollows childUpdates
          rw [← rebuilt]
          apply (sameBut_insert valueOrdered.1 found sameChild).weaken
          rintro place ⟨later, rfl, below, rfl, isTouched⟩
          exact ⟨below, rfl, isTouched⟩
      | null | bool _ | number _ | text _ | array _ =>
          simp [update?] at updates

end ShapeAudit.Json
