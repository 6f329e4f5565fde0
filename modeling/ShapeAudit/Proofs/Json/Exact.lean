import ShapeAudit.Proofs.Json.Update

/-!
# Updates, place by place

A path is blocked if something that is there, on the way or at its end, is no
object.  A blocked path admits no update at all.  Along any other path every
update succeeds, and it can be said of each place what stands there afterwards:
the changed members at the end of the path, the old members and the next key on
the way, and whatever stood there before at every place beside the path.
-/

namespace ShapeAudit.Json

/-! ## Members by name -/

theorem find?_eq_none_of_below
    {name : String} {members : List (String × Json)}
    (below : ∀ member ∈ members, Text.lessThan name member.1 = true) :
    find? name members = none := by
  induction members with
  | nil =>
      rfl
  | cons head rest inductionHypothesis =>
      have notHead : head.1 ≠ name :=
        (Text.ne_of_lessThan (below head List.mem_cons_self)).symm
      have notInRest : find? name rest = none :=
        inductionHypothesis fun member inRest => below member (List.mem_cons_of_mem head inRest)
      simp [find?, notHead, notInRest]

/-- The first of some members in order is not found among others that all come
after it. -/
private theorem not_lessThan_of_find?
    {first second : String × Json} {firstRest secondRest : List (String × Json)}
    (ascending : Ascending (second :: secondRest))
    (same : ∀ name, find? name (first :: firstRest) = find? name (second :: secondRest)) :
    Text.lessThan first.1 second.1 = false := by
  rw [Bool.eq_false_iff]
  intro firstBelow
  have allAbove : ∀ member ∈ second :: secondRest, Text.lessThan first.1 member.1 = true := by
    intro member isMember
    rcases List.mem_cons.mp isMember with atHead | inRest
    · rwa [atHead]
    · exact Text.lessThan_trans firstBelow ((List.pairwise_cons.mp ascending).1 member inRest)
  have found : find? first.1 (first :: firstRest) = some first.2 := by
    simp [find?]
  rw [same, find?_eq_none_of_below allAbove] at found
  cases found

/-- Members in order are known from the values of their names. -/
theorem ascending_ext
    {first second : List (String × Json)}
    (firstAscending : Ascending first) (secondAscending : Ascending second)
    (same : ∀ name, find? name first = find? name second) :
    first = second := by
  induction first generalizing second with
  | nil =>
      cases second with
      | nil =>
          rfl
      | cons head rest =>
          have missing := same head.1
          simp [find?] at missing
  | cons head rest inductionHypothesis =>
      cases second with
      | nil =>
          have missing := same head.1
          simp [find?] at missing
      | cons other others =>
          have sameName : head.1 = other.1 := by
            apply Decidable.byContradiction
            intro different
            have notBelow := not_lessThan_of_find? secondAscending same
            have notAbove := not_lessThan_of_find? firstAscending fun name => (same name).symm
            have below := Text.lessThan_of_not_lessThan (Ne.symm different) notAbove
            rw [notBelow] at below
            cases below
          have sameValue : head.2 = other.2 := by
            have atName := same other.1
            simpa [find?, sameName] using atName
          obtain ⟨headBelow, restAscending⟩ := List.pairwise_cons.mp firstAscending
          obtain ⟨otherBelow, othersAscending⟩ := List.pairwise_cons.mp secondAscending
          have sameRest : ∀ name, find? name rest = find? name others := by
            intro name
            by_cases isHead : other.1 = name
            · subst isHead
              rw [find?_eq_none_of_below otherBelow,
                find?_eq_none_of_below (sameName ▸ headBelow)]
            · have atName := same name
              simpa [find?, sameName, isHead] using atName
          rw [Prod.ext sameName sameValue,
            inductionHypothesis restAscending othersAscending sameRest]

/-- Of two members of the same name the later one stays. -/
theorem insert_insert
    (name : String) (value other : Json) (members : List (String × Json)) :
    insert name value (insert name other members) = insert name value members := by
  induction members with
  | nil =>
      simp [insert]
  | cons head rest inductionHypothesis =>
      by_cases sameName : head.1 = name
      · simp [insert, sameName]
      · by_cases below : Text.lessThan name head.1 = true
        · simp [insert, sameName, below]
        · simp [insert, sameName, below, inductionHypothesis]

theorem ascending_membersAt
    {value : Json} (valueOrdered : Ordered value) (keys : List String) :
    Ascending (membersAt keys value) := by
  unfold membersAt
  cases follows : follow? keys value with
  | none =>
      exact List.Pairwise.nil
  | some reached =>
      have reachedOrdered := ordered_of_follow? valueOrdered follows
      cases reached with
      | object members =>
          rw [Ordered] at reachedOrdered
          exact reachedOrdered.1
      | null | bool _ | number _ | text _ | array _ =>
          exact List.Pairwise.nil

/-! ## Blocked paths -/

/-- Something that is there, on the way along a path or at its end, is no object. -/
def Blocked (keys : List String) (value : Json) : Prop :=
  ∃ before reached, before <+: keys ∧ value.follow? before = some reached ∧
    reached.asObject? = none

theorem not_blocked_missing (keys : List String) :
    ¬ Blocked keys (object []) := by
  rintro ⟨before, reached, -, follows, notObject⟩
  cases before with
  | nil =>
      have isObject : object [] = reached := by
        simpa [follow?] using follows
      simp [← isObject, asObject?] at notObject
  | cons key rest =>
      simp [follow?, find?] at follows

theorem blocked_cons_iff (key : String) (rest : List String) (members : List (String × Json)) :
    Blocked (key :: rest) (object members) ↔
      Blocked rest ((find? key members).getD (object [])) := by
  constructor
  · rintro ⟨before, reached, isPrefix, follows, notObject⟩
    cases before with
    | nil =>
        have isObject : object members = reached := by
          simpa [follow?] using follows
        simp [← isObject, asObject?] at notObject
    | cons first before =>
        obtain ⟨rfl, beforePrefix⟩ := List.cons_prefix_cons.mp isPrefix
        obtain ⟨child, found, childFollows⟩ :=
          Option.bind_eq_some_iff.mp (by simpa [follow?] using follows)
        rw [found, Option.getD_some]
        exact ⟨before, reached, beforePrefix, childFollows, notObject⟩
  · intro blockedBelow
    cases found : find? key members with
    | none =>
        rw [found] at blockedBelow
        exact absurd blockedBelow (not_blocked_missing rest)
    | some child =>
        rw [found] at blockedBelow
        obtain ⟨before, reached, isPrefix, follows, notObject⟩ := blockedBelow
        refine ⟨key :: before, reached, List.cons_prefix_cons.mpr ⟨rfl, isPrefix⟩, ?_, notObject⟩
        simpa [follow?, found] using follows

/-- What a path begins with blocks it if it is no object. -/
theorem blocked_of_asObject?
    {value : Json} (notObject : value.asObject? = none) (keys : List String) :
    Blocked keys value :=
  ⟨[], value, List.nil_prefix, rfl, notObject⟩

/-- Whether an update fails depends on its path alone. -/
theorem update?_eq_none_iff
    (change : List (String × Json) → List (String × Json))
    (keys : List String) (value : Json) :
    update? change keys value = none ↔ Blocked keys value := by
  induction keys generalizing value with
  | nil =>
      cases value with
      | object members =>
          have free : ¬ Blocked [] (object members) := by
            rintro ⟨before, reached, isPrefix, follows, notObject⟩
            have isObject : object members = reached := by
              simpa [List.prefix_nil.mp isPrefix, follow?] using follows
            simp [← isObject, asObject?] at notObject
          simp [update?, free]
      | null | bool _ | number _ | text _ | array _ =>
          exact iff_of_true (by simp [update?]) (blocked_of_asObject? rfl [])
  | cons key rest inductionHypothesis =>
      cases value with
      | object members =>
          rw [blocked_cons_iff, ← inductionHypothesis, update?, Option.map_eq_none_iff]
      | null | bool _ | number _ | text _ | array _ =>
          exact iff_of_true (by simp [update?]) (blocked_of_asObject? rfl (key :: rest))

/-! ## What an update leaves where -/

/-- A value after an update, compared with the one before it at every place. -/
structure ChangedAt
    (change : List (String × Json) → List (String × Json)) (keys : List String)
    (value changed : Json) : Prop where
  /-- At the end of the path stand the changed members. -/
  reached : changed.follow? keys = some (object (change (membersAt keys value)))
  /-- On the way stand the members that stood there, and the next key of the path. -/
  passed : ∀ before key after, keys = before ++ key :: after →
    ∃ child, changed.follow? before = some (object (insert key child (membersAt before value)))
  /-- At a place that is neither above the path nor below it stands what stood there. -/
  beside : ∀ place, ¬ keys <+: place → ¬ place <+: keys →
    changed.follow? place = value.follow? place

/-- Where an update of one member changes what, it changes the same below the
object that holds the member. -/
theorem changedAt_insert
    {change : List (String × Json) → List (String × Json)} {key : String} {rest : List String}
    {members : List (String × Json)} {child : Json}
    (changed : ChangedAt change rest ((find? key members).getD (object [])) child) :
    ChangedAt change (key :: rest) (object members) (object (insert key child members)) where
  reached := by
    rw [membersAt_cons]
    simpa [follow?] using changed.reached
  passed := by
    intro before next after isSplit
    cases before with
    | nil =>
        obtain ⟨rfl, -⟩ := List.cons.inj isSplit
        exact ⟨child, rfl⟩
    | cons first before =>
        obtain ⟨rfl, restSplit⟩ := List.cons.inj isSplit
        obtain ⟨grandchild, follows⟩ := changed.passed before next after restSplit
        refine ⟨grandchild, ?_⟩
        rw [membersAt_cons]
        simpa [follow?] using follows
  beside := by
    intro place notBelow notAbove
    cases place with
    | nil =>
        exact absurd List.nil_prefix notAbove
    | cons first place =>
        by_cases sameKey : first = key
        · subst sameKey
          have below : child.follow? place =
              ((find? first members).getD (object [])).follow? place := by
            apply changed.beside
            · exact fun isBelow => notBelow (List.cons_prefix_cons.mpr ⟨rfl, isBelow⟩)
            · exact fun isAbove => notAbove (List.cons_prefix_cons.mpr ⟨rfl, isAbove⟩)
          cases found : find? first members with
          | some old =>
              rw [found] at below
              simpa [follow?, found] using below
          | none =>
              -- nothing stood here, and an object without members holds nothing either
              cases place with
              | nil =>
                  exact absurd (List.cons_prefix_cons.mpr ⟨rfl, List.nil_prefix⟩) notAbove
              | cons second place =>
                  rw [found] at below
                  simpa [follow?, found, find?] using below
        · simp [follow?, find?_insert_of_ne sameKey]

theorem changedAt_of_update?
    {change : List (String × Json) → List (String × Json)} {keys : List String}
    {value updated : Json} (updates : update? change keys value = some updated) :
    ChangedAt change keys value updated := by
  induction keys generalizing value updated with
  | nil =>
      cases value with
      | object members =>
          have isChanged : object (change members) = updated := by
            simpa [update?] using updates
          subst isChanged
          exact
            { reached := rfl
              passed := by simp
              beside := fun place notBelow _ => absurd List.nil_prefix notBelow }
      | null | bool _ | number _ | text _ | array _ =>
          simp [update?] at updates
  | cons key rest inductionHypothesis =>
      cases value with
      | object members =>
          obtain ⟨child, childUpdates, rebuilt⟩ :=
            Option.map_eq_some_iff.mp (by simpa [update?] using updates)
          rw [← rebuilt]
          exact changedAt_insert (inductionHypothesis childUpdates)
      | null | bool _ | number _ | text _ | array _ =>
          simp [update?] at updates

/-- One update and another one at the same path are one update. -/
theorem update?_update?
    {change : List (String × Json) → List (String × Json)} {keys : List String}
    {value updated : Json} (updates : update? change keys value = some updated)
    (other : List (String × Json) → List (String × Json)) :
    update? other keys updated = update? (other ∘ change) keys value := by
  induction keys generalizing value updated with
  | nil =>
      cases value with
      | object members =>
          have isChanged : object (change members) = updated := by
            simpa [update?] using updates
          simp [← isChanged, update?]
      | null | bool _ | number _ | text _ | array _ =>
          simp [update?] at updates
  | cons key rest inductionHypothesis =>
      cases value with
      | object members =>
          obtain ⟨child, childUpdates, rebuilt⟩ :=
            Option.map_eq_some_iff.mp (by simpa [update?] using updates)
          have below := inductionHypothesis childUpdates
          simp [← rebuilt, update?, below, insert_insert]
      | null | bool _ | number _ | text _ | array _ =>
          simp [update?] at updates

end ShapeAudit.Json
