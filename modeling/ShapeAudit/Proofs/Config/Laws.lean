import ShapeAudit.Proofs.Config.Override
import ShapeAudit.Proofs.Json.Exact

/-!
# Laws of overriding

What overriding does to a configuration is told by two things: whether the
pointer is blocked, and what each name was set to last.  The laws follow from
that, since members in order are known from the values of their names.
-/

namespace ShapeAudit.Config.Record

open Json (Ordered Ascending Blocked ChangedAt find? follow? insert membersAt update?)

/-! ## The last value of a name -/

/-- The value that the last override of a name gives it. -/
def lastSet? (name : String) (overrides : List Flag) : Option Bool :=
  (overrides.reverse.find? fun flag => flag.1 == name).map Prod.snd

theorem lastSet?_cons (name : String) (flag : Flag) (rest : List Flag) :
    lastSet? name (flag :: rest) =
      (lastSet? name rest).or (if flag.1 = name then some flag.2 else none) := by
  rw [lastSet?, List.reverse_cons, List.find?_append, Option.map_or]
  by_cases sameName : flag.1 = name <;> simp [lastSet?, sameName]

theorem mem_of_lastSet?
    {name : String} {value : Bool} {overrides : List Flag}
    (isLast : lastSet? name overrides = some value) :
    (name, value) ∈ overrides := by
  obtain ⟨flag, found, rfl⟩ := Option.map_eq_some_iff.mp isLast
  have sameName : flag.1 = name := by
    simpa using List.find?_some found
  have isOverride : flag ∈ overrides :=
    List.mem_reverse.mp (List.mem_of_find?_eq_some found)
  rwa [← sameName]

/-- Where names are set once, the last value of a name is the only one. -/
theorem lastSet?_eq_some_iff
    {overrides : List Flag} (distinct : (overrides.map Prod.fst).Nodup)
    (name : String) (value : Bool) :
    lastSet? name overrides = some value ↔ (name, value) ∈ overrides := by
  refine ⟨mem_of_lastSet?, ?_⟩
  intro isOverride
  induction overrides with
  | nil =>
      cases isOverride
  | cons flag rest inductionHypothesis =>
      obtain ⟨notInRest, restDistinct⟩ := List.nodup_cons.mp distinct
      rw [lastSet?_cons]
      rcases List.mem_cons.mp isOverride with atHead | inRest
      · have noneLater : lastSet? name rest = none := by
          rw [Option.eq_none_iff_forall_ne_some]
          intro other isLater
          have laterName : name ∈ rest.map Prod.fst :=
            List.mem_map_of_mem (mem_of_lastSet? isLater)
          exact notInRest (by simpa [← atHead] using laterName)
        simp [noneLater, ← atHead]
      · rw [inductionHypothesis restDistinct inRest, Option.some_or]

/-- Overridden members hold what was set last, and what they held before where
nothing was set. -/
theorem find?_override
    (name : String) (overrides : List Flag) (members : List (String × Json)) :
    find? name (override overrides members) =
      ((lastSet? name overrides).map Json.bool).or (find? name members) := by
  induction overrides generalizing members with
  | nil =>
      simp [override, lastSet?]
  | cons flag rest inductionHypothesis =>
      rw [override_cons, inductionHypothesis, lastSet?_cons, Option.map_or, Option.or_assoc]
      by_cases sameName : flag.1 = name
      · subst sameName
        simp
      · simp [sameName, Json.find?_insert_of_ne (Ne.symm sameName)]

theorem ascending_override
    {members : List (String × Json)} (ascending : Ascending members) (overrides : List Flag) :
    Ascending (override overrides members) := by
  induction overrides generalizing members with
  | nil =>
      exact ascending
  | cons flag rest inductionHypothesis =>
      exact inductionHypothesis (Json.ascending_insert ascending flag.1 (.bool flag.2))

/-- Overrides that set every name to the same do the same. -/
theorem override_congr
    {overrides others : List Flag}
    (sameLast : ∀ name, lastSet? name overrides = lastSet? name others)
    {members : List (String × Json)} (ascending : Ascending members) :
    override overrides members = override others members := by
  apply Json.ascending_ext
  · exact ascending_override ascending overrides
  · exact ascending_override ascending others
  · intro name
    rw [find?_override, find?_override, sameLast]

/-- Members that are set to what they hold stay as they are. -/
theorem override_eq_self
    {overrides : List Flag} {members : List (String × Json)} (ascending : Ascending members)
    (current : ∀ flag ∈ overrides, find? flag.1 members = some (.bool flag.2)) :
    override overrides members = members := by
  apply Json.ascending_ext (ascending_override ascending overrides) ascending
  intro name
  rw [find?_override]
  cases isLast : lastSet? name overrides with
  | none =>
      rfl
  | some value =>
      exact (current (name, value) (mem_of_lastSet? isLast)).symm

/-! ## Overrides of a record -/

theorem withFlags_of_ne_nil
    (record : Record) {overrides : List Flag} (someSet : overrides ≠ []) :
    record.withFlags overrides =
      (update? (override overrides) record.pointer.keys record.value).getD record.value := by
  simp [withFlags, someSet]

theorem withFlags_of_blocked
    {record : Record} (blocked : Blocked record.pointer.keys record.value)
    (overrides : List Flag) :
    record.withFlags overrides = record.value := by
  by_cases noneSet : overrides = []
  · rw [noneSet]
    rfl
  · rw [withFlags_of_ne_nil record noneSet, (Json.update?_eq_none_iff _ _ _).mpr blocked,
      Option.getD_none]

/-- Overrides along a pointer that is not blocked arrive. -/
theorem update?_withFlags
    {record : Record} (free : ¬ Blocked record.pointer.keys record.value)
    {overrides : List Flag} (someSet : overrides ≠ []) :
    update? (override overrides) record.pointer.keys record.value =
      some (record.withFlags overrides) := by
  have succeeds : update? (override overrides) record.pointer.keys record.value ≠ none :=
    fun failed => free ((Json.update?_eq_none_iff _ _ _).mp failed)
  obtain ⟨updated, updates⟩ := Option.ne_none_iff_exists'.mp succeeds
  rw [withFlags_of_ne_nil record someSet, updates, Option.getD_some]

/-- How a configuration with overrides compares with the one that a record holds,
at every place.  Objects are in order, so the values of their names are all there
is to them. -/
structure OverriddenExactly (record : Record) (overrides : List Flag) (changed : Json) :
    Prop where
  ordered : Ordered changed
  /-- At the pointer stands an object with the old members, of which there are none
  if nothing stood there, and the overrides over them. -/
  flags : ∃ old entries,
    (record.holder? = some (.object old) ∨ record.holder? = none ∧ old = []) ∧
      changed.follow? record.pointer.keys = some (.object entries) ∧
      ∀ name, find? name entries =
        ((lastSet? name overrides).map Json.bool).or (find? name old)
  /-- An object on the way keeps its members, but for the one that leads on. -/
  passed : ∀ before key after members, record.pointer.keys = before ++ key :: after →
    record.value.follow? before = some (.object members) →
      ∃ kept, changed.follow? before = some (.object kept) ∧
        ∀ name, name ≠ key → find? name kept = find? name members
  /-- An object that was missing on the way holds the next key and nothing else. -/
  created : ∀ before key after, record.pointer.keys = before ++ key :: after →
    record.value.follow? before = none →
      ∃ child, changed.follow? before = some (.object [(key, child)])
  /-- Beside the pointer nothing changes. -/
  beside : ∀ place, ¬ record.pointer.keys <+: place → ¬ place <+: record.pointer.keys →
    changed.follow? place = record.value.follow? place

theorem overriddenExactly_of_changedAt
    {record : Record} (free : ¬ Blocked record.pointer.keys record.value)
    {overrides : List Flag}
    (changed : ChangedAt (override overrides) record.pointer.keys record.value
      (record.withFlags overrides)) :
    record.OverriddenExactly overrides (record.withFlags overrides) where
  ordered := record.ordered_withFlags overrides
  flags := by
    refine ⟨membersAt record.pointer.keys record.value, _, ?_, changed.reached, ?_⟩
    · cases held : record.holder? with
      | none =>
          have follows : record.value.follow? record.pointer.keys = none := held
          exact Or.inr ⟨rfl, by simp [membersAt, follows]⟩
      | some reached =>
          cases isObject : reached.asObject? with
          | none =>
              exact absurd ⟨_, reached, List.prefix_rfl, held, isObject⟩ free
          | some members =>
              cases reached with
              | object members =>
                  exact Or.inl (by rw [Json.membersAt_of_follow? held])
              | null | bool _ | number _ | text _ | array _ =>
                  simp [Json.asObject?] at isObject
    · intro name
      exact find?_override name overrides _
  passed := by
    intro before key after members isSplit follows
    obtain ⟨child, changedFollows⟩ := changed.passed before key after isSplit
    rw [Json.membersAt_of_follow? follows] at changedFollows
    refine ⟨_, changedFollows, ?_⟩
    intro name isOther
    exact Json.find?_insert_of_ne isOther child members
  created := by
    intro before key after isSplit missing
    obtain ⟨child, changedFollows⟩ := changed.passed before key after isSplit
    have noMembers : membersAt before record.value = [] := by
      simp [membersAt, missing]
    rw [noMembers] at changedFollows
    exact ⟨child, changedFollows⟩
  beside := changed.beside

/-- Overriding flags is exact, and it is done as a whole or not at all.  Without
overrides, and where something at the pointer or on the way to it is no object,
the configuration stays the same.  Otherwise the overrides stand at the pointer,
over what stood there, and nothing else changes, but for objects that were
missing on the way. -/
theorem overriding_is_exact_and_atomic (record : Record) (overrides : List Flag) :
    (overrides = [] → record.withFlags overrides = record.value) ∧
    (overrides ≠ [] →
      (Blocked record.pointer.keys record.value →
        record.withFlags overrides = record.value) ∧
      (¬ Blocked record.pointer.keys record.value →
        record.OverriddenExactly overrides (record.withFlags overrides))) := by
  refine ⟨?_, ?_⟩
  · intro noneSet
    rw [noneSet]
    rfl
  · intro someSet
    refine ⟨fun blocked => withFlags_of_blocked blocked overrides, ?_⟩
    intro free
    have arrives := update?_withFlags free someSet
    exact overriddenExactly_of_changedAt free (Json.changedAt_of_update? arrives)

/-- Flags whose pointer has escaped keys and an empty one, of which only the first
leads to anything. -/
def flagsToCreate : Record where
  value := .object [("a/b", .object [("level", .null)])]
  pointer := ⟨"/a~1b//~0", by decide⟩
  ordered := by simp [Ordered, Json.OrderedMembers, Ascending]

theorem overriding_creates_missing_objects :
    ¬ Blocked flagsToCreate.pointer.keys flagsToCreate.value ∧
    (∃ entries,
      (flagsToCreate.withFlags [("on", true), ("on", false)]).follow? ["a/b", "", "~"] =
          some (.object entries) ∧
        find? "on" entries = some (.bool false)) ∧
    ∃ child,
      (flagsToCreate.withFlags [("on", true), ("on", false)]).follow? ["a/b", ""] =
        some (.object [("~", child)]) := by
  have keys : flagsToCreate.pointer.keys = ["a/b", "", "~"] := by
    decide +kernel
  have free : ¬ Blocked flagsToCreate.pointer.keys flagsToCreate.value := by
    rw [← Json.update?_eq_none_iff id]
    decide +kernel
  have exactly :=
    ((overriding_is_exact_and_atomic flagsToCreate [("on", true), ("on", false)]).2
      (List.cons_ne_nil _ _)).2 free
  refine ⟨free, ?_, ?_⟩
  · obtain ⟨old, entries, -, stands, values⟩ := exactly.flags
    rw [keys] at stands
    exact ⟨entries, stands, values "on"⟩
  · exact exactly.created ["a/b", ""] "~" [] keys rfl

/-! ## Overriding again, in another order, and not at all -/

/-- Overriding a changed configuration again is overriding once with all. -/
theorem withFlags_overridden (record : Record) (first second : List Flag) :
    (record.overridden first).withFlags second = record.withFlags (first ++ second) := by
  by_cases blocked : Blocked record.pointer.keys record.value
  · have unchanged : record.overridden first = record := by
      simp [overridden, withFlags_of_blocked blocked]
    rw [unchanged, withFlags_of_blocked blocked, withFlags_of_blocked blocked]
  · by_cases noneFirst : first = []
    · subst noneFirst
      rfl
    · by_cases noneSecond : second = []
      · subst noneSecond
        rw [List.append_nil]
        rfl
      · have arrives := update?_withFlags blocked noneFirst
        have together : override second ∘ override first = override (first ++ second) := by
          funext members
          exact (override_append first second members).symm
        have again :
            update? (override second) record.pointer.keys (record.withFlags first) =
              some (record.withFlags (first ++ second)) := by
          rw [Json.update?_update? arrives, together]
          exact update?_withFlags blocked (List.append_ne_nil_of_left_ne_nil noneFirst second)
        rw [withFlags_of_ne_nil _ noneSecond]
        exact congrArg (·.getD (record.withFlags first)) again

theorem withFlags_perm
    (record : Record) {overrides others : List Flag}
    (distinct : (overrides.map Prod.fst).Nodup) (permuted : overrides.Perm others) :
    record.withFlags others = record.withFlags overrides := by
  by_cases noneSet : overrides = []
  · have noneOther : others = [] := by
      rw [noneSet] at permuted
      exact permuted.symm.eq_nil
    rw [noneSet, noneOther]
  · have someOther : others ≠ [] := by
      intro noneOther
      rw [noneOther] at permuted
      exact noneSet permuted.eq_nil
    have otherDistinct : (others.map Prod.fst).Nodup :=
      (permuted.map Prod.fst).nodup_iff.mp distinct
    have sameLast : ∀ name, lastSet? name others = lastSet? name overrides := by
      intro name
      apply Option.ext
      intro value
      rw [lastSet?_eq_some_iff otherDistinct, lastSet?_eq_some_iff distinct, permuted.mem_iff]
    have ascending := Json.ascending_membersAt record.ordered record.pointer.keys
    rw [withFlags_of_ne_nil record someOther, withFlags_of_ne_nil record noneSet,
      Json.update?_congr (override_congr sameLast ascending)]

/-- Setting listed flags to the values that they have changes nothing. -/
theorem withFlags_of_subset_flags
    (record : Record) {kept : List Flag} (areCurrent : kept ⊆ record.flags) :
    record.withFlags kept = record.value := by
  cases kept with
  | nil =>
      rfl
  | cons flag rest =>
      obtain ⟨members, holder, -⟩ := holder?_of_mem_flags (areCurrent List.mem_cons_self)
      have unchanged : override (flag :: rest) members = override [] members := by
        apply override_eq_self (ascending_of_holder? holder)
        intro other isKept
        exact find?_of_mem_flags holder (areCurrent isKept)
      rw [withFlags_congr holder unchanged]
      rfl

/-- Overrides compose and restore, whatever the pointer leads to.  Overriding the
record of a changed configuration is overriding the first one with both lists;
the order of overrides does not matter if their names are distinct; and listed
flags that are set to the values they have, all of them or some, give the
configuration back. -/
theorem overrides_compose_and_restore (record : Record) :
    (∀ first second : List Flag, ∃ changed,
      make (record.withFlags first) record.pointer.text = .ok changed ∧
        changed.withFlags second = record.withFlags (first ++ second)) ∧
    (∀ overrides others : List Flag, (overrides.map Prod.fst).Nodup → overrides.Perm others →
      record.withFlags others = record.withFlags overrides) ∧
    record.withFlags record.flags = record.value ∧
    (∀ kept : List Flag, kept ⊆ record.flags → record.withFlags kept = record.value) := by
  refine ⟨?_, ?_, ?_, ?_⟩
  · intro first second
    exact ⟨_, make_withFlags record first, withFlags_overridden record first second⟩
  · intro overrides others distinct permuted
    exact withFlags_perm record distinct permuted
  · exact withFlags_of_subset_flags record (List.Subset.refl _)
  · intro kept areCurrent
    exact withFlags_of_subset_flags record areCurrent

/-- Two flags that are created are set in either order, and a flag that stands in
an array is restored. -/
theorem created_flags_are_set_in_either_order :
    (["on", "off"] : List String).Nodup ∧
    flagsToCreate.withFlags [("off", false), ("on", true)] =
      flagsToCreate.withFlags [("on", true), ("off", false)] ∧
    [("inline", true)] ⊆ flagsInArray.flags ∧
    flagsInArray.withFlags [("inline", true)] = flagsInArray.value := by
  have distinct : (["on", "off"] : List String).Nodup := by
    decide
  have listed : [("inline", true)] ⊆ flagsInArray.flags := by
    decide +kernel
  obtain ⟨-, eitherOrder, -, -⟩ := overrides_compose_and_restore flagsToCreate
  obtain ⟨-, -, -, restores⟩ := overrides_compose_and_restore flagsInArray
  exact ⟨distinct, eitherOrder _ _ distinct (List.Perm.swap _ _ _), listed, restores _ listed⟩

end ShapeAudit.Config.Record
