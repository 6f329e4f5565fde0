import ShapeAudit.Config.Record
import ShapeAudit.Proofs.Json.Update

/-!
# Flags and their overrides

A flag that a record lists is a boolean member of the object at the record's
pointer.  Overriding it is seen by the next reading exactly when the pointer
leads through objects only: reading also goes through arrays, overriding does
not, and a record whose pointer leads through an array keeps its value.
-/

namespace ShapeAudit.Config.Record

open Json (Ordered Ascending OrderedItems OrderedMembers find? follow? update? passesObjects)

/-! ## Listed flags -/

theorem mem_flags_iff
    (record : Record) (name : String) (value : Bool) :
    (name, value) ∈ record.flags ↔
      ∃ members, record.holder? = some (.object members) ∧
        (name, Json.bool value) ∈ members := by
  unfold flags
  constructor
  · intro listed
    cases holder : record.holder? with
    | none =>
        simp [holder] at listed
    | some held =>
        cases held with
        | object members =>
            refine ⟨members, rfl, ?_⟩
            simp only [holder, Option.bind_some, Json.asObject?, Option.getD_some,
              List.mem_filterMap] at listed
            obtain ⟨⟨key, stored⟩, isMember, isFlag⟩ := listed
            cases stored <;> simp [asFlag?, Json.asBool?] at isFlag
            obtain ⟨rfl, rfl⟩ := isFlag
            exact isMember
        | null | bool _ | number _ | text _ | array _ =>
            simp [holder, Json.asObject?] at listed
  · rintro ⟨members, holder, isMember⟩
    simp only [holder, Option.bind_some, Json.asObject?, Option.getD_some,
      List.mem_filterMap]
    exact ⟨(name, .bool value), isMember, by simp [asFlag?, Json.asBool?]⟩

theorem ascending_of_holder?
    {record : Record} {members : List (String × Json)}
    (holder : record.holder? = some (.object members)) :
    Ascending members := by
  have heldOrdered : Ordered (.object members) :=
    Json.ordered_of_follow? record.ordered holder
  rw [Ordered] at heldOrdered
  exact heldOrdered.1

/-- Where a listed flag stands. -/
theorem holder?_of_mem_flags
    {record : Record} {name : String} {value : Bool}
    (listed : (name, value) ∈ record.flags) :
    ∃ members, record.holder? = some (.object members) ∧
      find? name members = some (.bool value) := by
  obtain ⟨members, holder, isMember⟩ := (mem_flags_iff record name value).mp listed
  exact ⟨members, holder,
    Json.find?_of_mem (ascending_of_holder? holder) isMember⟩

/-- All listed flags stand among the same members. -/
theorem find?_of_mem_flags
    {record : Record} {members : List (String × Json)}
    (holder : record.holder? = some (.object members))
    {name : String} {value : Bool} (listed : (name, value) ∈ record.flags) :
    find? name members = some (.bool value) := by
  obtain ⟨others, otherHolder, found⟩ := holder?_of_mem_flags listed
  have sameMembers : others = members := by
    simpa [holder] using otherHolder.symm
  rwa [← sameMembers]

theorem flag?_of_holder?
    {record : Record} {members : List (String × Json)}
    (holder : record.holder? = some (.object members)) (name : String) :
    record.flag? name = (find? name members).bind Json.asBool? := by
  simp [flag?, holder, Json.get?]

theorem flag?_of_mem_flags
    {record : Record} {name : String} {value : Bool}
    (listed : (name, value) ∈ record.flags) :
    record.flag? name = some value := by
  obtain ⟨members, holder, found⟩ := holder?_of_mem_flags listed
  simp [flag?_of_holder? holder, found, Json.asBool?]

/-- Flags are listed in increasing order of their names. -/
theorem flags_ascending (record : Record) :
    record.flags.Pairwise fun earlier later =>
      Text.lessThan earlier.1 later.1 = true := by
  unfold flags
  cases holder : record.holder? with
  | none =>
      simp
  | some held =>
      cases held with
      | object members =>
          apply List.Pairwise.filterMap _ _ (ascending_of_holder? holder)
          intro earlier later below first isFirst second isSecond
          cases storedFirst : earlier.2 <;>
            simp [asFlag?, Json.asBool?, storedFirst] at isFirst
          cases storedSecond : later.2 <;>
            simp [asFlag?, Json.asBool?, storedSecond] at isSecond
          rwa [← isFirst, ← isSecond]
      | null | bool _ | number _ | text _ | array _ =>
          simp [Json.asObject?]

/-! ## Overriding members -/

@[simp]
theorem override_cons
    (flag : Flag) (overrides : List Flag) (members : List (String × Json)) :
    override (flag :: overrides) members =
      override overrides (Json.insert flag.1 (.bool flag.2) members) := by
  rfl

theorem override_append
    (before after : List Flag) (members : List (String × Json)) :
    override (before ++ after) members = override after (override before members) := by
  simp [override, List.foldl_append]

theorem find?_override_of_forall_ne
    {name : String} {overrides : List Flag}
    (untouched : ∀ flag ∈ overrides, flag.1 ≠ name)
    (members : List (String × Json)) :
    find? name (override overrides members) = find? name members := by
  induction overrides generalizing members with
  | nil =>
      rfl
  | cons flag rest inductionHypothesis =>
      have flagDifferent : flag.1 ≠ name :=
        untouched flag List.mem_cons_self
      have restUntouched : ∀ flag ∈ rest, flag.1 ≠ name :=
        fun other inRest => untouched other (List.mem_cons_of_mem flag inRest)
      rw [override_cons, inductionHypothesis restUntouched,
        Json.find?_insert_of_ne flagDifferent.symm]

/-- The last override of a name decides its value. -/
theorem find?_override_last
    {name : String} {value : Bool} {before after : List Flag}
    (last : ∀ flag ∈ after, flag.1 ≠ name)
    (members : List (String × Json)) :
    find? name (override (before ++ (name, value) :: after) members) =
      some (.bool value) := by
  rw [override_append, override_cons, find?_override_of_forall_ne last,
    Json.find?_insert_self]

theorem ordered_override
    (overrides : List Flag) (members : List (String × Json))
    (membersOrdered : Ordered (.object members)) :
    Ordered (.object (override overrides members)) := by
  induction overrides generalizing members with
  | nil =>
      exact membersOrdered
  | cons flag rest inductionHypothesis =>
      rw [Ordered] at membersOrdered
      apply inductionHypothesis
      exact ⟨Json.ascending_insert membersOrdered.1 flag.1 _,
        Json.orderedMembers_insert (by simp [Ordered]) membersOrdered.2 flag.1⟩

/-! ## Overriding a record -/

theorem ordered_withFlags (record : Record) (overrides : List Flag) :
    Ordered (record.withFlags overrides) := by
  unfold withFlags
  split
  · exact record.ordered
  · cases updated : update? (override overrides) record.pointer.keys record.value with
    | none =>
        exact record.ordered
    | some value =>
        exact Json.ordered_update? (ordered_override overrides) record.ordered updated

/-- The record of the changed configuration, with the same pointer. -/
def overridden (record : Record) (overrides : List Flag) : Record where
  value := record.withFlags overrides
  pointer := record.pointer
  ordered := record.ordered_withFlags overrides

theorem make_withFlags (record : Record) (overrides : List Flag) :
    make (record.withFlags overrides) record.pointer.text =
      .ok (record.overridden overrides) := by
  have pointerRead :
      Json.Pointer.ofText? record.pointer.text = some record.pointer := by
    simp [Json.Pointer.ofText?, record.pointer.rooted]
  simp [make, pointerRead, overridden,
    Json.arrange_eq_self (record.ordered_withFlags overrides)]

/-- Where there is an object of flags, no override is the override by nothing. -/
theorem withFlags_of_holder?
    {record : Record} {members : List (String × Json)}
    (holder : record.holder? = some (.object members)) (overrides : List Flag) :
    record.withFlags overrides =
      (update? (override overrides) record.pointer.keys record.value).getD
        record.value := by
  cases overrides with
  | nil =>
      change record.value =
        (update? id record.pointer.keys record.value).getD record.value
      cases updates : update? id record.pointer.keys record.value with
      | none =>
          rfl
      | some updated =>
          exact (Json.update?_unchanged record.ordered holder updates).symm
  | cons flag rest =>
      rfl

/-- Overrides that do the same to the members give the same configuration. -/
theorem withFlags_congr
    {record : Record} {members : List (String × Json)}
    (holder : record.holder? = some (.object members))
    {overrides others : List Flag}
    (agree : override overrides members = override others members) :
    record.withFlags overrides = record.withFlags others := by
  have reached : Json.membersAt record.pointer.keys record.value = members :=
    Json.membersAt_of_follow? holder
  rw [withFlags_of_holder? holder, withFlags_of_holder? holder,
    Json.update?_congr (by rw [reached, agree])]

/-! ## Reading an overridden flag -/

/-- An override along a pointer that meets something other than an object is
lost. -/
theorem withFlags_of_not_passesObjects
    {record : Record}
    (blocked : passesObjects record.pointer.keys record.value = false)
    (overrides : List Flag) :
    record.withFlags overrides = record.value := by
  unfold withFlags
  split
  · rfl
  · rw [Json.update?_of_not_passesObjects _ blocked, Option.getD_none]

theorem holder?_overridden
    {record : Record} {members : List (String × Json)}
    (passes : passesObjects record.pointer.keys record.value = true)
    (holder : record.holder? = some (.object members)) (overrides : List Flag) :
    (record.overridden overrides).holder? =
      some (.object (override overrides members)) := by
  obtain ⟨updated, updates, follows⟩ :=
    Json.exists_update?_of_passesObjects (override overrides) passes holder
  have valueUpdated : (record.overridden overrides).value = updated := by
    change record.withFlags overrides = updated
    rw [withFlags_of_holder? holder, updates, Option.getD_some]
  rw [holder?, valueUpdated]
  exact follows

/-- A listed flag reads as its last override exactly when the pointer meets
only objects or the override is the current value. -/
theorem flag?_overridden_iff
    {record : Record} {name : String} {current : Bool}
    (listed : (name, current) ∈ record.flags)
    (value : Bool) (before : List Flag) {after : List Flag}
    (last : ∀ flag ∈ after, flag.1 ≠ name) :
    (record.overridden (before ++ (name, value) :: after)).flag? name = some value ↔
      passesObjects record.pointer.keys record.value = true ∨ value = current := by
  obtain ⟨members, holder, _⟩ := holder?_of_mem_flags listed
  cases passes : passesObjects record.pointer.keys record.value with
  | true =>
      have changed :=
        flag?_of_holder?
          (holder?_overridden passes holder (before ++ (name, value) :: after)) name
      rw [find?_override_last last] at changed
      simp [changed, Json.asBool?]
  | false =>
      have unchanged :
          (record.overridden (before ++ (name, value) :: after)).flag? name =
            record.flag? name := by
        simp [flag?, holder?, overridden, withFlags_of_not_passesObjects passes]
      rw [unchanged, flag?_of_mem_flags listed]
      simp [eq_comm]

/-- What overriding a listed flag does.  If the pointer meets only objects, the
new record reads the flag as it was set, whichever other flags are set with it.
If not, every override is lost and the record stays the same, so the flag reads
as it was set only where it had that value before. -/
theorem listed_flag_reads_as_set_iff
    (record : Record) {name : String} {current : Bool}
    (listed : (name, current) ∈ record.flags) (value : Bool) :
    (∃ changed,
      make (record.withFlag name value) record.pointer.text = .ok changed ∧
        (changed.flag? name = some value ↔
          passesObjects record.pointer.keys record.value = true ∨ value = current)) ∧
      (∀ before after : List Flag, (∀ flag ∈ after, flag.1 ≠ name) →
        ∃ changed,
          make (record.withFlags (before ++ (name, value) :: after))
              record.pointer.text = .ok changed ∧
            (changed.flag? name = some value ↔
              passesObjects record.pointer.keys record.value = true ∨
                value = current)) ∧
      (passesObjects record.pointer.keys record.value = false →
        ∀ overrides : List Flag,
          make (record.withFlags overrides) record.pointer.text = .ok record) := by
  refine ⟨?_, ?_, ?_⟩
  · refine ⟨record.overridden [(name, value)], make_withFlags record _, ?_⟩
    exact flag?_overridden_iff listed value [] (by simp)
  · intro before after last
    exact ⟨_, make_withFlags record _, flag?_overridden_iff listed value before last⟩
  · intro blocked overrides
    rw [make_withFlags]
    simp [overridden, withFlags_of_not_passesObjects blocked]

/-- Flags in an object below an object. -/
def flagsInObject : Record where
  value := .object [("compress", .object [("inline", .bool true)])]
  pointer := ⟨"/compress", by decide⟩
  ordered := by simp [Ordered, OrderedMembers, Ascending]

theorem flag_in_object_reads_as_set :
    ("inline", true) ∈ flagsInObject.flags ∧
      ∃ changed,
        make (flagsInObject.withFlag "inline" false) flagsInObject.pointer.text =
            .ok changed ∧
          changed.flag? "inline" = some false := by
  have listed : ("inline", true) ∈ flagsInObject.flags := by
    decide +kernel
  obtain ⟨changed, made, readsIff⟩ :=
    (listed_flag_reads_as_set_iff flagsInObject listed false).1
  exact ⟨listed, changed, made, readsIff.mpr (Or.inl (by decide +kernel))⟩

/-- Flags in an object that is an item of an array. -/
def flagsInArray : Record where
  value := .object [("stages", .array [.object [("inline", .bool true)]])]
  pointer := ⟨"/stages/0", by decide⟩
  ordered := by simp [Ordered, OrderedItems, OrderedMembers, Ascending]

/-- A flag can be listed and yet keep its value when it is set. -/
theorem flag_in_array_keeps_value :
    ("inline", true) ∈ flagsInArray.flags ∧
      ∃ changed,
        make (flagsInArray.withFlag "inline" false) flagsInArray.pointer.text =
            .ok changed ∧
          changed.flag? "inline" = some true := by
  refine ⟨by decide +kernel, flagsInArray.overridden [("inline", false)], ?_, ?_⟩
  · exact make_withFlags flagsInArray [("inline", false)]
  · decide +kernel

end ShapeAudit.Config.Record
