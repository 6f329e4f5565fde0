import ShapeAudit.Proofs.Config.Override
import ShapeAudit.Proofs.Search.Mask
import ShapeAudit.Proofs.Search.Probe

/-!
# The search over all assignments

The search overrides all candidates at once, from the bits of a word.  That
gives the same configuration as overriding only the candidates that change,
because a flag that is set to its own value leaves an ordered object as it is.
So the search decides every set of candidates once, in the order of the words,
and reports those whose turning alters the output.
-/

namespace ShapeAudit.Search

open Config (Flag Record)

/-! ## Sets of names -/

private theorem insertName_after_all
    {names : List String} {name : String}
    (allBelow : ∀ earlier ∈ names, Text.lessThan earlier name = true) :
    insertName name names = names ++ [name] := by
  induction names with
  | nil =>
      rfl
  | cons head rest inductionHypothesis =>
      have headBelow : Text.lessThan head name = true :=
        allBelow head List.mem_cons_self
      have restInserted :=
        inductionHypothesis fun earlier inRest =>
          allBelow earlier (List.mem_cons_of_mem head inRest)
      simp [insertName, Text.ne_of_lessThan headBelow,
        Text.lessThan_asymm headBelow, restInserted]

private theorem foldl_insertName_ascending
    (names kept : List String)
    (ascending : (kept ++ names).Pairwise fun earlier later =>
      Text.lessThan earlier later = true) :
    names.foldl (fun kept name => insertName name kept) kept = kept ++ names := by
  induction names generalizing kept with
  | nil =>
      simp
  | cons name rest inductionHypothesis =>
      have keptBelow : ∀ earlier ∈ kept, Text.lessThan earlier name = true := by
        intro earlier isEarlier
        exact (List.pairwise_append.mp ascending).2.2
          earlier isEarlier name List.mem_cons_self
      rw [List.foldl_cons, insertName_after_all keptBelow]
      have regrouped : kept ++ [name] ++ rest = kept ++ name :: rest := by
        simp
      rw [inductionHypothesis (kept ++ [name]) (by rwa [regrouped]), regrouped]

/-- Names in increasing order are a set as they stand. -/
theorem nameSet_of_ascending
    {names : List String}
    (ascending : names.Pairwise fun earlier later =>
      Text.lessThan earlier later = true) :
    nameSet names = names :=
  foldl_insertName_ascending names [] ascending

/-! ## Candidates -/

theorem candidates_ascending (record : Record) (options : Options) :
    ((candidates record options).map Prod.fst).Pairwise fun earlier later =>
      Text.lessThan earlier later = true := by
  rw [List.pairwise_map]
  exact List.Pairwise.filter _ record.flags_ascending

theorem candidates_distinct (record : Record) (options : Options) :
    ((candidates record options).map Prod.fst).Nodup :=
  (candidates_ascending record options).imp Text.ne_of_lessThan

theorem mem_flags_of_mem_candidates
    {record : Record} {options : Options} {flag : Flag}
    (isCandidate : flag ∈ candidates record options) :
    flag ∈ record.flags :=
  (List.mem_filter.mp isCandidate).1

theorem listing_ascending
    (record : Record) (options : Options) (names : Finset String) :
    (listing (candidates record options) names).Pairwise fun earlier later =>
      Text.lessThan earlier later = true :=
  List.Pairwise.filter _ (candidates_ascending record options)

/-! ## Overriding all candidates and overriding those that change -/

/-- A flag that is set to its own value leaves the members as they are, so only
the flags that are turned count.  The induction keeps that the flags still to
come stand among the members. -/
theorem override_assigned
    (names : Finset String) :
    ∀ (flags : List Flag) (members : List (String × Json)),
      Json.Ascending members →
      (flags.map Prod.fst).Nodup →
      (∀ flag ∈ flags, Json.find? flag.1 members = some (.bool flag.2)) →
      Record.override (assigned flags names) members =
        Record.override (turned flags names) members
  | [], members, _, _, _ => rfl
  | flag :: rest, members, ascending, distinct, present => by
      obtain ⟨flagNotInRest, restDistinct⟩ := List.nodup_cons.mp distinct
      by_cases isMember : flag.1 ∈ names
      · have stillPresent :
            ∀ other ∈ rest,
              Json.find? other.1 (Json.insert flag.1 (.bool !flag.2) members) =
                some (.bool other.2) := by
          intro other inRest
          have different : other.1 ≠ flag.1 := by
            intro equal
            exact flagNotInRest (equal ▸ List.mem_map_of_mem inRest)
          rw [Json.find?_insert_of_ne different]
          exact present other (List.mem_cons_of_mem flag inRest)
        have restEqual :=
          override_assigned names rest _
            (Json.ascending_insert ascending flag.1 (.bool !flag.2))
            restDistinct stillPresent
        simpa [assigned, turned, isMember, valueAfter_of_mem isMember] using restEqual
      · have flagKept : Json.insert flag.1 (.bool flag.2) members = members :=
          Json.insert_eq_self ascending (present flag List.mem_cons_self)
        have restEqual :=
          override_assigned names rest members ascending restDistinct
            fun other inRest => present other (List.mem_cons_of_mem flag inRest)
        simpa [assigned, turned, isMember, valueAfter_of_not_mem isMember,
          flagKept] using restEqual

/-- Both ways to turn a set of candidates give the same configuration. -/
theorem withFlags_assigned
    (record : Record) (options : Options) (names : Finset String) :
    record.withFlags (assigned (candidates record options) names) =
      record.withFlags (turned (candidates record options) names) := by
  cases listed : candidates record options with
  | nil =>
      rfl
  | cons first rest =>
      rw [← listed]
      have firstCandidate : first ∈ candidates record options := by
        simp [listed]
      obtain ⟨members, holder, _⟩ :=
        Record.holder?_of_mem_flags (mem_flags_of_mem_candidates firstCandidate)
      apply Record.withFlags_congr holder
      apply override_assigned names _ members (Record.ascending_of_holder? holder)
        (candidates_distinct record options)
      intro flag isCandidate
      exact Record.find?_of_mem_flags holder (mem_flags_of_mem_candidates isCandidate)

/-! ## The plan -/

/-- The plan has one probe for every set of candidates, in the order of the
words, and each probe turns the flags of its set. -/
theorem powerSetPlan_eq
    (record : Record) (options : Options)
    (small : (candidates record options).length ≤ 63) :
    powerSetPlan record (candidates record options) =
      (subsetsInOrder (candidates record options)).map fun names =>
        (listing (candidates record options) names,
          record.withFlags (turned (candidates record options) names)) := by
  rw [powerSetPlan, masks_eq small, subsetsInOrder, List.map_map, List.map_map]
  apply List.map_congr_left
  intro number inRange
  have assignedEqual :=
    assignment_eq_assigned (candidates_distinct record options) small
      (List.mem_range.mp inRange)
  simp only [Function.comp_apply, assignmentProbe, assignedEqual, differing_assigned,
    nameSet_of_ascending (listing_ascending record options _), withFlags_assigned]

/-- The configuration with nothing turned is the configuration as given. -/
theorem withFlags_turned_empty (record : Record) (flags : List Flag) :
    record.withFlags (turned flags ∅) = record.value := by
  simp [turned, Record.withFlags]

/-! ## Sets that alter the output -/

/-- The sets of flags whose turning alters the output, in the order of the
words. -/
def alteringSubsets
    (answer : String → Json → Except Transform.Fault String)
    (code expected : String) (record : Record) (flags : List Flag) :
    List (Finset String) :=
  (subsetsInOrder flags).filter fun names =>
    alters expected (answer code (record.withFlags (turned flags names)))

section Altering

variable {answer : String → Json → Except Transform.Fault String}
  {code expected : String} {record : Record} {flags : List Flag}

theorem alteringSubsets_sublist :
    (alteringSubsets answer code expected record flags).Sublist
      (subsetsInOrder flags) :=
  List.filter_sublist

theorem mem_alteringSubsets
    (distinct : (flags.map Prod.fst).Nodup) (names : Finset String) :
    names ∈ alteringSubsets answer code expected record flags ↔
      names ⊆ nameFinset flags ∧
        ∃ changed,
          answer code (record.withFlags (turned flags names)) = .ok changed ∧
            Text.trim changed ≠ expected := by
  rw [alteringSubsets, List.mem_filter, mem_subsetsInOrder distinct, alters_iff]

theorem alteringSubsets_nodup
    (distinct : (flags.map Prod.fst).Nodup) :
    (alteringSubsets answer code expected record flags).Nodup := by
  have orderNodup : (subsetsInOrder flags).Nodup :=
    (subsetsInOrder_ascending distinct).imp fun below equal =>
      absurd below (by simp [equal])
  exact orderNodup.sublist alteringSubsets_sublist

/-- Turning nothing gives the baseline again. -/
theorem empty_not_mem_alteringSubsets
    (distinct : (flags.map Prod.fst).Nodup)
    {output : String} (baselineOutput : answer code record.value = .ok output) :
    ∅ ∉ alteringSubsets answer code (Text.trim output) record flags := by
  intro isMember
  obtain ⟨-, changed, answered, different⟩ := (mem_alteringSubsets distinct ∅).mp isMember
  rw [withFlags_turned_empty, baselineOutput] at answered
  cases answered
  exact different rfl

/-- Listing a set and forgetting the order again gives the set back. -/
theorem listing_alteringSubsets
    (distinct : (flags.map Prod.fst).Nodup) :
    ((alteringSubsets answer code expected record flags).map (listing flags)).map
        List.toFinset =
      alteringSubsets answer code expected record flags := by
  have listedBack :
      ∀ names ∈ alteringSubsets answer code expected record flags,
        (List.toFinset ∘ listing flags) names = id names := by
    intro names isMember
    exact listing_toFinset ((mem_alteringSubsets distinct names).mp isMember).1
  rw [List.map_map, List.map_congr_left listedBack, List.map_id]

end Altering

/-! ## Every set is decided once -/

section Answered

variable {σ : Type} {transformer : Transformer σ}
  {answer : String → Json → Except Transform.Fault String}
  (answers : transformer.Answers answer)

include answers

/-- The probes of all assignments, as a run over the sets of candidates. -/
theorem probeAll_powerSetPlan
    {record : Record} {options : Options}
    (small : (candidates record options).length ≤ 63)
    (code expected : String) (state : σ) :
    probeAll transformer code expected
        (powerSetPlan record (candidates record options)) state =
      ((alteringSubsets answer code expected record (candidates record options)).map
          (listing (candidates record options)),
        transformer.visit code
          ((subsetsInOrder (candidates record options)).map fun names =>
            record.withFlags (turned (candidates record options) names)) state) := by
  rw [powerSetPlan_eq record options small, probeAll_map answers, alteringSubsets]

/-- The search over all assignments, as a run over the sets of candidates. -/
theorem find_powerSet_eq
    {code : String} {record : Record} {options : Options}
    (allAssignments : options.strategy = .powerSet)
    (withinLimit : (candidates record options).length ≤ min options.maxFlags hardLimit)
    {output : String} (baselineOutput : answer code record.value = .ok output)
    (state : σ) :
    find transformer code record options state =
      (.ok (.powerSet
        ((alteringSubsets answer code (Text.trim output) record
            (candidates record options)).map
          (listing (candidates record options)))),
        transformer.visit code
          (record.value :: (subsetsInOrder (candidates record options)).map fun names =>
            record.withFlags (turned (candidates record options) names)) state) := by
  have small : (candidates record options).length ≤ 63 := by
    have limited : min options.maxFlags hardLimit ≤ 63 := Nat.min_le_right _ _
    omega
  rw [find_eq_runPlan answers withinLimit baselineOutput, allAssignments]
  simp only [runPlan, probeAll_powerSetPlan answers small, Transformer.visit_cons]

end Answered

/-- The search over all assignments, for a transformer that answers by a
function, with at most `min maxFlags 63` candidates and a baseline.  There is an
order of all sets of candidates, increasing in the number whose bit `j` is the
value of candidate `j` once the set is turned, such that the transformer is
called once for the baseline and once for each set in that order.  The result
holds, in that order and without repetition, exactly the sets of candidates
whose turning gives an output other than the baseline.  The empty set is never
among them. -/
theorem find_powerSet_decides_each_subset_once
    {σ : Type} {transformer : Transformer σ}
    {answer : String → Json → Except Transform.Fault String}
    (answers : transformer.Answers answer)
    (code : String) (record : Record) (options : Options)
    (allAssignments : options.strategy = .powerSet)
    (withinLimit : (candidates record options).length ≤ min options.maxFlags 63)
    {output : String} (baselineOutput : answer code record.value = .ok output)
    (state : σ) :
    ∃ (sets : List (List String)) (order : List (Finset String)),
      (find transformer code record options state).1 = .ok (.powerSet sets) ∧
      (sets.map List.toFinset).Nodup ∧
      (∀ set ∈ sets, set.Pairwise fun earlier later =>
        Text.lessThan earlier later = true) ∧
      (∀ names : Finset String,
        names ∈ sets.map List.toFinset ↔
          names ⊆ nameFinset (candidates record options) ∧
            ∃ changed,
              answer code (record.withFlags
                (turned (candidates record options) names)) = .ok changed ∧
              Text.trim changed ≠ Text.trim output) ∧
      ∅ ∉ sets.map List.toFinset ∧
      (∀ names : Finset String,
        names ∈ order ↔ names ⊆ nameFinset (candidates record options)) ∧
      (order.Pairwise fun earlier later =>
        maskOf (candidates record options) earlier <
          maskOf (candidates record options) later) ∧
      (sets.map List.toFinset).Sublist order ∧
      (find transformer code record options state).2 =
        transformer.visit code
          (record.value :: order.map fun names =>
            record.withFlags (turned (candidates record options) names)) state := by
  have found :=
    find_powerSet_eq answers allAssignments withinLimit baselineOutput state
  have distinct := candidates_distinct record options
  have sorted := listing_ascending record options
  generalize candidates record options = flags at *
  refine ⟨(alteringSubsets answer code (Text.trim output) record flags).map
    (listing flags), subsetsInOrder flags, ?_⟩
  rw [found, listing_alteringSubsets distinct]
  refine ⟨rfl, alteringSubsets_nodup distinct, ?_, mem_alteringSubsets distinct,
    empty_not_mem_alteringSubsets distinct baselineOutput,
    mem_subsetsInOrder distinct, subsetsInOrder_ascending distinct,
    alteringSubsets_sublist, rfl⟩
  intro set isReported
  obtain ⟨names, -, rfl⟩ := List.mem_map.mp isReported
  exact sorted names

/-- Two flags of which the first is on and the second off. -/
def twoFlags : Record where
  value := .object [("first", .bool true), ("second", .bool false)]
  pointer := ⟨"", by decide⟩
  ordered := by
    have below : Text.lessThan "first" "second" = true := by
      decide +kernel
    simp [Json.Ordered, Json.OrderedMembers, Json.Ascending, below]

/-- Gives another output only when the first flag is off and the second on. -/
def answerToBoth (code : String) (config : Json) : Except Transform.Fault String :=
  if (config.get? "first").bind Json.asBool? = some false ∧
      (config.get? "second").bind Json.asBool? = some true then .ok "altered"
  else .ok code

/-- Both flags together are reported, and the first alone is not. -/
theorem find_powerSet_reports_both_flags :
    ∃ sets,
      (find (Transformer.ofFunction "pair" answerToBoth) "plain" twoFlags
        { strategy := .powerSet } ()).1 = .ok (.powerSet sets) ∧
      ["first", "second"].toFinset ∈ sets.map List.toFinset ∧
      ["first"].toFinset ∉ sets.map List.toFinset := by
  have baselineOutput : answerToBoth "plain" twoFlags.value = .ok "plain" := by
    decide +kernel
  obtain ⟨sets, -, found, -, -, reportedIff, -⟩ :=
    find_powerSet_decides_each_subset_once
      (Transformer.ofFunction_answers "pair" answerToBoth) "plain" twoFlags
      { strategy := .powerSet } rfl (by decide +kernel) baselineOutput ()
  refine ⟨sets, found, ?_, ?_⟩
  · apply (reportedIff _).mpr
    exact ⟨by decide +kernel, "altered", by decide +kernel, by decide +kernel⟩
  · intro isReported
    obtain ⟨-, changed, answered, different⟩ := (reportedIff _).mp isReported
    have kept :
        answerToBoth "plain" (twoFlags.withFlags
          (turned (candidates twoFlags { strategy := .powerSet }) ["first"].toFinset)) =
          .ok "plain" := by
      decide +kernel
    rw [kept] at answered
    cases answered
    exact different rfl

end ShapeAudit.Search
