import Mathlib.Data.List.Sort
import ShapeAudit.Proofs.Search.Strategies

/-!
# Leaving flags out of a search

The numbers of a search with fewer flags are shorter, and a flag can stand in
another place in them.  Among the sets without the flags left out, the shorter
numbers are in the same order as the longer ones, because the bits of the flags
left out are the same in all of them.  So a search without some flags finds what
the search with them finds, less the entries in which one of these flags occurs.
-/

namespace ShapeAudit.Search

open Config (Flag Record)

/-- A result less the entries that name an unsafe flag. -/
def Triggered.withoutUnsafe : Triggered → Triggered
  | .linear names => .linear (names.filter fun name => !isUnsafe name)
  | .powerSet sets => .powerSet (sets.filter fun set => !set.any isUnsafe)

theorem Triggered.withoutUnsafe_empty (strategy : Strategy) :
    (Triggered.empty strategy).withoutUnsafe = .empty strategy := by
  cases strategy <;> rfl

/-! ## The order of the sets -/

theorem maskOf_cons (flag : Flag) (rest : List Flag) (names : Finset String) :
    maskOf (flag :: rest) names = 2 * maskOf rest names + (valueAfter names flag).toNat :=
  Nat.ofBits_succ fun place => valueAfter names ((flag :: rest).get place)

/-- The order of sets by the numbers that turning them gives. -/
def Precedes (flags : List Flag) (first second : Finset String) : Prop :=
  maskOf flags first < maskOf flags second

instance (flags : List Flag) : Std.Irrefl (Precedes flags) :=
  ⟨fun _ => Nat.lt_irrefl _⟩

instance (flags : List Flag) : Std.Antisymm (Precedes flags) :=
  ⟨fun _ _ below above => absurd above (Nat.lt_asymm below)⟩

/-- The flags that are not left out. -/
def remaining (leftOut : String → Bool) (flags : List Flag) : List Flag :=
  flags.filter fun flag => !leftOut flag.1

variable {leftOut : String → Bool} {flags : List Flag}

/-- Bits that two sets agree on can be left out of a comparison of their numbers. -/
theorem maskOf_remaining_lt_iff
    {first second : Finset String}
    (agree : ∀ flag ∈ flags, leftOut flag.1 = true →
      valueAfter first flag = valueAfter second flag) :
    maskOf (remaining leftOut flags) first < maskOf (remaining leftOut flags) second ↔
      maskOf flags first < maskOf flags second := by
  induction flags generalizing first second with
  | nil =>
      rfl
  | cons flag rest inductionHypothesis =>
      have agreeLater :
          ∀ other ∈ rest, leftOut other.1 = true →
            valueAfter first other = valueAfter second other := by
        intro other inRest
        exact agree other (List.mem_cons_of_mem flag inRest)
      have below := inductionHypothesis agreeLater
      rw [maskOf_cons, maskOf_cons]
      cases isLeftOut : leftOut flag.1 with
      | true =>
          have sameBit := agree flag List.mem_cons_self isLeftOut
          have shorter : remaining leftOut (flag :: rest) = remaining leftOut rest := by
            simp [remaining, isLeftOut]
          rw [shorter, below, sameBit]
          omega
      | false =>
          have above := inductionHypothesis fun other inRest out =>
            (agreeLater other inRest out).symm
          have longer : remaining leftOut (flag :: rest) = flag :: remaining leftOut rest := by
            simp [remaining, isLeftOut]
          rw [longer, maskOf_cons, maskOf_cons]
          have firstBit := Bool.toNat_le (valueAfter first flag)
          have secondBit := Bool.toNat_le (valueAfter second flag)
          omega

/-- Whether a set names no flag that is left out. -/
def avoids (leftOut : String → Bool) (names : Finset String) : Prop :=
  ∀ name ∈ names, leftOut name = false

instance (leftOut : String → Bool) (names : Finset String) : Decidable (avoids leftOut names) :=
  inferInstanceAs (Decidable (∀ name ∈ names, leftOut name = false))

theorem subset_nameFinset_remaining (names : Finset String) :
    names ⊆ nameFinset (remaining leftOut flags) ↔
      names ⊆ nameFinset flags ∧ avoids leftOut names := by
  have memberIff : ∀ name, name ∈ nameFinset (remaining leftOut flags) ↔
      name ∈ nameFinset flags ∧ leftOut name = false := by
    intro name
    simp [mem_nameFinset, remaining]
  constructor
  · intro isSubset
    exact ⟨fun name isMember => ((memberIff name).mp (isSubset isMember)).1,
      fun name isMember => ((memberIff name).mp (isSubset isMember)).2⟩
  · rintro ⟨isSubset, avoided⟩ name isMember
    exact (memberIff name).mpr ⟨isSubset isMember, avoided name isMember⟩

theorem valueAfter_of_avoids
    {names : Finset String} (avoided : avoids leftOut names) {flag : Flag}
    (isLeftOut : leftOut flag.1 = true) :
    valueAfter names flag = flag.2 := by
  apply valueAfter_of_not_mem
  intro isMember
  have notLeftOut := avoided flag.1 isMember
  rw [isLeftOut] at notLeftOut
  cases notLeftOut

theorem remaining_distinct (distinct : (flags.map Prod.fst).Nodup) :
    ((remaining leftOut flags).map Prod.fst).Nodup :=
  distinct.sublist (List.filter_sublist.map Prod.fst)

/-- The sets of fewer flags are the sets that avoid the others, in the same order. -/
theorem subsetsInOrder_remaining (distinct : (flags.map Prod.fst).Nodup) :
    subsetsInOrder (remaining leftOut flags) =
      (subsetsInOrder flags).filter fun names => avoids leftOut names := by
  have remainingDistinct : ((remaining leftOut flags).map Prod.fst).Nodup :=
    remaining_distinct distinct
  have shortInOrder : (subsetsInOrder (remaining leftOut flags)).Pairwise (Precedes flags) := by
    apply List.Pairwise.imp_of_mem _ (subsetsInOrder_ascending remainingDistinct)
    intro first second firstListed secondListed below
    rw [mem_subsetsInOrder remainingDistinct, subset_nameFinset_remaining] at firstListed
    rw [mem_subsetsInOrder remainingDistinct, subset_nameFinset_remaining] at secondListed
    apply (maskOf_remaining_lt_iff _).mp below
    intro flag _ isLeftOut
    rw [valueAfter_of_avoids firstListed.2 isLeftOut,
      valueAfter_of_avoids secondListed.2 isLeftOut]
  have longInOrder :
      ((subsetsInOrder flags).filter fun names => avoids leftOut names).Pairwise
        (Precedes flags) :=
    (subsetsInOrder_ascending distinct).filter _
  -- Both lists are in the order of all flags, so it is enough that their members are the same.
  apply shortInOrder.eq_of_mem_iff longInOrder
  intro names
  rw [mem_subsetsInOrder remainingDistinct, subset_nameFinset_remaining, List.mem_filter,
    mem_subsetsInOrder distinct, decide_eq_true_eq]

/-! ## What is found -/

/-- Both lists of flags name a set that avoids the flags left out in the same way. -/
theorem filter_remaining
    {names : Finset String} (avoided : avoids leftOut names) :
    (remaining leftOut flags).filter (fun flag => flag.1 ∈ names) =
      flags.filter fun flag => flag.1 ∈ names := by
  rw [remaining, List.filter_filter]
  apply List.filter_congr
  intro flag _
  by_cases isMember : flag.1 ∈ names
  · simp [isMember, avoided flag.1 isMember]
  · simp [isMember]

theorem turned_remaining
    {names : Finset String} (avoided : avoids leftOut names) :
    turned (remaining leftOut flags) names = turned flags names := by
  rw [turned, turned, filter_remaining avoided]

theorem listing_remaining
    {names : Finset String} (avoided : avoids leftOut names) :
    listing (remaining leftOut flags) names = listing flags names := by
  rw [listing, listing, List.filter_map, List.filter_map]
  exact congrArg (List.map Prod.fst) (filter_remaining avoided)

theorem any_listing
    {names : Finset String} (isSubset : names ⊆ nameFinset flags) :
    (!(listing flags names).any leftOut) = decide (avoids leftOut names) := by
  have memberIff : ∀ name, name ∈ listing flags names ↔ name ∈ names := by
    intro name
    rw [← List.mem_toFinset, listing_toFinset isSubset]
  rw [Bool.eq_iff_iff, decide_eq_true_iff]
  simp [avoids, memberIff]

section Altering

variable {answer : String → Json → Except Transform.Fault String}
  {code expected : String} {record : Record}

theorem alteringFlags_remaining :
    alteringFlags answer code expected record (remaining leftOut flags) =
      (alteringFlags answer code expected record flags).filter fun name => !leftOut name := by
  rw [alteringFlags, alteringFlags, List.filter_map, remaining, List.filter_filter,
    List.filter_filter]
  apply congrArg
  apply List.filter_congr
  intro flag _
  exact Bool.and_comm _ _

theorem alteringSubsets_remaining (distinct : (flags.map Prod.fst).Nodup) :
    alteringSubsets answer code expected record (remaining leftOut flags) =
      (alteringSubsets answer code expected record flags).filter fun names =>
        avoids leftOut names := by
  rw [alteringSubsets, alteringSubsets, subsetsInOrder_remaining distinct, List.filter_filter,
    List.filter_filter]
  apply List.filter_congr
  intro names _
  by_cases avoided : avoids leftOut names
  · simp [avoided, turned_remaining avoided]
  · simp [avoided]

/-- The same for the sets as they are listed. -/
theorem listed_remaining (distinct : (flags.map Prod.fst).Nodup) :
    (alteringSubsets answer code expected record (remaining leftOut flags)).map
        (listing (remaining leftOut flags)) =
      ((alteringSubsets answer code expected record flags).map (listing flags)).filter
        fun set => !set.any leftOut := by
  have sameListing :
      ∀ names ∈ alteringSubsets answer code expected record (remaining leftOut flags),
        listing (remaining leftOut flags) names = listing flags names := by
    intro names isAltering
    rw [alteringSubsets_remaining distinct] at isAltering
    exact listing_remaining (of_decide_eq_true (List.mem_filter.mp isAltering).2)
  have sameFilter :
      (alteringSubsets answer code expected record flags).filter
          (fun names => decide (avoids leftOut names)) =
        (alteringSubsets answer code expected record flags).filter
          fun names => !(listing flags names).any leftOut := by
    apply List.filter_congr
    intro names isAltering
    exact (any_listing ((mem_alteringSubsets distinct names).mp isAltering).1).symm
  rw [List.map_congr_left sameListing, alteringSubsets_remaining distinct, sameFilter,
    List.filter_map]
  rfl

end Altering

/-! ## Searches with all flags and with fewer -/

theorem candidates_excluding (record : Record) (options : Options) :
    candidates record { options with includeUnsafe := false } =
      remaining isUnsafe (candidates record { options with includeUnsafe := true }) := by
  simp [candidates, remaining]

section Fewer

variable {σ : Type} {transformer : Transformer σ}
  {answer : String → Json → Except Transform.Fault String}
  (answers : transformer.Answers answer) {code : String} {record : Record}
  {all fewer : Options}
  (leavesOut : candidates record fewer = remaining isUnsafe (candidates record all))
  {output : String} (baselineOutput : answer code record.value = .ok output)
  (stateAll stateFewer : σ)

include answers leavesOut baselineOutput

theorem find_linear_fewer
    (oneByOne : all.strategy = .linear) (fewerOneByOne : fewer.strategy = .linear) :
    ∃ found,
      (find transformer code record all stateAll).1 = .ok found ∧
      (find transformer code record fewer stateFewer).1 = .ok found.withoutUnsafe := by
  refine ⟨_, find_linear_eq answers oneByOne baselineOutput stateAll, ?_⟩
  rw [find_linear_eq answers fewerOneByOne baselineOutput stateFewer, leavesOut,
    alteringFlags_remaining]
  rfl

theorem find_powerSet_fewer
    (assigning : all.strategy = .powerSet) (fewerAssigning : fewer.strategy = .powerSet)
    (withinLimit : (candidates record all).length ≤ min all.maxFlags hardLimit)
    (fewerWithinLimit : (candidates record fewer).length ≤ min fewer.maxFlags hardLimit) :
    ∃ found,
      (find transformer code record all stateAll).1 = .ok found ∧
      (find transformer code record fewer stateFewer).1 = .ok found.withoutUnsafe := by
  rw [find_powerSet_eq answers assigning withinLimit baselineOutput stateAll,
    find_powerSet_eq answers fewerAssigning fewerWithinLimit baselineOutput stateFewer,
    leavesOut, listed_remaining (candidates_distinct record all)]
  exact ⟨_, rfl, rfl⟩

end Fewer

/-- Leaving out the unsafe flags, for a transformer that answers by a function and
any two states to begin with.  A search that is let through with all flags is let
through without the unsafe ones, and finds, in the same order, the entries that
name no unsafe flag. -/
theorem excluding_unsafe_flags_filters_result
    {σ : Type} {transformer : Transformer σ}
    {answer : String → Json → Except Transform.Fault String}
    (answers : transformer.Answers answer)
    (code : String) (record : Record) (options : Options)
    (withinLimit : options.strategy = .powerSet →
      (candidates record { options with includeUnsafe := true }).length ≤
        min options.maxFlags 63)
    (stateAll stateSafe : σ) :
    ∃ found,
      (find transformer code record { options with includeUnsafe := true } stateAll).1 =
        .ok found ∧
      (find transformer code record { options with includeUnsafe := false } stateSafe).1 =
        .ok found.withoutUnsafe := by
  have leavesOut := candidates_excluding record options
  have shorter :
      (candidates record { options with includeUnsafe := false }).length ≤
        (candidates record { options with includeUnsafe := true }).length := by
    rw [leavesOut]
    exact List.length_filter_le _ _
  have withinLimitSafe :
      options.strategy = .powerSet →
        (candidates record { options with includeUnsafe := false }).length ≤
          min options.maxFlags 63 := by
    intro assigning
    exact shorter.trans (withinLimit assigning)
  cases baselineResult : answer code record.value with
  | error fault =>
      have admitted : ensureSearchable record { options with includeUnsafe := true } = .ok () :=
        checkCount_of_imp_le withinLimit
      have admittedSafe :
          ensureSearchable record { options with includeUnsafe := false } = .ok () :=
        checkCount_of_imp_le withinLimitSafe
      refine ⟨_, find_of_fault answers admitted baselineResult stateAll, ?_⟩
      rw [find_of_fault answers admittedSafe baselineResult stateSafe,
        Triggered.withoutUnsafe_empty]
  | ok output =>
      obtain strategy | strategy : options.strategy = .linear ∨ options.strategy = .powerSet := by
        cases options.strategy <;> simp
      · exact find_linear_fewer answers leavesOut baselineResult stateAll stateSafe
          strategy strategy
      · exact find_powerSet_fewer answers leavesOut baselineResult stateAll stateSafe
          strategy strategy (withinLimit strategy) (withinLimitSafe strategy)

/-- Two flags of which the unsafe one comes first. -/
def unsafeFirst : Record where
  value := .object [("unsafe_math", .bool true), ("unused", .bool true)]
  pointer := twoFlags.pointer
  ordered := by
    have below : Text.lessThan "unsafe_math" "unused" = true := by
      decide +kernel
    simp [Json.Ordered, Json.OrderedMembers, Json.Ascending, below]

/-- Gives another output whenever the second of these flags is off. -/
def answerToUnused (code : String) (config : Json) : Except Transform.Fault String :=
  if (config.get? "unused").bind Json.asBool? = some false then .ok "altered" else .ok code

/-- The second flag has the second bit of a word when both take part, and the first
bit when it is alone. -/
theorem unused_flag_is_found_in_both_searches :
    (find (Transformer.ofFunction "unused" answerToUnused) "plain" unsafeFirst
      { strategy := .powerSet, includeUnsafe := true } ()).1 =
        .ok (.powerSet [["unsafe_math", "unused"], ["unused"]]) ∧
    (find (Transformer.ofFunction "unused" answerToUnused) "plain" unsafeFirst
      { strategy := .powerSet, includeUnsafe := false } ()).1 =
        .ok (.powerSet [["unused"]]) := by
  have both :
      (find (Transformer.ofFunction "unused" answerToUnused) "plain" unsafeFirst
        { strategy := .powerSet, includeUnsafe := true } ()).1 =
          .ok (.powerSet [["unsafe_math", "unused"], ["unused"]]) := by
    decide +kernel
  obtain ⟨found, foundAll, foundSafe⟩ :=
    excluding_unsafe_flags_filters_result
      (Transformer.ofFunction_answers "unused" answerToUnused) "plain" unsafeFirst
      { strategy := .powerSet } (by decide +kernel) () ()
  obtain rfl : found = .powerSet [["unsafe_math", "unused"], ["unused"]] := by
    simpa using foundAll.symm.trans both
  have filtered :
      (Triggered.powerSet [["unsafe_math", "unused"], ["unused"]]).withoutUnsafe =
        .powerSet [["unused"]] := by
    decide +kernel
  rw [filtered] at foundSafe
  exact ⟨both, foundSafe⟩

end ShapeAudit.Search
