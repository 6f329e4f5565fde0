import Mathlib.Data.Finset.Insert
import Mathlib.Data.List.Perm.Subperm
import ShapeAudit.Proofs.Search.PowerSet

/-!
# The two strategies on single flags

The linear search turns one flag and leaves the others alone; the search over
all assignments gives every flag a value.  On a set of one flag both probe the
same configuration, so a flag that the linear search reports is a set of one
flag that the other search reports, and the other way round.
-/

namespace ShapeAudit.Search

open Config (Flag Record)

/-! ## Members of a set of names -/

theorem mem_insertName (name other : String) (names : List String) :
    other ∈ insertName name names ↔ other = name ∨ other ∈ names := by
  induction names with
  | nil =>
      simp [insertName]
  | cons head rest inductionHypothesis =>
      unfold insertName
      split
      · rename_i sameName
        simp [sameName]
      · split
        · simp
        · rw [List.mem_cons, inductionHypothesis, List.mem_cons]
          exact or_left_comm

theorem mem_nameSet (name : String) (names : List String) :
    name ∈ nameSet names ↔ name ∈ names := by
  have foldIff :
      ∀ kept : List String,
        name ∈ names.foldl (fun kept name => insertName name kept) kept ↔
          name ∈ kept ∨ name ∈ names := by
    induction names with
    | nil =>
        simp
    | cons head rest inductionHypothesis =>
        intro kept
        rw [List.foldl_cons, inductionHypothesis, mem_insertName, List.mem_cons, or_assoc]
        exact or_left_comm
  rw [nameSet, foldIff []]
  simp

/-! ## Sets of one flag -/

section Single

variable {flags : List Flag} (distinct : (flags.map Prod.fst).Nodup)

include distinct

/-- A flag with a given name is the only one. -/
private theorem filter_name
    {flag : Flag} (listed : flag ∈ flags) :
    flags.filter (fun other => other.1 = flag.1) = [flag] := by
  induction flags with
  | nil =>
      cases listed
  | cons head rest inductionHypothesis =>
      obtain ⟨headNotInRest, restDistinct⟩ := List.nodup_cons.mp distinct
      rcases List.mem_cons.mp listed with rfl | inRest
      · have noneInRest : rest.filter (fun other => other.1 = flag.1) = [] := by
          rw [List.filter_eq_nil_iff]
          intro other isOther sameName
          have sameNames : other.1 = flag.1 := by
            simpa using sameName
          exact headNotInRest (sameNames ▸ List.mem_map_of_mem isOther)
        simp [noneInRest]
      · have headDifferent : head.1 ≠ flag.1 := by
          intro sameName
          exact headNotInRest (sameName ▸ List.mem_map_of_mem inRest)
        simpa [headDifferent] using inductionHypothesis restDistinct inRest

theorem turned_singleton
    {flag : Flag} (listed : flag ∈ flags) :
    turned flags {flag.1} = [(flag.1, !flag.2)] := by
  simp [turned, filter_name distinct listed]

theorem listing_singleton
    {flag : Flag} (listed : flag ∈ flags) :
    listing flags {flag.1} = [flag.1] := by
  rw [listing, List.filter_map]
  simp [Function.comp_def, filter_name distinct listed]

end Single

/-! ## The linear search -/

/-- The names of the flags that alter the output when they alone are turned. -/
def alteringFlags
    (answer : String → Json → Except Transform.Fault String)
    (code expected : String) (record : Record) (flags : List Flag) :
    List String :=
  (flags.filter fun flag =>
    alters expected (answer code (record.withFlag flag.1 (!flag.2)))).map Prod.fst

section Altering

variable {answer : String → Json → Except Transform.Fault String}
  {code expected : String} {record : Record} {flags : List Flag}
  (distinct : (flags.map Prod.fst).Nodup)

include distinct

theorem alteringFlags_nodup :
    (alteringFlags answer code expected record flags).Nodup :=
  List.Nodup.sublist (List.Sublist.map Prod.fst List.filter_sublist) distinct

/-- A flag alters the output alone exactly when the set of this flag does. -/
theorem mem_alteringFlags_iff (name : String) :
    name ∈ alteringFlags answer code expected record flags ↔
      {name} ∈ alteringSubsets answer code expected record flags := by
  rw [mem_alteringSubsets distinct]
  constructor
  · intro isAltering
    obtain ⟨flag, isFlag, rfl⟩ := List.mem_map.mp isAltering
    obtain ⟨listed, altered⟩ := List.mem_filter.mp isFlag
    refine ⟨?_, ?_⟩
    · rw [Finset.singleton_subset_iff, mem_nameFinset]
      exact ⟨flag.2, listed⟩
    · rw [turned_singleton distinct listed]
      exact (alters_iff expected _).mp altered
  · rintro ⟨isSubset, changes⟩
    rw [Finset.singleton_subset_iff, mem_nameFinset] at isSubset
    obtain ⟨value, listed⟩ := isSubset
    rw [turned_singleton distinct listed] at changes
    refine List.mem_map.mpr ⟨(name, value), List.mem_filter.mpr ⟨listed, ?_⟩, rfl⟩
    exact (alters_iff expected _).mpr changes

/-- The same for the sets as they are listed. -/
theorem mem_alteringFlags_iff_listed (name : String) :
    name ∈ alteringFlags answer code expected record flags ↔
      [name] ∈ (alteringSubsets answer code expected record flags).map (listing flags) := by
  rw [mem_alteringFlags_iff distinct, List.mem_map]
  constructor
  · intro isAltering
    have isSubset := ((mem_alteringSubsets distinct {name}).mp isAltering).1
    rw [Finset.singleton_subset_iff, mem_nameFinset] at isSubset
    obtain ⟨value, listed⟩ := isSubset
    exact ⟨{name}, isAltering, listing_singleton distinct listed⟩
  · rintro ⟨names, isAltering, listedAlone⟩
    have isSubset := ((mem_alteringSubsets distinct names).mp isAltering).1
    have single : names = {name} := by
      rw [← listing_toFinset isSubset, listedAlone]
      rfl
    rwa [← single]

end Altering

/-! ## What the agreement on single flags gives -/

section Agreement

variable {names : List String} {sets : List (List String)}
  (singles : ∀ name, name ∈ names ↔ [name] ∈ sets)

include singles

theorem flags_subset_of_singles :
    ∀ name ∈ (Triggered.linear names).flags, name ∈ (Triggered.powerSet sets).flags := by
  intro name isFlag
  rw [Triggered.flags, mem_nameSet] at isFlag
  rw [Triggered.flags, mem_nameSet, List.mem_flatten]
  exact ⟨[name], (singles name).mp isFlag, List.mem_singleton_self name⟩

theorem size_le_of_singles (nodup : names.Nodup) :
    (Triggered.linear names).size ≤ (Triggered.powerSet sets).size := by
  have asSets : (names.map fun name => [name]) ⊆ sets := by
    intro set isSet
    obtain ⟨name, isName, rfl⟩ := List.mem_map.mp isSet
    exact (singles name).mp isName
  have asSetsNodup : (names.map fun name => [name]).Nodup :=
    nodup.map fun _ _ same => List.singleton_inj.mp same
  simpa [Triggered.size] using (asSetsNodup.subperm asSets).length_le

end Agreement

/-! ## Both searches -/

section Answered

variable {σ : Type} {transformer : Transformer σ}
  {answer : String → Json → Except Transform.Fault String}
  (answers : transformer.Answers answer)

include answers

/-- The linear search reports the flags that alter the output alone. -/
theorem find_linear_eq
    {code : String} {record : Record} {options : Options}
    (oneByOne : options.strategy = .linear)
    {output : String} (baselineOutput : answer code record.value = .ok output)
    (state : σ) :
    (find transformer code record options state).1 =
      .ok (.linear (alteringFlags answer code (Text.trim output) record
        (candidates record options))) := by
  have admitted : checkCount (candidates record options).length options = .ok () := by
    simp [checkCount, oneByOne]
  have answered := answers code record.value state
  rw [baselineOutput] at answered
  simp [find, admitted, baseline, answered, Except.map, oneByOne, runPlan, linearPlan,
    probeAll_map answers, alteringFlags]

/-- A search without a baseline finds nothing. -/
theorem find_of_fault
    {code : String} {record : Record} {options : Options}
    (admitted : checkCount (candidates record options).length options = .ok ())
    {fault : Transform.Fault} (baselineFault : answer code record.value = .error fault)
    (state : σ) :
    (find transformer code record options state).1 = .ok (.empty options.strategy) := by
  have answered := answers code record.value state
  rw [baselineFault] at answered
  simp [find, admitted, baseline, answered, Except.map]

end Answered

/-- Both strategies on one configuration, for a transformer that answers by a
function and at most `min maxFlags 63` candidates, whatever states the two runs
begin with.  A name is in the linear result exactly when the set of this name
is in the result over all assignments.  So the names of the first are among
those of the second, and the first is no longer than the second.  Without a
baseline both are empty. -/
theorem strategies_agree_on_single_flags
    {σ : Type} {transformer : Transformer σ}
    {answer : String → Json → Except Transform.Fault String}
    (answers : transformer.Answers answer)
    (code : String) (record : Record) (options : Options)
    (withinLimit : (candidates record options).length ≤ min options.maxFlags 63)
    (linearState powerSetState : σ) :
    ∃ names sets,
      (find transformer code record { options with strategy := .linear } linearState).1 =
        .ok (.linear names) ∧
      (find transformer code record { options with strategy := .powerSet } powerSetState).1 =
        .ok (.powerSet sets) ∧
      (∀ name, name ∈ names ↔ [name] ∈ sets) ∧
      (∀ name ∈ (Triggered.linear names).flags, name ∈ (Triggered.powerSet sets).flags) ∧
      (Triggered.linear names).size ≤ (Triggered.powerSet sets).size ∧
      ((∃ fault, answer code record.value = .error fault) → names = [] ∧ sets = []) := by
  have admitted :
      (candidates record { options with strategy := .powerSet }).length ≤
        min ({ options with strategy := .powerSet } : Options).maxFlags hardLimit :=
    withinLimit
  cases baselineResult : answer code record.value with
  | error fault =>
      have linearFound :
          (find transformer code record { options with strategy := .linear } linearState).1 =
            .ok (.linear []) :=
        find_of_fault answers (by simp [checkCount]) baselineResult linearState
      have powerSetFound :
          (find transformer code record { options with strategy := .powerSet }
            powerSetState).1 = .ok (.powerSet []) :=
        find_of_fault answers (checkCount_of_le admitted) baselineResult powerSetState
      exact ⟨[], [], linearFound, powerSetFound, by simp, by simp [Triggered.flags, nameSet],
        by simp [Triggered.size], by simp⟩
  | ok output =>
      have distinct := candidates_distinct record options
      have linearFound :
          (find transformer code record { options with strategy := .linear } linearState).1 =
            .ok (.linear (alteringFlags answer code (Text.trim output) record
              (candidates record options))) :=
        find_linear_eq answers rfl baselineResult linearState
      have powerSetFound :
          (find transformer code record { options with strategy := .powerSet }
            powerSetState).1 =
            .ok (.powerSet ((alteringSubsets answer code (Text.trim output) record
              (candidates record options)).map (listing (candidates record options)))) :=
        congrArg Prod.fst
          (find_powerSet_eq answers rfl admitted baselineResult powerSetState)
      refine ⟨_, _, linearFound, powerSetFound, mem_alteringFlags_iff_listed distinct, ?_, ?_, ?_⟩
      · exact flags_subset_of_singles (mem_alteringFlags_iff_listed distinct)
      · exact size_le_of_singles (mem_alteringFlags_iff_listed distinct)
          (alteringFlags_nodup distinct)
      · rintro ⟨fault, failed⟩
        cases failed

/-- Gives another output whenever the first flag is off. -/
def answerToFirst (code : String) (config : Json) : Except Transform.Fault String :=
  if (config.get? "first").bind Json.asBool? = some false then .ok "altered" else .ok code

/-- The first flag is reported by both searches and the second by neither. -/
theorem strategies_agree_on_first_flag :
    ∃ names sets,
      (find (Transformer.ofFunction "first" answerToFirst) "plain" twoFlags
        { strategy := .linear } ()).1 = .ok (.linear names) ∧
      (find (Transformer.ofFunction "first" answerToFirst) "plain" twoFlags
        { strategy := .powerSet } ()).1 = .ok (.powerSet sets) ∧
      ["first"] ∈ sets ∧ ["second"] ∉ sets := by
  obtain ⟨names, sets, linearFound, powerSetFound, singles, -⟩ :=
    strategies_agree_on_single_flags
      (Transformer.ofFunction_answers "first" answerToFirst) "plain" twoFlags {}
      (by decide +kernel) () ()
  have reported :
      (find (Transformer.ofFunction "first" answerToFirst) "plain" twoFlags
        { strategy := .linear } ()).1 = .ok (.linear ["first"]) := by
    decide +kernel
  obtain rfl : names = ["first"] := by
    simpa using linearFound.symm.trans reported
  exact ⟨["first"], sets, linearFound, powerSetFound, (singles "first").mp (by simp),
    fun isReported => absurd ((singles "second").mpr isReported) (by simp)⟩

end ShapeAudit.Search
