import ShapeAudit.Proofs.Config.Laws
import ShapeAudit.Proofs.Search.Calls
import ShapeAudit.Proofs.Search.Strategies
import ShapeAudit.Proofs.Transform.Memo

/-!
# What a search costs behind a table

Different sets of candidates, once they are turned, give different
configurations, as long as the pointer leads through objects only.  So a search
asks for no configuration twice, but for one thing: the assignment that turns
nothing is the baseline again, and by then its output is in the table.
-/

namespace ShapeAudit

theorem Transformer.visit_append
    {σ : Type} (transformer : Transformer σ) (code : String) (first second : List Json)
    (state : σ) :
    transformer.visit code (first ++ second) state =
      transformer.visit code second (transformer.visit code first state) :=
  List.foldl_append

namespace Transform

variable {σ : Type}

/-- A function has an output for a source under a configuration. -/
def Succeeds (answer : String → Json → Except Fault String) (code : String) (config : Json) :
    Prop :=
  ∃ output, answer code config = .ok output

instance (answer : String → Json → Except Fault String) (code : String) :
    DecidablePred (Succeeds answer code) := fun config =>
  match answered : answer code config with
  | .ok output => isTrue ⟨output, answered⟩
  | .error _ => isFalse (by simp [Succeeds, answered])

/-! ## Calls that are made once -/

/-- Every call for one of some configurations was a miss, and the outputs of those
that succeed are in the table. -/
structure ServedOnce
    (answer : String → Json → Except Fault String) (code : String) (configs : List Json)
    (before after : Memo σ) : Prop where
  hits : after.hits = before.hits
  misses : after.misses = before.misses + configs.length
  size : after.size = before.size + configs.countP (Succeeds answer code)
  keys : ∀ key, key ∈ after.entries ↔ key ∈ before.entries ∨
    ∃ config ∈ configs, Succeeds answer code config ∧ cacheKey code config = key

namespace ServedOnce

variable {answer : String → Json → Except Fault String} {code : String}

theorem none (memo : Memo σ) : ServedOnce answer code [] memo memo where
  hits := rfl
  misses := rfl
  size := rfl
  keys := by simp

theorem append
    {first second : List Json} {before middle after : Memo σ}
    (earlier : ServedOnce answer code first before middle)
    (later : ServedOnce answer code second middle after) :
    ServedOnce answer code (first ++ second) before after where
  hits := later.hits.trans earlier.hits
  misses := by
    rw [later.misses, earlier.misses, List.length_append, Nat.add_assoc]
  size := by
    rw [later.size, earlier.size, List.countP_append, Nat.add_assoc]
  keys := by
    intro key
    rw [later.keys, earlier.keys, or_assoc, ← exists_or]
    simp only [List.mem_append, or_and_right]

section Serving

variable {inner : Transformer σ} (answers : inner.Answers answer)

include answers

/-- One call for a configuration that is not in the table. -/
theorem single
    {config : Json} {memo : Memo σ} (isNew : cacheKey code config ∉ memo.entries) :
    ServedOnce answer code [config] memo
      ((memoized inner).transform code config memo).2 := by
  have missing : memo.entries[cacheKey code config]? = Option.none :=
    Std.HashMap.getElem?_eq_none isNew
  have own := answers code config memo.inner
  rcases answered : inner.transform code config memo.inner with ⟨result, after⟩
  rw [answered] at own
  dsimp only at own
  subst own
  cases result : answer code config with
  | ok output =>
      rw [result] at answered
      have succeeds : Succeeds answer code config := ⟨output, result⟩
      rw [memoized_of_ok missing answered]
      refine ⟨rfl, rfl, ?_, ?_⟩
      · simp [Memo.size, Std.HashMap.size_insert, isNew, succeeds]
      · intro key
        simp [Std.HashMap.mem_insert, succeeds, or_comm]
  | error fault =>
      rw [result] at answered
      have fails : ¬ Succeeds answer code config := by
        simp [Succeeds, result]
      rw [memoized_of_error missing answered]
      refine ⟨rfl, rfl, ?_, ?_⟩
      · simp [Memo.size, fails]
      · simp [fails]

/-- Calls for configurations that are not in the table and differ in their keys. -/
theorem visit
    {configs : List Json} (apart : (configs.map (cacheKey code)).Nodup) (memo : Memo σ)
    (areNew : ∀ config ∈ configs, cacheKey code config ∉ memo.entries) :
    ServedOnce answer code configs memo ((memoized inner).visit code configs memo) := by
  induction configs generalizing memo with
  | nil =>
      exact none memo
  | cons config rest inductionHypothesis =>
      obtain ⟨notLater, restApart⟩ := List.nodup_cons.mp apart
      have first := single answers (areNew config List.mem_cons_self)
      have restNew : ∀ other ∈ rest,
          cacheKey code other ∉ ((memoized inner).transform code config memo).2.entries := by
        intro other inRest isStored
        rcases (first.keys _).mp isStored with before | ⟨asked, isAsked, -, sameKey⟩
        · exact areNew other (List.mem_cons_of_mem config inRest) before
        · rw [List.mem_singleton.mp isAsked] at sameKey
          exact notLater (sameKey ▸ List.mem_map_of_mem inRest)
      exact first.append (inductionHypothesis restApart _ restNew)

end Serving

end ServedOnce

/-- A call for a configuration that is in the table counts as a hit and does
nothing else. -/
theorem memoized_of_mem
    (inner : Transformer σ) {code : String} {config : Json} {memo : Memo σ}
    (isStored : cacheKey code config ∈ memo.entries) :
    ((memoized inner).transform code config memo).2 = { memo with hits := memo.hits + 1 } := by
  obtain ⟨output, found⟩ := Option.isSome_iff_exists.mp
    (Std.HashMap.isSome_getElem?_iff_mem.mpr isStored)
  rw [memoized_of_found inner found]

end Transform

namespace Search

open Config (Flag Record)
open Json (passesObjects find?)
open Transform (KeysApart Memo ServedOnce Succeeds cacheKey memoized)

/-! ## Sets and configurations -/

/-- The configuration in which the flags of a set are turned. -/
def turnedConfig (record : Record) (flags : List Flag) (names : Finset String) : Json :=
  record.withFlags (turned flags names)

theorem turnedConfig_empty (record : Record) (flags : List Flag) :
    turnedConfig record flags ∅ = record.value :=
  withFlags_turned_empty record flags

/-- A candidate reads as it is turned. -/
theorem find?_turnedConfig
    {record : Record} {options : Options} {members : List (String × Json)}
    (passes : passesObjects record.pointer.keys record.value = true)
    (holder : record.holder? = some (.object members))
    {flag : Flag} (isCandidate : flag ∈ candidates record options) (names : Finset String) :
    ((turnedConfig record (candidates record options) names).follow? record.pointer.keys).bind
        (Json.get? flag.1) = some (.bool (valueAfter names flag)) := by
  have holds :
      (turnedConfig record (candidates record options) names).follow? record.pointer.keys =
        some (.object (Record.override (assigned (candidates record options) names)
          members)) := by
    rw [turnedConfig, ← withFlags_assigned]
    exact Record.holder?_overridden passes holder _
  have distinct : ((assigned (candidates record options) names).map Prod.fst).Nodup := by
    simpa [assigned, Function.comp_def] using candidates_distinct record options
  have isLast :
      Record.lastSet? flag.1 (assigned (candidates record options) names) =
        some (valueAfter names flag) := by
    rw [Record.lastSet?_eq_some_iff distinct]
    exact List.mem_map_of_mem isCandidate
  rw [holds]
  simp [Json.get?, Record.find?_override, isLast]

/-- Turning different sets of candidates gives different configurations. -/
theorem turnedConfig_injOn
    {record : Record} (options : Options)
    (passes : passesObjects record.pointer.keys record.value = true)
    {first second : Finset String}
    (firstSubset : first ⊆ nameFinset (candidates record options))
    (secondSubset : second ⊆ nameFinset (candidates record options))
    (same : turnedConfig record (candidates record options) first =
      turnedConfig record (candidates record options) second) :
    first = second := by
  have sameOnCandidates : ∀ flag ∈ candidates record options,
      (flag.1 ∈ first ↔ flag.1 ∈ second) := by
    intro flag isCandidate
    obtain ⟨members, holder, -⟩ :=
      Record.holder?_of_mem_flags (mem_flags_of_mem_candidates isCandidate)
    have firstReads := find?_turnedConfig passes holder isCandidate first
    rw [same, find?_turnedConfig passes holder isCandidate second] at firstReads
    have sameValue : valueAfter second flag = valueAfter first flag := by
      simpa using firstReads
    by_cases inFirst : flag.1 ∈ first <;> by_cases inSecond : flag.1 ∈ second <;>
      simp_all [valueAfter]
  ext name
  constructor
  · intro inFirst
    obtain ⟨value, isCandidate⟩ := (mem_nameFinset _ name).mp (firstSubset inFirst)
    exact (sameOnCandidates _ isCandidate).mp inFirst
  · intro inSecond
    obtain ⟨value, isCandidate⟩ := (mem_nameFinset _ name).mp (secondSubset inSecond)
    exact (sameOnCandidates _ isCandidate).mpr inSecond

/-- The sets of flags that the probes of a strategy turn. -/
def probedSets (flags : List Flag) : Strategy → List (Finset String)
  | .linear => flags.map fun flag => {flag.1}
  | .powerSet => subsetsInOrder flags

theorem probedSets_subset
    {flags : List Flag} (distinct : (flags.map Prod.fst).Nodup) {strategy : Strategy}
    {names : Finset String} (isProbed : names ∈ probedSets flags strategy) :
    names ⊆ nameFinset flags := by
  cases strategy with
  | linear =>
      obtain ⟨flag, isFlag, rfl⟩ := List.mem_map.mp isProbed
      rw [Finset.singleton_subset_iff, mem_nameFinset]
      exact ⟨flag.2, isFlag⟩
  | powerSet =>
      exact (mem_subsetsInOrder distinct names).mp isProbed

theorem probedSets_nodup
    {flags : List Flag} (distinct : (flags.map Prod.fst).Nodup) (strategy : Strategy) :
    (probedSets flags strategy).Nodup := by
  cases strategy with
  | linear =>
      have asNames : probedSets flags .linear =
          (flags.map Prod.fst).map fun name => ({name} : Finset String) := by
        simp [probedSets]
      rw [asNames]
      exact distinct.map Finset.singleton_injective
  | powerSet =>
      exact (subsetsInOrder_ascending distinct).imp fun below equal =>
        absurd below (by simp [equal])

/-- The configurations of a search are those of its sets. -/
theorem asked_eq
    {record : Record} {options : Options}
    (small : options.strategy = .powerSet → (candidates record options).length ≤ 63) :
    asked record options =
      (∅ :: probedSets (candidates record options) options.strategy).map
        (turnedConfig record (candidates record options)) := by
  rw [asked, List.map_cons, turnedConfig_empty]
  congr 1
  cases strategy : options.strategy with
  | linear =>
      simp only [probed, probedSets, linearPlan, List.map_map]
      apply List.map_congr_left
      intro flag isCandidate
      have alone := turned_singleton (candidates_distinct record options) isCandidate
      simp only [Function.comp_apply, turnedConfig, alone]
      rfl
  | powerSet =>
      rw [probed, powerSetPlan_eq record options (small strategy), List.map_map]
      rfl

/-! ## Counting the calls -/

/-- How many calls of a search repeat an earlier one. -/
def repeatedCalls : Strategy → Nat
  | .linear => 0
  | .powerSet => 1

/-- How many configurations a search over a number of candidates asks for. -/
def distinctCalls : Strategy → Nat → Nat
  | .linear, count => count + 1
  | .powerSet, count => 2 ^ count

/-- What the search of a source does to a table that was empty. -/
structure Charged
    (answer : String → Json → Except Transform.Fault String) (code : String)
    (record : Record) (options : Options) {σ : Type} (before after : Memo σ) : Prop where
  hits : after.hits = before.hits + repeatedCalls options.strategy
  misses : after.misses =
    before.misses + distinctCalls options.strategy (candidates record options).length
  /-- The table has an output for every configuration that has one. -/
  size : after.size =
    {config | config ∈ asked record options ∧ Succeeds answer code config}.ncard

/-- Items of a list without repetition are counted one by one. -/
theorem ncard_eq_countP
    {items : List Json} (nodup : items.Nodup) (chosen : Json → Prop) [DecidablePred chosen] :
    {item | item ∈ items ∧ chosen item}.ncard = items.countP chosen := by
  classical
  have asFinset : {item | item ∈ items ∧ chosen item} =
      ((items.filter chosen).toFinset : Set Json) := by
    ext item
    simp
  rw [asFinset, Set.ncard_coe_finset, List.toFinset_card_of_nodup (nodup.filter _),
    List.countP_eq_length_filter]

section Served

variable {σ : Type} {inner : Transformer σ}
  {answer : String → Json → Except Transform.Fault String} (answers : inner.Answers answer)
  {code : String} {memo : Memo σ} (isEmpty : memo.entries = ∅)

include answers isEmpty

/-- When a configuration that succeeded comes again, its output is in the table, and
the call for it is the only hit. -/
theorem visit_of_repeated
    {config : Json} {earlier later : List Json} (succeeds : Succeeds answer code config)
    (apart : ((config :: earlier ++ later).map (cacheKey code)).Nodup) :
    ∃ after, (memoized inner).visit code (config :: (earlier ++ config :: later)) memo = after ∧
      after.hits = memo.hits + 1 ∧
      after.misses = memo.misses + (config :: earlier ++ later).length ∧
      after.size = (config :: earlier ++ later).countP (Succeeds answer code) := by
  rw [List.map_append] at apart
  obtain ⟨firstApart, laterApart, noneShared⟩ := List.nodup_append.mp apart
  have first := ServedOnce.visit answers firstApart memo (by simp [isEmpty])
  generalize reached : (memoized inner).visit code (config :: earlier) memo = middle at first
  have isStored : cacheKey code config ∈ middle.entries :=
    (first.keys _).mpr (Or.inr ⟨config, List.mem_cons_self, succeeds, rfl⟩)
  have hit := Transform.memoized_of_mem inner isStored
  have laterNew : ∀ other ∈ later, cacheKey code other ∉ middle.entries := by
    intro other inLater stored
    rcases (first.keys _).mp stored with before | ⟨asked, isAsked, -, sameKey⟩
    · simp [isEmpty] at before
    · exact noneShared _ (List.mem_map_of_mem isAsked) _ (List.mem_map_of_mem inLater) sameKey
  have rest := ServedOnce.visit answers laterApart
    { middle with hits := middle.hits + 1 } laterNew
  refine ⟨_, rfl, ?_⟩
  rw [← List.cons_append, Transformer.visit_append, reached, Transformer.visit_cons, hit]
  refine ⟨?_, ?_, ?_⟩
  · rw [rest.hits, first.hits]
  · rw [rest.misses, first.misses, List.length_append, Nat.add_assoc]
  · have noneBefore : memo.size = 0 := by
      simp [Memo.size, isEmpty]
    have sameSize : ({ middle with hits := middle.hits + 1 } : Memo σ).size = middle.size := rfl
    rw [rest.size, sameSize, first.size, noneBefore, List.countP_append, Nat.zero_add]

end Served

/-! ## Configurations that differ -/

section Distinct

variable {record : Record} {options : Options}

theorem turnedConfigs_nodup
    (passes : passesObjects record.pointer.keys record.value = true)
    {sets : List (Finset String)} (nodup : sets.Nodup)
    (areSubsets : ∀ names ∈ sets, names ⊆ nameFinset (candidates record options)) :
    (sets.map (turnedConfig record (candidates record options))).Nodup := by
  apply nodup.map_on
  intro first isFirst second isSecond same
  exact turnedConfig_injOn options passes (areSubsets first isFirst) (areSubsets second isSecond)
    same

theorem keys_nodup
    {code : String} (apart : KeysApart {pair | pair.1 = code ∧ pair.2 ∈ asked record options})
    {configs : List Json} (nodup : configs.Nodup) (areAsked : configs ⊆ asked record options) :
    (configs.map (cacheKey code)).Nodup := by
  apply nodup.map_on
  intro first isFirst second isSecond sameKey
  have same := apart (code, first) ⟨rfl, areAsked isFirst⟩ (code, second)
    ⟨rfl, areAsked isSecond⟩ sameKey
  exact congrArg Prod.snd same

/-- A search over all assignments asks for the configuration that is given twice,
and for every other one once. -/
theorem exists_split_asked
    (passes : passesObjects record.pointer.keys record.value = true)
    (allAssignments : options.strategy = .powerSet)
    (small : (candidates record options).length ≤ 63) :
    ∃ earlier later,
      asked record options = record.value :: (earlier ++ record.value :: later) ∧
        (record.value :: earlier ++ later).Nodup ∧
        (record.value :: earlier ++ later).length = 2 ^ (candidates record options).length := by
  have distinct := candidates_distinct record options
  have emptyListed : ∅ ∈ subsetsInOrder (candidates record options) :=
    (mem_subsetsInOrder distinct ∅).mpr (Finset.empty_subset _)
  obtain ⟨before, behind, isSplit⟩ := List.append_of_mem emptyListed
  have moved : (subsetsInOrder (candidates record options)).Perm (∅ :: before ++ behind) := by
    rw [isSplit]
    exact List.perm_middle
  have configs :
      record.value :: before.map (turnedConfig record (candidates record options)) ++
          behind.map (turnedConfig record (candidates record options)) =
        (∅ :: before ++ behind).map (turnedConfig record (candidates record options)) := by
    simp [turnedConfig_empty]
  refine ⟨before.map (turnedConfig record (candidates record options)),
    behind.map (turnedConfig record (candidates record options)), ?_, ?_, ?_⟩
  · rw [asked_eq fun _ => small, allAssignments, probedSets, isSplit]
    simp [turnedConfig_empty]
  · rw [configs]
    apply turnedConfigs_nodup passes (moved.nodup_iff.mp (probedSets_nodup distinct .powerSet))
    intro names isSet
    exact (mem_subsetsInOrder distinct names).mp (moved.mem_iff.mpr isSet)
  · rw [configs, List.length_map, ← moved.length_eq]
    simp [subsetsInOrder]

end Distinct

section Charging

variable {σ : Type} {inner : Transformer σ}
  {answer : String → Json → Except Transform.Fault String} (answers : inner.Answers answer)
  {code : String} {memo : Memo σ} (isEmpty : memo.entries = ∅)
  {record : Record} {options : Options}
  (passes : passesObjects record.pointer.keys record.value = true)
  (apart : KeysApart {pair | pair.1 = code ∧ pair.2 ∈ asked record options})

include answers isEmpty passes apart

/-- One flag at a time: every configuration is asked for once. -/
theorem charged_linear (oneByOne : options.strategy = .linear) :
    Charged answer code record options memo
      ((memoized inner).visit code (asked record options) memo) := by
  have distinct := candidates_distinct record options
  have isAsked : asked record options =
      (∅ :: probedSets (candidates record options) .linear).map
        (turnedConfig record (candidates record options)) := by
    rw [← oneByOne]
    exact asked_eq (by simp [oneByOne])
  have setsNodup : (∅ :: probedSets (candidates record options) .linear).Nodup := by
    refine List.nodup_cons.mpr ⟨?_, probedSets_nodup distinct .linear⟩
    simp [probedSets]
  have nodup : (asked record options).Nodup := by
    rw [isAsked]
    apply turnedConfigs_nodup passes setsNodup
    intro names isSet
    rcases List.mem_cons.mp isSet with rfl | isProbed
    · exact Finset.empty_subset _
    · exact probedSets_subset distinct isProbed
  have served := ServedOnce.visit answers (keys_nodup apart nodup (List.Subset.refl _))
    memo (by simp [isEmpty])
  refine ⟨?_, ?_, ?_⟩
  · rw [served.hits, oneByOne]
    rfl
  · rw [served.misses, oneByOne, isAsked]
    simp [distinctCalls, probedSets]
  · have noneBefore : memo.size = 0 := by
      simp [Memo.size, isEmpty]
    rw [served.size, noneBefore, Nat.zero_add, ncard_eq_countP nodup]

/-- All assignments: the configuration that is given is asked for again. -/
theorem charged_powerSet
    (allAssignments : options.strategy = .powerSet)
    (small : (candidates record options).length ≤ 63)
    (succeeds : Succeeds answer code record.value) :
    Charged answer code record options memo
      ((memoized inner).visit code (asked record options) memo) := by
  obtain ⟨earlier, later, isAsked, nodup, count⟩ := exists_split_asked passes allAssignments small
  have sameConfigs : ∀ config,
      config ∈ asked record options ↔ config ∈ record.value :: earlier ++ later := by
    intro config
    rw [isAsked, List.mem_cons, List.perm_middle.mem_iff]
    simp
  obtain ⟨after, reached, hits, misses, size⟩ := visit_of_repeated answers isEmpty succeeds
    (keys_nodup apart nodup fun config isConfig => (sameConfigs config).mpr isConfig)
  rw [← isAsked] at reached
  rw [reached]
  refine ⟨?_, ?_, ?_⟩
  · rw [hits, allAssignments]
    rfl
  · rw [misses, count, allAssignments]
    rfl
  · rw [size, ← ncard_eq_countP nodup]
    simp only [sameConfigs]

/-- A search behind a table that is empty finds what it finds without the table. -/
theorem find_charged
    (withinLimit : options.strategy = .powerSet →
      (candidates record options).length ≤ min options.maxFlags 63)
    (succeeds : Succeeds answer code record.value) :
    ∃ found after,
      find (memoized inner) code record options memo = (.ok found, after) ∧
        (∀ state, (find inner code record options state).1 = .ok found) ∧
        Charged answer code record options memo after := by
  have admitted : checkCount (candidates record options).length options = .ok () :=
    checkCount_of_imp_le withinLimit
  have sound := Memo.sound_of_entries_empty answer
    {pair | pair.1 = code ∧ pair.2 ∈ asked record options} memo isEmpty
  have step : ∀ config ∈ asked record options, ∀ memo : Memo σ,
      memo.Sound answer {pair | pair.1 = code ∧ pair.2 ∈ asked record options} →
        ((memoized inner).transform code config memo).1 = answer code config ∧
          ((memoized inner).transform code config memo).2.Sound answer
            {pair | pair.1 = code ∧ pair.2 ∈ asked record options} :=
    fun config isAsked memo sound =>
      Transform.memoized_of_sound answers apart ⟨rfl, isAsked⟩ sound
  obtain ⟨found, isFound, alone⟩ := exists_found_alone admitted _ step sound ""
  obtain ⟨output, answered⟩ := succeeds
  have baselineAnswered :
      ((memoized inner).transform code record.value memo).1 = .ok output := by
    rw [(step record.value List.mem_cons_self memo sound).1, answered]
  have visited := find_state_of_baseline (memoized inner) code admitted baselineAnswered
  refine ⟨found, (memoized inner).visit code (asked record options) memo,
    Prod.ext isFound visited, ?_, ?_⟩
  · intro state
    obtain ⟨direct, isDirect, directAlone⟩ := exists_found_alone admitted (fun _ => True)
      (fun config _ state _ => ⟨answers code config state, trivial⟩)
      (trivial : (fun _ : σ => True) state) ""
    rw [isDirect, ← alone, directAlone]
  · cases strategy : options.strategy with
    | linear =>
        exact charged_linear answers isEmpty passes apart strategy
    | powerSet =>
        have small : (candidates record options).length ≤ 63 :=
          Nat.le_trans (withinLimit strategy) (Nat.min_le_right _ _)
        exact charged_powerSet answers isEmpty passes apart strategy small ⟨output, answered⟩

end Charging

end Search

end ShapeAudit
