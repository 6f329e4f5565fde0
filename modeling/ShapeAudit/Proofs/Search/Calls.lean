import ShapeAudit.Proofs.Json.Location
import ShapeAudit.Proofs.Search.PowerSet
import ShapeAudit.Proofs.Search.Simulation

/-!
# The calls of a search

A search decides from the configuration alone which calls it makes, but for one
thing: without a baseline it makes no probe.  The calls are seen by a transformer
that notes them down, and every configuration among them is the given one but for
the values of candidates.
-/

namespace ShapeAudit

/-! ## What overriding flags touches -/

namespace Config.Record

open Json (Step SameBut Ascending find? follow? update? passesObjects)

/-- Where a flag stands in a configuration whose pointer leads through objects. -/
def flagPlace (record : Record) (name : String) : List Step :=
  record.pointer.keys.map Step.member ++ [.member name]

theorem sameBut_override
    {overrides : List Flag} {members : List (String × Json)} (ascending : Ascending members)
    (present : ∀ flag ∈ overrides, ∃ value, find? flag.1 members = some (.bool value)) :
    SameBut (fun place => ∃ flag ∈ overrides, place = [.member flag.1])
      (.object members) (.object (override overrides members)) := by
  induction overrides generalizing members with
  | nil =>
      exact SameBut.refl _ _
  | cons flag rest inductionHypothesis =>
      obtain ⟨old, found⟩ := present flag List.mem_cons_self
      have stillPresent :
          ∀ other ∈ rest, ∃ value,
            find? other.1 (Json.insert flag.1 (.bool flag.2) members) = some (.bool value) := by
        intro other inRest
        by_cases sameName : other.1 = flag.1
        · exact ⟨flag.2, by rw [sameName, Json.find?_insert_self]⟩
        · rw [Json.find?_insert_of_ne sameName]
          exact present other (List.mem_cons_of_mem flag inRest)
      have here := Json.sameBut_insert ascending found (SameBut.ofBool old flag.2)
      have later := inductionHypothesis (Json.ascending_insert ascending flag.1 _) stillPresent
      rw [override_cons]
      apply SameBut.trans (here.weaken _) (later.weaken _)
      · rintro _ ⟨_, rfl, rfl⟩
        exact ⟨flag, List.mem_cons_self, rfl⟩
      · rintro _ ⟨other, inRest, rfl⟩
        exact ⟨other, List.mem_cons_of_mem flag inRest, rfl⟩

/-- Overriding listed flags touches these flags only. -/
theorem sameBut_withFlags
    (record : Record) {overrides : List Flag}
    (listed : ∀ flag ∈ overrides, ∃ value, (flag.1, value) ∈ record.flags) :
    SameBut (fun place => ∃ flag ∈ overrides, place = record.flagPlace flag.1)
      record.value (record.withFlags overrides) := by
  cases overrides with
  | nil =>
      exact SameBut.refl _ _
  | cons first rest =>
      obtain ⟨_, firstListed⟩ := listed first List.mem_cons_self
      obtain ⟨members, holder, _⟩ := holder?_of_mem_flags firstListed
      have present :
          ∀ flag ∈ first :: rest, ∃ value, find? flag.1 members = some (.bool value) := by
        intro flag isOverride
        obtain ⟨value, flagListed⟩ := listed flag isOverride
        exact ⟨value, find?_of_mem_flags holder flagListed⟩
      rw [withFlags_of_holder? holder]
      cases updates :
          update? (override (first :: rest)) record.pointer.keys record.value with
      | none =>
          -- An array stands on the way, and the override is lost.
          exact SameBut.refl _ _
      | some updated =>
          have inMembers := sameBut_override (ascending_of_holder? holder) present
          apply (Json.sameBut_update? record.ordered holder updates inMembers).weaken
          rintro _ ⟨_, rfl, flag, isOverride, rfl⟩
          exact ⟨flag, isOverride, rfl⟩

/-- A listed flag that is not overridden reads as before, also through an array. -/
theorem get?_withFlags_of_forall_ne
    {record : Record} {name : String} {value : Bool} (listed : (name, value) ∈ record.flags)
    {overrides : List Flag} (untouched : ∀ flag ∈ overrides, flag.1 ≠ name) :
    (follow? record.pointer.keys (record.withFlags overrides)).bind (Json.get? name) =
      some (.bool value) := by
  obtain ⟨members, holder, found⟩ := holder?_of_mem_flags listed
  cases passes : passesObjects record.pointer.keys record.value with
  | true =>
      have overriddenHolder :
          follow? record.pointer.keys (record.withFlags overrides) =
            some (.object (override overrides members)) :=
        holder?_overridden passes holder overrides
      rw [overriddenHolder]
      simpa [Json.get?, find?_override_of_forall_ne untouched] using found
  | false =>
      have follows : follow? record.pointer.keys record.value = some (.object members) :=
        holder
      rw [withFlags_of_not_passesObjects passes, follows]
      simpa [Json.get?] using found

end Config.Record

/-! ## Noting calls down -/

namespace Transformer

variable {σ : Type}

/-- A transformer that notes its calls down, each as its source and configuration, and
answers as before. -/
def recorded (transformer : Transformer σ) : Transformer (σ × List (String × Json)) where
  label := transformer.label
  transform code config state :=
    let (result, after) := transformer.transform code config state.1
    (result, (after, state.2 ++ [(code, config)]))
  reset state := (transformer.reset state.1, state.2)

theorem visit_recorded
    (transformer : Transformer σ) (code : String) (configs : List Json)
    (state : σ) (calls : List (String × Json)) :
    transformer.recorded.visit code configs (state, calls) =
      (transformer.visit code configs state,
        calls ++ configs.map fun config => (code, config)) := by
  induction configs generalizing state calls with
  | nil =>
      simp [visit]
  | cons config rest inductionHypothesis =>
      have later :=
        inductionHypothesis (transformer.transform code config state).2
          (calls ++ [(code, config)])
      rw [List.append_assoc] at later
      exact later

end Transformer

namespace Search

open Config (Flag Record)

section AnyTransformer

variable {σ α : Type} (transformer : Transformer σ) (code expected : String)

theorem probeStep_state (progress : List α × σ) (planned : α × Json) :
    (probeStep transformer code expected progress planned).2 =
      (transformer.transform code planned.2 progress.2).2 := by
  simp only [probeStep, probe]
  cases outcomeOf expected (transformer.transform code planned.2 progress.2).1 <;> rfl

theorem foldl_probeStep_state (plan : List (α × Json)) (progress : List α × σ) :
    (plan.foldl (probeStep transformer code expected) progress).2 =
      transformer.visit code (plan.map Prod.snd) progress.2 := by
  induction plan generalizing progress with
  | nil =>
      rfl
  | cons planned rest inductionHypothesis =>
      rw [List.foldl_cons, inductionHypothesis, probeStep_state, List.map_cons,
        Transformer.visit_cons]

theorem runPlan_state
    (record : Record) (flags : List Flag) (strategy : Strategy) (state : σ) :
    (runPlan transformer code record flags expected strategy state).2 =
      transformer.visit code (probed record flags strategy) state := by
  cases strategy with
  | linear =>
      exact foldl_probeStep_state transformer code expected (linearPlan record flags) ([], state)
  | powerSet =>
      exact foldl_probeStep_state transformer code expected (powerSetPlan record flags) ([], state)

theorem find_state_of_fault
    {record : Record} {options : Options} {state : σ} {fault : Transform.Fault}
    (admitted : checkCount (candidates record options).length options = .ok ())
    (failed : (transformer.transform code record.value state).1 = .error fault) :
    (find transformer code record options state).2 =
      transformer.visit code [record.value] state := by
  simp [find, admitted, baseline, failed, Except.map, Transformer.visit]

theorem find_state_of_baseline
    {record : Record} {options : Options} {state : σ} {output : String}
    (admitted : checkCount (candidates record options).length options = .ok ())
    (answered : (transformer.transform code record.value state).1 = .ok output) :
    (find transformer code record options state).2 =
      transformer.visit code (asked record options) state := by
  rw [asked, Transformer.visit_cons, ← runPlan_state transformer code (Text.trim output)]
  simp [find, admitted, baseline, answered, Except.map]

end AnyTransformer

theorem recorded_alike
    {σ : Type} (transformer : Transformer σ) (code : String) (configs : List Json) :
    transformer.AnswersAlike transformer.recorded code configs
      fun state noted => noted.1 = state := by
  rintro config - state noted rfl
  exact ⟨rfl, rfl⟩

/-! ## Plans by numbers -/

/-- All flags, each with one bit of a number: the flag in place `j` has bit `j`. -/
def numbered (flags : List Flag) (number : Nat) : List Flag :=
  flags.zipIdx.map fun entry => (entry.1.1, number.testBit entry.2)

/-- The configurations to probe: one with each flag turned, or one for every number
below `2 ^ n`, in order. -/
def plannedProbes (record : Record) (flags : List Flag) : Strategy → List Json
  | .linear => flags.map fun flag => record.withFlag flag.1 (!flag.2)
  | .powerSet =>
    (List.range (2 ^ flags.length)).map fun number => record.withFlags (numbered flags number)

theorem assignment_eq_numbered
    {flags : List Flag} (small : flags.length ≤ 63) {number : Nat}
    (below : number < 2 ^ flags.length) :
    assignment flags (UInt64.ofNat number) = numbered flags number := by
  apply List.map_congr_left
  rintro ⟨flag, place⟩ isEntry
  have bound : place < flags.length := by
    simpa using (List.mem_zipIdx isEntry).2.1
  rw [bit_of_mask small below bound]

/-- Words of 64 bits are wide enough for every search that is let through. -/
theorem probed_eq_plannedProbes
    (record : Record) {flags : List Flag} {strategy : Strategy}
    (small : strategy = .powerSet → flags.length ≤ 63) :
    probed record flags strategy = plannedProbes record flags strategy := by
  cases strategy with
  | linear =>
      simp [probed, plannedProbes, linearPlan]
  | powerSet =>
      rw [probed, plannedProbes, powerSetPlan, masks_eq (small rfl), List.map_map, List.map_map]
      apply List.map_congr_left
      intro number inRange
      have assigns := assignment_eq_numbered (small rfl) (List.mem_range.mp inRange)
      simp only [Function.comp_apply, assignmentProbe, assigns]

/-- A configuration in which nothing but some flags is overridden. -/
def OverridesOnly (record : Record) (flags : List Flag) (config : Json) : Prop :=
  ∃ overrides, config = record.withFlags overrides ∧
    ∀ flag ∈ overrides, ∃ value, (flag.1, value) ∈ flags

theorem overridesOnly_value (record : Record) (flags : List Flag) :
    OverridesOnly record flags record.value :=
  ⟨[], rfl, by simp⟩

theorem overridesOnly_of_mem_plannedProbes
    {record : Record} {flags : List Flag} {strategy : Strategy} {config : Json}
    (isPlanned : config ∈ plannedProbes record flags strategy) :
    OverridesOnly record flags config := by
  cases strategy with
  | linear =>
      obtain ⟨flag, isFlag, rfl⟩ := List.mem_map.mp isPlanned
      refine ⟨[(flag.1, !flag.2)], rfl, ?_⟩
      intro overridden isOverride
      rw [List.mem_singleton.mp isOverride]
      exact ⟨flag.2, isFlag⟩
  | powerSet =>
      obtain ⟨number, -, rfl⟩ := List.mem_map.mp isPlanned
      refine ⟨numbered flags number, rfl, ?_⟩
      intro overridden isOverride
      obtain ⟨⟨flag, place⟩, isEntry, rfl⟩ := List.mem_map.mp isOverride
      exact ⟨flag.2, List.fst_mem_of_mem_zipIdx isEntry⟩

/-! ## Calls and their configurations -/

/-- What a configuration of a search shares with the one that is given. -/
structure KeepsRest (record : Record) (options : Options) (config : Json) : Prop where
  /-- The two are the same but for the values of candidates. -/
  sameBut :
    Json.SameBut
      (fun place => ∃ flag ∈ candidates record options, place = record.flagPlace flag.1)
      record.value config
  /-- An unsafe flag that takes no part reads as given, also through an array. -/
  excluded : options.includeUnsafe = false → ∀ flag ∈ record.flags, isUnsafe flag.1 = true →
    (config.follow? record.pointer.keys).bind (Json.get? flag.1) = some (.bool flag.2)

theorem keepsRest_of_overridesOnly
    {record : Record} {options : Options} {config : Json}
    (overridesOnly : OverridesOnly record (candidates record options) config) :
    KeepsRest record options config := by
  obtain ⟨overrides, rfl, areCandidates⟩ := overridesOnly
  constructor
  · have listed : ∀ flag ∈ overrides, ∃ value, (flag.1, value) ∈ record.flags := by
      intro flag isOverride
      obtain ⟨value, isCandidate⟩ := areCandidates flag isOverride
      exact ⟨value, mem_flags_of_mem_candidates isCandidate⟩
    apply (record.sameBut_withFlags listed).weaken
    rintro _ ⟨flag, isOverride, rfl⟩
    obtain ⟨value, isCandidate⟩ := areCandidates flag isOverride
    exact ⟨(flag.1, value), isCandidate, rfl⟩
  · intro safeOnly flag listed flagUnsafe
    apply Record.get?_withFlags_of_forall_ne listed
    intro overridden isOverride sameName
    obtain ⟨value, isCandidate⟩ := areCandidates overridden isOverride
    have takesPart := (List.mem_filter.mp isCandidate).2
    simp [safeOnly, sameName, flagUnsafe] at takesPart

section Noted

variable {σ : Type} (transformer : Transformer σ) {code : String} {record : Record}
  {options : Options} {state : σ}
  (admitted : checkCount (candidates record options).length options = .ok ())

include admitted

theorem calls_of_fault
    {fault : Transform.Fault}
    (failed : (transformer.transform code record.value state).1 = .error fault) :
    (find transformer.recorded code record options (state, [])).2.2 =
      [(code, record.value)] := by
  have failedNoted :
      (transformer.recorded.transform code record.value (state, [])).1 = .error fault :=
    failed
  rw [find_state_of_fault transformer.recorded code admitted failedNoted,
    Transformer.visit_recorded]
  rfl

theorem calls_of_baseline
    {output : String}
    (answered : (transformer.transform code record.value state).1 = .ok output)
    (small : options.strategy = .powerSet → (candidates record options).length ≤ 63) :
    (find transformer.recorded code record options (state, [])).2.2 =
      (record.value :: plannedProbes record (candidates record options)
        options.strategy).map fun config => (code, config) := by
  have answeredNoted :
      (transformer.recorded.transform code record.value (state, [])).1 = .ok output :=
    answered
  rw [find_state_of_baseline transformer.recorded code admitted answeredNoted,
    Transformer.visit_recorded, asked, probed_eq_plannedProbes record small, List.nil_append]

/-- Every call is the first one or a probe. -/
theorem overridesOnly_of_mem_calls
    (small : options.strategy = .powerSet → (candidates record options).length ≤ 63)
    {call : String × Json}
    (isCall : call ∈ (find transformer.recorded code record options (state, [])).2.2) :
    OverridesOnly record (candidates record options) call.2 := by
  have asGiven := overridesOnly_value record (candidates record options)
  cases answer : (transformer.transform code record.value state).1 with
  | error fault =>
      rw [calls_of_fault transformer admitted answer, List.mem_singleton] at isCall
      rw [isCall]
      exact asGiven
  | ok output =>
      rw [calls_of_baseline transformer admitted answer small] at isCall
      obtain ⟨config, isAsked, rfl⟩ := List.mem_map.mp isCall
      rcases List.mem_cons.mp isAsked with rfl | isPlanned
      · exact asGiven
      · exact overridesOnly_of_mem_plannedProbes isPlanned

end Noted

/-- The calls of a search that is let through, for a transformer with any state, as
they are noted down by a transformer that otherwise does the same.  If the first
call fails it is the only one.  If not, a probe follows for each candidate turned,
in order of their names, or for each number below `2 ^ n`, whatever the answers are.
Every configuration is the given one but for the values of candidates. -/
theorem search_makes_planned_calls
    {σ : Type} (transformer : Transformer σ) (code : String) (record : Record)
    (options : Options)
    (withinLimit : options.strategy = .powerSet →
      (candidates record options).length ≤ min options.maxFlags 63)
    (state : σ) :
    ∃ found final calls,
      find transformer code record options state = (.ok found, final) ∧
      find transformer.recorded code record options (state, []) = (.ok found, (final, calls)) ∧
      (∀ fault, (transformer.transform code record.value state).1 = .error fault →
        calls = [(code, record.value)]) ∧
      (∀ output, (transformer.transform code record.value state).1 = .ok output →
        calls = (record.value :: plannedProbes record (candidates record options)
          options.strategy).map fun config => (code, config)) ∧
      ((candidates record options).map Prod.fst).Pairwise
        (fun earlier later => Text.lessThan earlier later = true) ∧
      (plannedProbes record (candidates record options) .linear).length =
        (candidates record options).length ∧
      (plannedProbes record (candidates record options) .powerSet).length =
        2 ^ (candidates record options).length ∧
      ∀ call ∈ calls, KeepsRest record options call.2 := by
  have admitted : checkCount (candidates record options).length options = .ok () :=
    checkCount_of_imp_le withinLimit
  have small : options.strategy = .powerSet → (candidates record options).length ≤ 63 := by
    intro allAssignments
    have limited := withinLimit allAssignments
    omega
  obtain ⟨found, isFound⟩ := find_of_ensureSearchable transformer code admitted state
  have startsAlike : (state, ([] : List (String × Json))).1 = state := rfl
  obtain ⟨sameFound, sameState⟩ :=
    find_alike (recorded_alike transformer code (asked record options)) startsAlike
  refine ⟨found, (find transformer code record options state).2,
    (find transformer.recorded code record options (state, [])).2.2, ?_, ?_, ?_, ?_,
    candidates_ascending record options, ?_, ?_, ?_⟩
  · rw [← isFound]
  · rw [← isFound, sameFound, ← sameState]
  · intro fault failed
    exact calls_of_fault transformer admitted failed
  · intro output answered
    exact calls_of_baseline transformer admitted answered small
  · simp [plannedProbes]
  · simp [plannedProbes]
  · intro call isCall
    exact keepsRest_of_overridesOnly
      (overridesOnly_of_mem_calls transformer admitted small isCall)

/-- Flags below an object, one of them unsafe, beside members that are no flags. -/
def mixedOptions : Record where
  value := .object [("mangle", .bool true), ("options", .object
    [("inline", .bool true), ("level", .text "high"), ("unsafe_math", .bool false)])]
  pointer := ⟨"/options", by decide⟩
  ordered := by
    have inlineFirst : Text.lessThan "inline" "level" = true := by
      decide +kernel
    have inlineBeforeUnsafe : Text.lessThan "inline" "unsafe_math" = true := by
      decide +kernel
    have levelBeforeUnsafe : Text.lessThan "level" "unsafe_math" = true := by
      decide +kernel
    have mangleFirst : Text.lessThan "mangle" "options" = true := by
      decide +kernel
    simp [Json.Ordered, Json.OrderedMembers, Json.Ascending, inlineFirst, inlineBeforeUnsafe,
      levelBeforeUnsafe, mangleFirst]

/-- Answers its first call and fails from then on. -/
def answersOnce : Transformer Nat where
  label := "once"
  transform code _ count :=
    (if count = 0 then .ok code else .error (.timedOut "once" 0), count + 1)
  reset := id

/-- A probe that fails does not end the search, and the unsafe flag is left alone. -/
theorem failing_probes_are_all_made :
    ∃ found final calls,
      find answersOnce.recorded "plain" mixedOptions { strategy := .powerSet } (0, []) =
        (.ok found, (final, calls)) ∧
      calls.map Prod.snd =
        [mixedOptions.value, mixedOptions.withFlag "inline" false,
          mixedOptions.withFlag "inline" true] ∧
      ∀ call ∈ calls,
        (call.2.follow? ["options"]).bind (Json.get? "unsafe_math") = some (.bool false) := by
  obtain ⟨found, final, calls, -, noted, -, planned, -, -, -, kept⟩ :=
    search_makes_planned_calls answersOnce "plain" mixedOptions { strategy := .powerSet }
      (by decide +kernel) 0
  refine ⟨found, final, calls, noted, ?_, ?_⟩
  · have only : candidates mixedOptions { strategy := .powerSet } = [("inline", true)] := by
      decide +kernel
    rw [planned "plain" rfl, only]
    rfl
  · intro call isCall
    have listed : ("unsafe_math", false) ∈ mixedOptions.flags := by
      decide +kernel
    have keys : mixedOptions.pointer.keys = ["options"] := by
      decide +kernel
    have keptHere := (kept call isCall).excluded rfl _ listed (by decide +kernel)
    rwa [keys] at keptHere

end Search

end ShapeAudit
