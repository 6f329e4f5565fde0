import ShapeAudit.Search.Basic

/-!
# Running probes

A transformer answers by a function when its results depend on the source and
the configuration only, whatever state it keeps.  For such a transformer a run
of probes reports, in order, those whose answer alters the output, and makes
one call for every probe.
-/

namespace ShapeAudit

namespace Transformer

variable {σ : Type}

/-- Every call is answered by a function of its source and configuration. -/
def Answers
    (transformer : Transformer σ)
    (answer : String → Json → Except Transform.Fault String) : Prop :=
  ∀ code config state, (transformer.transform code config state).1 = answer code config

/-- The state after one call for each of some configurations, in order. -/
def visit
    (transformer : Transformer σ) (code : String) (configs : List Json) (state : σ) : σ :=
  configs.foldl (fun current config => (transformer.transform code config current).2) state

theorem visit_cons
    (transformer : Transformer σ) (code : String) (config : Json)
    (rest : List Json) (state : σ) :
    transformer.visit code (config :: rest) state =
      transformer.visit code rest (transformer.transform code config state).2 := by
  rfl

theorem ofFunction_answers
    (label : String) (answer : String → Json → Except Transform.Fault String) :
    (ofFunction label answer).Answers answer := by
  intro code config state
  rfl

end Transformer

namespace Search

open Config (Flag Record)

/-- Whether an answer is an output other than the expected one, blanks at both
ends aside. -/
def alters (expected : String) : Except Transform.Fault String → Bool
  | .ok output => Text.trim output != expected
  | .error _ => false

theorem alters_iff (expected : String) (result : Except Transform.Fault String) :
    alters expected result = true ↔
      ∃ output, result = .ok output ∧ Text.trim output ≠ expected := by
  cases result with
  | ok output =>
      simp [alters]
  | error fault =>
      simp [alters]

theorem outcomeOf_of_alters
    {expected : String} {result : Except Transform.Fault String}
    (altered : alters expected result = true) :
    ∃ output, outcomeOf expected result = .changed output := by
  obtain ⟨output, rfl, different⟩ := (alters_iff expected result).mp altered
  exact ⟨Text.trim output, by simp [outcomeOf, different]⟩

theorem outcomeOf_of_not_alters
    {expected : String} {result : Except Transform.Fault String}
    (kept : alters expected result = false) (output : String) :
    outcomeOf expected result ≠ .changed output := by
  cases result with
  | ok found =>
      have same : Text.trim found = expected := by
        simpa [alters] using kept
      simp [outcomeOf, same]
  | error fault =>
      simp [outcomeOf]

section Answered

variable {σ α : Type} {transformer : Transformer σ}
  {answer : String → Json → Except Transform.Fault String}
  (answers : transformer.Answers answer) (code expected : String)

include answers

/-- One probe: its report is added if its answer alters the output. -/
theorem probeStep_eq (progress : List α × σ) (planned : α × Json) :
    probeStep transformer code expected progress planned =
      (if alters expected (answer code planned.2) then planned.1 :: progress.1
        else progress.1,
        (transformer.transform code planned.2 progress.2).2) := by
  have answered := answers code planned.2 progress.2
  cases altered : alters expected (answer code planned.2) with
  | true =>
      obtain ⟨output, changed⟩ := outcomeOf_of_alters altered
      simp [probeStep, probe, answered, changed]
  | false =>
      have kept := outcomeOf_of_not_alters altered
      cases outcome : outcomeOf expected (answer code planned.2) with
      | changed output =>
          exact absurd outcome (kept output)
      | unchanged =>
          simp [probeStep, probe, answered, outcome]
      | failed message =>
          simp [probeStep, probe, answered, outcome]

/-- What a run of probes has found is kept last first, so a run adds its
reports in reverse. -/
private theorem foldl_probeStep
    (plan : List (α × Json)) (found : List α) (state : σ) :
    plan.foldl (probeStep transformer code expected) (found, state) =
      (((plan.filter fun planned => alters expected (answer code planned.2)).map
          Prod.fst).reverse ++ found,
        transformer.visit code (plan.map Prod.snd) state) := by
  induction plan generalizing found state with
  | nil =>
      rfl
  | cons planned rest inductionHypothesis =>
      rw [List.foldl_cons, probeStep_eq answers, inductionHypothesis]
      cases altered : alters expected (answer code planned.2) <;>
        simp [altered, Transformer.visit]

/-- A run of probes reports those that alter the output, in order, and calls
the transformer once for each probe. -/
theorem probeAll_eq (plan : List (α × Json)) (state : σ) :
    probeAll transformer code expected plan state =
      ((plan.filter fun planned => alters expected (answer code planned.2)).map Prod.fst,
        transformer.visit code (plan.map Prod.snd) state) := by
  rw [probeAll, foldl_probeStep answers]
  simp

/-- The same for a plan that is made from a list of items. -/
theorem probeAll_map
    {β : Type} (items : List β) (report : β → α) (config : β → Json) (state : σ) :
    probeAll transformer code expected
        (items.map fun item => (report item, config item)) state =
      ((items.filter fun item => alters expected (answer code (config item))).map report,
        transformer.visit code (items.map config) state) := by
  rw [probeAll_eq answers, List.filter_map, List.map_map, List.map_map]
  simp only [Function.comp_def]

end Answered

/-! ## Searches that are let through -/

theorem checkCount_of_le
    {count : Nat} {options : Options}
    (withinLimit : count ≤ min options.maxFlags hardLimit) :
    checkCount count options = .ok () := by
  have notOver : ¬ min options.maxFlags hardLimit < count := by
    omega
  simp [checkCount, notOver]

theorem checkCount_of_imp_le
    {count : Nat} {options : Options}
    (withinLimit : options.strategy = .powerSet → count ≤ min options.maxFlags hardLimit) :
    checkCount count options = .ok () := by
  cases strategy : options.strategy with
  | linear =>
      simp [checkCount, strategy]
  | powerSet =>
      exact checkCount_of_le (withinLimit strategy)

/-- A search with an admitted number of flags and a baseline runs its plan. -/
theorem find_eq_runPlan
    {σ : Type} {transformer : Transformer σ}
    {answer : String → Json → Except Transform.Fault String}
    (answers : transformer.Answers answer)
    {code output : String} {record : Record} {options : Options}
    (withinLimit : (candidates record options).length ≤ min options.maxFlags hardLimit)
    (baselineOutput : answer code record.value = .ok output) (state : σ) :
    find transformer code record options state =
      (.ok (runPlan transformer code record (candidates record options)
          (Text.trim output) options.strategy
          (transformer.transform code record.value state).2).1,
        (runPlan transformer code record (candidates record options)
          (Text.trim output) options.strategy
          (transformer.transform code record.value state).2).2) := by
  have answered := answers code record.value state
  rw [baselineOutput] at answered
  simp [find, checkCount_of_le withinLimit, baseline, answered, Except.map]

end Search

end ShapeAudit
