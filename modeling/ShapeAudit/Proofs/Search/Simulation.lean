import ShapeAudit.Proofs.Search.Probe

/-!
# Searches side by side

Two transformers that give the same answers to the calls of a search find the
same, whatever states they keep.  From this follows what a search leaves alone,
and what it finds with a transformer that answers by a function.
-/

namespace ShapeAudit

/-- Two transformers answer alike on a source, under some configurations: their
answers are the same in related states, and the states stay related. -/
def Transformer.AnswersAlike
    {σ τ : Type} (first : Transformer σ) (second : Transformer τ)
    (code : String) (configs : List Json) (related : σ → τ → Prop) : Prop :=
  ∀ config ∈ configs, ∀ state other, related state other →
    (first.transform code config state).1 = (second.transform code config other).1 ∧
      related (first.transform code config state).2 (second.transform code config other).2

namespace Search

open Config (Flag Record)

/-- The configurations that the probes of a strategy run under. -/
def probed (record : Record) (flags : List Flag) : Strategy → List Json
  | .linear => (linearPlan record flags).map Prod.snd
  | .powerSet => (powerSetPlan record flags).map Prod.snd

/-- The configurations that a search can ask for: the one that is given, and
those of its probes. -/
def asked (record : Record) (options : Options) : List Json :=
  record.value :: probed record (candidates record options) options.strategy

section SideBySide

variable {σ τ α : Type} {first : Transformer σ} {second : Transformer τ}
  {code : String} {related : σ → τ → Prop} {state : σ} {other : τ}

theorem probeStep_alike
    {planned : α × Json} (alike : first.AnswersAlike second code [planned.2] related)
    (expected : String) (found : List α) (areRelated : related state other) :
    (probeStep first code expected (found, state) planned).1 =
        (probeStep second code expected (found, other) planned).1 ∧
      related (probeStep first code expected (found, state) planned).2
        (probeStep second code expected (found, other) planned).2 := by
  obtain ⟨sameAnswer, stillRelated⟩ :=
    alike planned.2 (List.mem_singleton_self _) state other areRelated
  simp only [probeStep, probe, ← sameAnswer]
  cases outcomeOf expected (first.transform code planned.2 state).1 with
  | changed output =>
      exact ⟨rfl, stillRelated⟩
  | unchanged =>
      exact ⟨rfl, stillRelated⟩
  | failed message =>
      exact ⟨rfl, stillRelated⟩

theorem foldl_probeStep_alike
    {plan : List (α × Json)} (alike : first.AnswersAlike second code (plan.map Prod.snd) related)
    (expected : String) (found : List α) (areRelated : related state other) :
    (plan.foldl (probeStep first code expected) (found, state)).1 =
        (plan.foldl (probeStep second code expected) (found, other)).1 ∧
      related (plan.foldl (probeStep first code expected) (found, state)).2
        (plan.foldl (probeStep second code expected) (found, other)).2 := by
  induction plan generalizing found state other with
  | nil =>
      exact ⟨rfl, areRelated⟩
  | cons planned rest inductionHypothesis =>
      have alikeHere : first.AnswersAlike second code [planned.2] related := by
        intro config isHere
        exact alike config (by simp_all)
      have alikeLater : first.AnswersAlike second code (rest.map Prod.snd) related := by
        intro config isLater
        exact alike config (List.mem_cons_of_mem _ isLater)
      obtain ⟨sameFound, stillRelated⟩ :=
        probeStep_alike alikeHere expected found areRelated
      rw [List.foldl_cons, List.foldl_cons]
      rcases firstStep : probeStep first code expected (found, state) planned with
        ⟨foundNext, next⟩
      rcases secondStep : probeStep second code expected (found, other) planned with
        ⟨sameNext, nextOther⟩
      rw [firstStep, secondStep] at sameFound stillRelated
      subst sameFound
      exact inductionHypothesis alikeLater foundNext stillRelated

theorem probeAll_alike
    {plan : List (α × Json)} (alike : first.AnswersAlike second code (plan.map Prod.snd) related)
    (expected : String) (areRelated : related state other) :
    (probeAll first code expected plan state).1 = (probeAll second code expected plan other).1 ∧
      related (probeAll first code expected plan state).2
        (probeAll second code expected plan other).2 := by
  obtain ⟨sameFound, stillRelated⟩ := foldl_probeStep_alike alike expected [] areRelated
  exact ⟨congrArg List.reverse sameFound, stillRelated⟩

theorem runPlan_alike
    {record : Record} {flags : List Flag} {strategy : Strategy}
    (alike : first.AnswersAlike second code (probed record flags strategy) related)
    (expected : String) (areRelated : related state other) :
    (runPlan first code record flags expected strategy state).1 =
        (runPlan second code record flags expected strategy other).1 ∧
      related (runPlan first code record flags expected strategy state).2
        (runPlan second code record flags expected strategy other).2 := by
  cases strategy with
  | linear =>
      obtain ⟨sameNames, stillRelated⟩ := probeAll_alike alike expected areRelated
      exact ⟨congrArg Triggered.linear sameNames, stillRelated⟩
  | powerSet =>
      obtain ⟨sameSets, stillRelated⟩ := probeAll_alike alike expected areRelated
      exact ⟨congrArg Triggered.powerSet sameSets, stillRelated⟩

/-- Transformers that answer alike find the same. -/
theorem find_alike
    {record : Record} {options : Options}
    (alike : first.AnswersAlike second code (asked record options) related)
    (areRelated : related state other) :
    (find first code record options state).1 = (find second code record options other).1 ∧
      related (find first code record options state).2
        (find second code record options other).2 := by
  obtain ⟨sameAnswer, stillRelated⟩ :=
    alike record.value List.mem_cons_self state other areRelated
  have alikeProbes :
      first.AnswersAlike second code
        (probed record (candidates record options) options.strategy) related := by
    intro config isProbed
    exact alike config (List.mem_cons_of_mem _ isProbed)
  cases admitted : checkCount (candidates record options).length options with
  | error refusal =>
      simp only [find, admitted]
      exact ⟨trivial, areRelated⟩
  | ok _ =>
      simp only [find, admitted, baseline, ← sameAnswer]
      cases (first.transform code record.value state).1 with
      | error fault =>
          exact ⟨rfl, stillRelated⟩
      | ok output =>
          obtain ⟨sameFound, finallyRelated⟩ :=
            runPlan_alike alikeProbes (Text.trim output) stillRelated
          exact ⟨congrArg Except.ok sameFound, finallyRelated⟩

end SideBySide

section Alone

variable {σ : Type} {transformer : Transformer σ} {code : String} {record : Record}
  {options : Options}

/-- What no call disturbs is not disturbed by a search. -/
theorem find_keeps
    (keeps : σ → Prop)
    (step : ∀ config ∈ asked record options, ∀ state, keeps state →
      keeps (transformer.transform code config state).2)
    {state : σ} (isKept : keeps state) :
    keeps (find transformer code record options state).2 := by
  have alike : transformer.AnswersAlike transformer code (asked record options)
      fun state other => state = other ∧ keeps state := by
    rintro config isAsked state _ ⟨rfl, isKept⟩
    exact ⟨rfl, rfl, step config isAsked state isKept⟩
  exact (find_alike alike ⟨rfl, isKept⟩).2.2

/-- A search that may be made is not refused. -/
theorem find_of_ensureSearchable
    (transformer : Transformer σ) (code : String) (allowed : ensureSearchable record options = .ok ()) (state : σ) :
    ∃ found, (find transformer code record options state).1 = .ok found := by
  rw [ensureSearchable] at allowed
  simp only [find, allowed]
  cases (baseline transformer code record state).1 with
  | error fault =>
      exact ⟨_, rfl⟩
  | ok expected =>
      exact ⟨_, rfl⟩

/-- A transformer that gives the answers of a function, as long as something
holds that its calls do not disturb, finds what the function alone does. -/
theorem exists_found_alone
    (allowed : ensureSearchable record options = .ok ())
    {answer : String → Json → Except Transform.Fault String} (keeps : σ → Prop)
    (step : ∀ config ∈ asked record options, ∀ state, keeps state →
      (transformer.transform code config state).1 = answer code config ∧
        keeps (transformer.transform code config state).2)
    {state : σ} (isKept : keeps state) (label : String) :
    ∃ found, (find transformer code record options state).1 = .ok found ∧
      (find (.ofFunction label answer) code record options ()).1 = .ok found := by
  have alike : transformer.AnswersAlike (.ofFunction label answer) code (asked record options)
      fun state _ => keeps state := by
    intro config isAsked state _ isKept
    exact step config isAsked state isKept
  obtain ⟨found, isFound⟩ := find_of_ensureSearchable transformer code allowed state
  exact ⟨found, isFound, (find_alike alike isKept).1.symm.trans isFound⟩

end Alone

end Search

end ShapeAudit
