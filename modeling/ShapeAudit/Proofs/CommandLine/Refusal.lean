import ShapeAudit.Proofs.CommandLine.Find
import ShapeAudit.Proofs.Search.Calls

/-!
# Refused searches

A search over all assignments of too many flags is refused, and the same gate
stands before a single search, a search of files and the whole command.  Behind
it nothing has happened yet: no call was made, nothing was written, no file was
opened.  The gate also keeps the words of a search exact.  A shift by 64 places
would wrap around, and no user can raise the limit that far.
-/

namespace ShapeAudit

namespace Search

open Config (Record)

/-! ## The gate -/

/-- A bit has its value in a word exactly for the numbers of flags that a search
over all assignments can have. -/
theorem toNat_bitAt_eq_iff (place : Nat) :
    (bitAt place).toNat = 2 ^ place ↔ place ≤ hardLimit := by
  constructor
  · intro isExact
    have below : 2 ^ place < 2 ^ 64 := by
      rw [← isExact]
      exact (bitAt place).toNat_lt
    have placeBelow : place < 64 := (Nat.pow_lt_pow_iff_right (by decide)).mp below
    rw [hardLimit]
    omega
  · intro within
    rw [hardLimit] at within
    exact toNat_bitAt (by omega)

theorem checkCount_eq_error_iff {count : Nat} {options : Options} {refusal : Refusal} :
    checkCount count options = .error refusal ↔
      options.strategy = .powerSet ∧ min options.maxFlags hardLimit < count ∧
        refusal = ⟨count, min options.maxFlags hardLimit⟩ := by
  by_cases exceeded : options.strategy = .powerSet ∧ min options.maxFlags hardLimit < count
  · simp [checkCount, exceeded, eq_comm]
  · have admitted : checkCount count options = .ok () := by
      simp only [checkCount, if_neg exceeded]
    rw [admitted]
    constructor
    · intro failed
      cases failed
    · intro isOver
      exact absurd ⟨isOver.1, isOver.2.1⟩ exceeded

theorem le_hardLimit_of_checkCount
    {count : Nat} {options : Options} (admitted : checkCount count options = .ok ())
    (allAssignments : options.strategy = .powerSet) :
    count ≤ hardLimit := by
  by_contra tooMany
  have exceeded : min options.maxFlags hardLimit < count := by
    omega
  have refused := checkCount_eq_error_iff.mpr ⟨allAssignments, exceeded, rfl⟩
  rw [admitted] at refused
  cases refused

section Gate

variable {σ : Type} (transformer : Transformer σ) (code : String) {record : Record}
  {options : Options}

theorem find_of_refused
    {refusal : Refusal} (refused : ensureSearchable record options = .error refusal)
    (state : σ) :
    find transformer code record options state = (.error refusal, state) := by
  rw [ensureSearchable] at refused
  simp only [find, refused]

theorem find_eq_error_iff (state : σ) (refusal : Refusal) :
    (find transformer code record options state).1 = .error refusal ↔
      ensureSearchable record options = .error refusal := by
  constructor
  · intro failed
    cases gate : ensureSearchable record options with
    | error other =>
        rw [find_of_refused transformer code gate] at failed
        cases failed
        rfl
    | ok _ =>
        obtain ⟨found, isFound⟩ := find_of_ensureSearchable transformer code gate state
        rw [isFound] at failed
        cases failed
  · intro refused
    rw [find_of_refused transformer code refused]

end Gate

/-! ## Behind the gate -/

/-- A search over all assignments of `n` flags makes `2 ^ n` rounds: both shifts
are exact, the words are the numbers below `2 ^ n` in order, and a call is made
for each of them behind the first one. -/
structure RunsInFull {σ : Type} (transformer : Transformer σ) (code : String) (record : Record)
    (options : Options) (state : σ) (count : Nat) : Prop where
  bound : (bitAt count).toNat = 2 ^ count
  bits : ∀ place, place < count → (bitAt place).toNat = 2 ^ place
  words : (masks count).map UInt64.toNat = List.range (2 ^ count)
  rounds : (powerSetPlan record (candidates record options)).length = 2 ^ count
  calls : ∀ output, (transformer.transform code record.value state).1 = .ok output →
    (find transformer.recorded code record options (state, [])).2.2.length = 2 ^ count + 1

theorem toNat_masks {count : Nat} (within : count ≤ hardLimit) :
    (masks count).map UInt64.toNat = List.range (2 ^ count) := by
  rw [masks_eq within, List.map_map]
  calc
    _ = (List.range (2 ^ count)).map id := by
      apply List.map_congr_left
      intro number inRange
      exact toNat_mask within (List.mem_range.mp inRange)
    _ = _ := List.map_id _

theorem runsInFull_of_admitted
    {σ : Type} (transformer : Transformer σ) (code : String) {record : Record}
    {options : Options} (admitted : ensureSearchable record options = .ok ())
    (allAssignments : options.strategy = .powerSet) (state : σ) :
    RunsInFull transformer code record options state (candidates record options).length := by
  have within := le_hardLimit_of_checkCount admitted allAssignments
  have small : options.strategy = .powerSet → (candidates record options).length ≤ 63 :=
    fun _ => within
  constructor
  · exact (toNat_bitAt_eq_iff _).mpr within
  · intro place inside
    apply (toNat_bitAt_eq_iff place).mpr
    omega
  · exact toNat_masks within
  · have numbers := congrArg List.length (toNat_masks within)
    simpa [powerSetPlan] using numbers
  · intro output answered
    rw [calls_of_baseline transformer admitted answered small, allAssignments]
    simp [plannedProbes]

end Search

namespace CommandLine

open Config (Record)
open Search (Refusal ensureSearchable)

/-! ## Before the gate -/

/-- A refused search does nothing at all, by itself, over files into any sink, and
as a command. -/
structure LeavesNoTrace {σ : Type} (transformer : Transformer σ) (code : String)
    (record : Record) (options : Search.Options) (state : σ) (refusal : Refusal) : Prop where
  /-- The state stays as it is. -/
  search : Search.find transformer code record options state = (.error refusal, state)
  /-- No call is noted down. -/
  calls : (Search.find transformer.recorded code record options (state, [])).2.2 = []
  /-- Neither transformer nor sink is used. -/
  files : ∀ (sink : Sink σ) (filesOf : σ → Files.Storage) (batchSize : Nat) (label : String)
    (paths : List String),
    Command.find transformer sink filesOf record options batchSize label paths state =
      (.error (.ofRefusal refusal), state)
  /-- The command reports the refusal and touches no file. -/
  program : ∀ {τ : Type} (workshop : Workshop τ) (situation : Situation)
    (arguments : List String) (request : Request) (choice : Choice) (batchSize : Option Nat)
    (output : String) (paths : List String) (equipment : Equipment τ),
    Request.ofArguments arguments = .ok request →
    request.task = .find choice options batchSize output paths →
    workshop.equip situation request choice batchSize = .ok equipment →
    equipment.record = record →
      workshop.execute situation arguments =
        ⟨ExitCode.invalidArguments.number, (Response.failed (.ofRefusal refusal)).text,
          situation.files⟩

theorem leavesNoTrace_of_refused
    {σ : Type} (transformer : Transformer σ) (code : String) {record : Record}
    {options : Search.Options} {refusal : Refusal}
    (refused : ensureSearchable record options = .error refusal) (state : σ) :
    LeavesNoTrace transformer code record options state refusal where
  search := Search.find_of_refused transformer code refused state
  calls := by
    rw [Search.find_of_refused transformer.recorded code refused]
  files := by
    intro sink filesOf batchSize label paths
    simp only [Command.find, refused]
  program := by
    intro τ workshop situation arguments request choice batchSize output paths equipment asked
      task equipped isRecord
    have intoNothing : workshop.searchInto equipment options output paths situation.files =
        (.error (.ofRefusal refusal), situation.files) := by
      rw [← isRecord] at refused
      simp only [Workshop.searchInto, refused]
    simp only [Workshop.execute, asked, Workshop.perform, task, equipped, intoNothing]
    rfl

/-- A search is refused exactly when it is one over all assignments of more flags
than the limit that was given, or than 63, and every refusal names the number and
the limit.  A refused search leaves no trace.  A search that is admitted finds
something for every source, and if it is over all assignments, it runs in full,
which no word of 64 bits would allow beyond that bound. -/
theorem refusal_leaves_no_trace_and_admission_is_exact
    {σ : Type} (transformer : Transformer σ) (code : String) (record : Record)
    (options : Search.Options) (state : σ) :
    (∀ refusal, (Search.find transformer code record options state).1 = .error refusal ↔
      ensureSearchable record options = .error refusal) ∧
    (∀ refusal, ensureSearchable record options = .error refusal ↔
      options.strategy = .powerSet ∧
        min options.maxFlags 63 < (Search.candidates record options).length ∧
        refusal = ⟨(Search.candidates record options).length, min options.maxFlags 63⟩) ∧
    (∀ refusal, ensureSearchable record options = .error refusal →
      LeavesNoTrace transformer code record options state refusal) ∧
    (ensureSearchable record options = .ok () →
      (∃ found, (Search.find transformer code record options state).1 = .ok found) ∧
      (options.strategy = .powerSet →
        Search.RunsInFull transformer code record options state
          (Search.candidates record options).length)) ∧
    ∀ count, (Search.bitAt count).toNat = 2 ^ count ↔ count ≤ 63 := by
  refine ⟨Search.find_eq_error_iff transformer code state,
    fun refusal => Search.checkCount_eq_error_iff,
    fun refusal refused => leavesNoTrace_of_refused transformer code refused state, ?_,
    Search.toNat_bitAt_eq_iff⟩
  intro admitted
  exact ⟨Search.find_of_ensureSearchable transformer code admitted state,
    fun allAssignments =>
      Search.runsInFull_of_admitted transformer code admitted allAssignments state⟩

/-- A configuration with 64 flags. -/
def manyFlags : Record where
  value := (Json.object [("switches", .object ((List.range 64).map fun place =>
    (String.singleton (Char.ofNat (48 + place)), .bool true)))]).arrange
  pointer := ⟨"/switches", by decide⟩
  ordered := Json.ordered_arrange _

/-- Arguments for a search over all assignments of no flags at all. -/
def refusedArguments : List String :=
  ["find-triggered-options", "-b", "--max-flags", "0", "--config", "config.json",
    "--flags-pointer", "", "-o", "out.json", "missing.js"]

/-- The request that those arguments make. -/
def refusedRequest : Request where
  cacheFolder := none
  timeoutSeconds := none
  task := .find { config := some "config.json", pointer := some "" }
    { strategy := .powerSet, maxFlags := 0 } none "out.json" ["missing.js"]

/-- With the largest limit that can be given, 64 flags are refused and no call is
made; one flag is probed with both values.  A refused command leaves the folder
alone. -/
theorem largest_limit_refuses_many_flags :
    Search.find Search.answersOnce.recorded "plain" manyFlags
        { strategy := .powerSet, maxFlags := 2 ^ 64 - 1 } (0, []) =
      (.error ⟨64, 63⟩, (0, [])) ∧
    (Search.find Search.answersOnce.recorded "plain" Search.mixedOptions
        { strategy := .powerSet, maxFlags := 2 ^ 64 - 1 } (0, [])).2.2.length = 2 ^ 1 + 1 ∧
    execute folderWithSummary refusedArguments =
      ⟨2, (Response.failed (.ofRefusal ⟨1, 0⟩)).text, folderWithSummary.files⟩ := by
  refine ⟨?_, ?_, ?_⟩
  · have refused : ensureSearchable manyFlags
        { strategy := .powerSet, maxFlags := 2 ^ 64 - 1 } = .error ⟨64, 63⟩ := by
      decide +kernel
    have gated := refusal_leaves_no_trace_and_admission_is_exact Search.answersOnce.recorded
      "plain" manyFlags { strategy := .powerSet, maxFlags := 2 ^ 64 - 1 } (0, [])
    exact (gated.2.2.1 _ refused).search
  · have admitted : ensureSearchable Search.mixedOptions
        { strategy := .powerSet, maxFlags := 2 ^ 64 - 1 } = .ok () := by
      decide +kernel
    have one : (Search.candidates Search.mixedOptions
        { strategy := .powerSet, maxFlags := 2 ^ 64 - 1 }).length = 1 := by
      decide +kernel
    have gated := refusal_leaves_no_trace_and_admission_is_exact Search.answersOnce "plain"
      Search.mixedOptions { strategy := .powerSet, maxFlags := 2 ^ 64 - 1 } 0
    rw [((gated.2.2.2.1 admitted).2 rfl).calls "plain" rfl, one]
  · have refused : (match (Workshop.standard folderWithSummary).equip folderWithSummary
          refusedRequest { config := some "config.json", pointer := some "" } none with
        | .ok equipment => decide (ensureSearchable equipment.record
            { strategy := .powerSet, maxFlags := 0 } = .error ⟨1, 0⟩)
        | .error _ => false) = true := by
      decide +kernel
    cases equipped : (Workshop.standard folderWithSummary).equip folderWithSummary
        refusedRequest { config := some "config.json", pointer := some "" } none with
    | error failure =>
        rw [equipped] at refused
        cases refused
    | ok equipment =>
        rw [equipped] at refused
        have gated := refusal_leaves_no_trace_and_admission_is_exact Search.answersOnce "plain"
          equipment.record { strategy := .powerSet, maxFlags := 0 } 0
        exact (gated.2.2.1 _ (of_decide_eq_true refused)).program
          (Workshop.standard folderWithSummary) folderWithSummary refusedArguments
          refusedRequest _ none "out.json" ["missing.js"] equipment rfl rfl equipped rfl

end CommandLine

end ShapeAudit
