import ShapeAudit.Config.Record
import ShapeAudit.Search.Triggered
import ShapeAudit.Transform.Basic

/-!
Searching for the flags whose value changes what a transformer makes of a source. The output under
the configuration as given is the baseline. Each probe runs under a configuration of its own, and
its output is compared with the baseline, blanks at both ends aside.
-/

namespace ShapeAudit.Search

open Config (Flag Record)

/-! ## Options -/

/-- What a search may do. -/
structure Options where
  /-- Whether flags whose name begins with `unsafe` take part. -/
  includeUnsafe : Bool := false
  strategy : Strategy := .linear
  /-- How many flags a search over all assignments may have. -/
  maxFlags : Nat := 16

/-- A search over all assignments that has too many flags. -/
structure Refusal where
  count : Nat
  limit : Nat
  deriving DecidableEq, Repr

/-- The wording of a refusal. -/
def Refusal.message (refusal : Refusal) : String :=
  "power-set search over " ++ Text.decimal refusal.count ++ " flags exceeds the limit of " ++
    Text.decimal refusal.limit

/-- Whether a name marks a flag as unsafe. -/
def isUnsafe (name : String) : Bool :=
  Text.startsWith name "unsafe"

/-- The flags that take part in a search, in order of their names. -/
def candidates (record : Record) (options : Options) : List Flag :=
  record.flags.filter fun flag => options.includeUnsafe || !isUnsafe flag.1

/-- The most flags that a search over all assignments can have at all. -/
def hardLimit : Nat := 63

/-- Refuses a search over all assignments of too many flags. -/
def checkCount (count : Nat) (options : Options) : Except Refusal Unit :=
  let limit := min options.maxFlags hardLimit
  if options.strategy = .powerSet ∧ limit < count then .error ⟨count, limit⟩ else .ok ()

/-- Whether a search may be made. -/
def ensureSearchable (record : Record) (options : Options) : Except Refusal Unit :=
  checkCount (candidates record options).length options

/-! ## Probes -/

/-- The outcome of a probe. -/
inductive Outcome where
  /-- The output differs from the baseline. -/
  | changed (output : String)
  /-- The output is the baseline. -/
  | unchanged
  /-- The transformer failed. -/
  | failed (message : String)
  deriving DecidableEq, Repr

/-- The outcome of a call, given the baseline. -/
def outcomeOf (baseline : String) : Except Transform.Fault String → Outcome
  | .ok output =>
    let trimmed := Text.trim output
    if trimmed == baseline then .unchanged else .changed trimmed
  | .error fault => .failed fault.message

/-- The output under the configuration as given, without the blanks at both ends. -/
def baseline {σ : Type} (transformer : Transformer σ) (code : String) (record : Record)
    (state : σ) : Except Transform.Fault String × σ :=
  let (result, after) := transformer.transform code record.value state
  (result.map Text.trim, after)

/-- Runs one probe. -/
def probe {σ : Type} (transformer : Transformer σ) (code : String) (config : Json)
    (expected : String) (state : σ) : Outcome × σ :=
  let (result, after) := transformer.transform code config state
  (outcomeOf expected result, after)

/-- Runs one probe and adds its report, last one first, if it changes the output. -/
def probeStep {σ α : Type} (transformer : Transformer σ) (code expected : String)
    (progress : List α × σ) (planned : α × Json) : List α × σ :=
  let (outcome, after) := probe transformer code planned.2 expected progress.2
  match outcome with
  | .changed _ => (planned.1 :: progress.1, after)
  | _ => (progress.1, after)

/-- Runs probes one after the other; each comes with what to report if it changes the output. -/
def probeAll {σ α : Type} (transformer : Transformer σ) (code expected : String)
    (plan : List (α × Json)) (state : σ) : List α × σ :=
  let (found, final) := plan.foldl (probeStep transformer code expected) ([], state)
  (found.reverse, final)

/-! ## Plans -/

/-- The probes that turn one flag at a time, each with the name of the flag. -/
def linearPlan (record : Record) (flags : List Flag) : List (String × Json) :=
  flags.map fun flag => (flag.1, record.withFlag flag.1 (!flag.2))

/-- The word in which one bit is set. -/
def bitAt (place : Nat) : UInt64 :=
  1 <<< UInt64.ofNat place

/-- The assignment that a word stands for: the flag in place `j` has bit `j` as its value. -/
def assignment (flags : List Flag) (mask : UInt64) : List Flag :=
  flags.zipIdx.map fun entry => (entry.1.1, mask &&& bitAt entry.2 != 0)

/-- The words of all assignments of a number of flags, in increasing order. -/
def masks (count : Nat) : List UInt64 :=
  (List.range (bitAt count).toNat).map UInt64.ofNat

/-- The names of the flags whose value an assignment changes. -/
def differing (flags assigned : List Flag) : List String :=
  ((flags.zip assigned).filter fun pair => pair.1.2 != pair.2.2).map fun pair => pair.1.1

/-- The probe of one assignment. -/
def assignmentProbe (record : Record) (flags : List Flag) (mask : UInt64) : List String × Json :=
  let assigned := assignment flags mask
  (nameSet (differing flags assigned), record.withFlags assigned)

/-- The probes of all assignments, in order of their words. -/
def powerSetPlan (record : Record) (flags : List Flag) : List (List String × Json) :=
  (masks flags.length).map (assignmentProbe record flags)

/-! ## Searching -/

/-- Runs the probes of a strategy. -/
def runPlan {σ : Type} (transformer : Transformer σ) (code : String) (record : Record)
    (flags : List Flag) (expected : String) (strategy : Strategy) (state : σ) : Triggered × σ :=
  match strategy with
  | .linear =>
    let (names, final) := probeAll transformer code expected (linearPlan record flags) state
    (.linear names, final)
  | .powerSet =>
    let (sets, final) := probeAll transformer code expected (powerSetPlan record flags) state
    (.powerSet sets, final)

/-- Finds the flags of a configuration that change the output. If the transformer fails on the
configuration as given, nothing is found. -/
def find {σ : Type} (transformer : Transformer σ) (code : String) (record : Record)
    (options : Options) (state : σ) : Except Refusal Triggered × σ :=
  let flags := candidates record options
  match checkCount flags.length options with
  | .error refusal => (.error refusal, state)
  | .ok () =>
    let (result, after) := baseline transformer code record state
    match result with
    | .error _ => (.ok (.empty options.strategy), after)
    | .ok expected =>
      let (found, final) := runPlan transformer code record flags expected options.strategy after
      (.ok found, final)

end ShapeAudit.Search
