import ShapeAudit.Files.Fault
import ShapeAudit.Json.Reader
import ShapeAudit.Json.Writer
import ShapeAudit.Search.Triggered

/-!
Writing the summary of a search: one JSON object that maps each input to its result. Entries are
kept until a batch is full and are then written together.
-/

namespace ShapeAudit

/-! ## Sinks -/

/-- Where text is written to; writing acts on a state and may fail. -/
structure Sink (σ : Type) where
  /-- Writes a text as a whole. -/
  write : String → σ → Except Files.Fault Unit × σ
  /-- Brings everything written to its destination. -/
  flush : σ → Except Files.Fault Unit × σ

namespace Sink

/-- What a sink in memory holds. -/
structure Memory where
  /-- Everything that was written. -/
  written : String := ""
  /-- How often the sink was flushed. -/
  flushes : Nat := 0
  deriving DecidableEq, Repr

/-- A sink in memory. A write that would take it past a limit of octets fails and writes nothing. -/
def memory (limit : Option Nat) : Sink Memory where
  write text state :=
    let after := state.written ++ text
    if limit.any fun most => decide (most < Text.octetCount after) then
      (.error ⟨.other, "no space left"⟩, state)
    else (.ok (), { state with written := after })
  flush state := (.ok (), { state with flushes := state.flushes + 1 })

/-- How many octets a buffer has room for. -/
def bufferSize : Nat := 8192

/-- Hands over what waits in a buffer. What is not taken goes on waiting. -/
def release {σ : Type} (deliver : String → σ → Except Files.Fault Unit × σ)
    (state : σ × String) : Except Files.Fault Unit × (σ × String) :=
  if state.2 = "" then (.ok (), state)
  else match deliver state.2 state.1 with
    | (.ok (), after) => (.ok (), (after, ""))
    | (.error fault, after) => (.error fault, (after, state.2))

/-- Puts a text into a buffer that has room for it. A text that would fill the whole buffer is
handed over at once. -/
def fill {σ : Type} (deliver : String → σ → Except Files.Fault Unit × σ) (text : String)
    (state : σ × String) : Except Files.Fault Unit × (σ × String) :=
  if bufferSize ≤ Text.octetCount text then
    let (result, after) := deliver text state.1
    (result, (after, state.2))
  else (.ok (), (state.1, state.2 ++ text))

/-- A sink with a buffer. If there is no room for a text, what waits is handed over first. -/
def buffered {σ : Type} (deliver : String → σ → Except Files.Fault Unit × σ) :
    Sink (σ × String) where
  write text state :=
    if bufferSize - Text.octetCount state.2 < Text.octetCount text then
      match release deliver state with
      | (.ok (), after) => fill deliver text after
      | (.error fault, after) => (.error fault, after)
    else fill deliver text state
  flush := release deliver

/-- A sink that works beside something that it leaves alone. -/
def beside {σ τ : Type} (sink : Sink τ) : Sink (σ × τ) where
  write text state :=
    let (result, after) := sink.write text state.2
    (result, (state.1, after))
  flush state :=
    let (result, after) := sink.flush state.2
    (result, (state.1, after))

end Sink

/-! ## Summaries -/

/-- Why a summary could not be written. -/
inductive SummaryFault where
  /-- The sink failed. -/
  | io (fault : Files.Fault)
  /-- An entry has no text. -/
  | unwritable (id : String) (error : Json.ReadError)
  deriving DecidableEq, Repr

/-- The wording of a fault. -/
def SummaryFault.message : SummaryFault → String
  | io fault => "failed to write summary: " ++ fault.message
  | unwritable id error =>
    "failed to serialize summary entry for " ++ id ++ ": " ++ error.message

/-- A summary that is being written. -/
structure Summary where
  /-- How many entries make a batch. -/
  batchSize : Nat
  /-- The entries that wait for their batch. -/
  pending : List String := []
  /-- How many entries were written. -/
  written : Nat := 0
  /-- Whether the opening brace was written. -/
  opened : Bool := false
  deriving DecidableEq, Repr

namespace Summary

/-- A new summary; a batch has at least one entry. -/
def start (batchSize : Nat) : Summary :=
  { batchSize := max batchSize 1 }

/-- How many entries were pushed. -/
def size (summary : Summary) : Nat :=
  summary.written + summary.pending.length

/-- The text of an entry, moved in by one level. -/
def entryText (id : String) (result : Search.Triggered) : String :=
  "  " ++ String.ofList (Json.quote id) ++ ": " ++ Text.replace result.toJson.pretty "\n" "\n  "

/-- A step of writing: it acts on the summary and on the state of the sink. -/
abbrev Step (σ : Type) := Summary × σ → Except Files.Fault Unit × (Summary × σ)

/-- Writes a text to the sink. -/
def emit {σ : Type} (sink : Sink σ) (text : String) : Step σ := fun (summary, state) =>
  let (result, after) := sink.write text state
  (result, (summary, after))

/-- Flushes the sink. -/
def flushSink {σ : Type} (sink : Sink σ) : Step σ := fun (summary, state) =>
  let (result, after) := sink.flush state
  (result, (summary, after))

/-- One step and, if it succeeds, another one. -/
def andThen {σ : Type} (first second : Step σ) : Step σ := fun before =>
  match first before with
  | (.ok (), after) => second after
  | (.error fault, after) => (.error fault, after)

/-- A change of the summary alone. -/
def note {σ : Type} (change : Summary → Summary) : Step σ := fun (summary, state) =>
  (.ok (), (change summary, state))

/-- Writes the opening brace, once. -/
def openObject {σ : Type} (sink : Sink σ) : Step σ := fun before =>
  if before.1.opened then (.ok (), before)
  else andThen (emit sink "\x7b\n") (note fun summary => { summary with opened := true }) before

/-- Writes the comma between batches. -/
def separate {σ : Type} (sink : Sink σ) : Step σ := fun before =>
  if 0 < before.1.written then emit sink ",\n" before else (.ok (), before)

/-- Writes the entries that are pending. -/
def writePending {σ : Type} (sink : Sink σ) : Step σ := fun before =>
  emit sink (Text.join ",\n" before.1.pending) before

/-- Takes the pending entries as written. -/
def settle (summary : Summary) : Summary :=
  { summary with written := summary.written + summary.pending.length, pending := [] }

/-- Writes a batch; the object is opened if that was not done before. -/
def flushBatch {σ : Type} (sink : Sink σ) : Step σ :=
  andThen (openObject sink) fun before =>
    if before.1.pending.isEmpty then (.ok (), before)
    else andThen (separate sink) (andThen (writePending sink)
      (andThen (flushSink sink) (note settle))) before

/-- Adds an entry, and writes a batch when it is full. -/
def push {σ : Type} (sink : Sink σ) (id : String) (result : Search.Triggered) :
    Summary × σ → Except SummaryFault Unit × (Summary × σ) := fun (summary, state) =>
  let added := { summary with pending := summary.pending ++ [entryText id result] }
  if added.batchSize ≤ added.pending.length then
    let (outcome, after) := flushBatch sink (added, state)
    (outcome.mapError .io, after)
  else (.ok (), (added, state))

/-- Writes the closing brace. -/
def closeObject {σ : Type} (sink : Sink σ) : Step σ := fun before =>
  emit sink (if before.1.written = 0 then "\x7d\n" else "\n\x7d\n") before

/-- Writes what is pending and closes the object; the number of entries. -/
def finish {σ : Type} (sink : Sink σ) (before : Summary × σ) :
    Except SummaryFault Nat × (Summary × σ) :=
  match andThen (flushBatch sink) (andThen (closeObject sink) (flushSink sink)) before with
  | (.ok (), after) => (.ok after.1.written, after)
  | (.error fault, after) => (.error (.io fault), after)

end Summary

end ShapeAudit
