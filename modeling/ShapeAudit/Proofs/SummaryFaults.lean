import ShapeAudit.Proofs.Summary

/-!
# Summaries after a fault

A batch is written by up to four calls of the sink, and the summary takes note of
the brace as soon as it is written but of the entries only after the last call.
When one call fails, closing the summary writes the batch once more, from where
the summary believes to be.  How far the batch had come decides whether the
result is still one object with every finding in it once.
-/

namespace ShapeAudit

/-! ## Sinks that fail -/

/-- Any call of a sink may fail, and then does nothing.  Text can be written behind
what is fine to be left as it is.  As long as the sink is ready no call has failed;
what is known after a fault may be less. -/
structure Sink.Wavers
    {σ : Type} (sink : Sink σ) (fine : List UInt8 → Prop) (ready spent : σ → List UInt8 → Prop) :
    Prop where
  write : ∀ {state held}, ready state held → fine held → ∀ text,
    (∃ after, sink.write text state = (.ok (), after) ∧
      ready after (held ++ Text.octets text)) ∨
    (∃ fault after, sink.write text state = (.error fault, after) ∧ spent after held)
  flush : ∀ {state held}, ready state held →
    (∃ after, sink.flush state = (.ok (), after) ∧ ready after held) ∨
    (∃ fault after, sink.flush state = (.error fault, after) ∧ spent after held)

/-- At most one call of a sink fails.  As long as the sink is ready, a call
succeeds or fails and does nothing; after the fault, no call fails. -/
structure Sink.Falters
    {σ : Type} (sink : Sink σ) (ready spent : σ → List UInt8 → Prop) : Prop where
  write : ∀ {state held}, ready state held → ∀ text,
    (∃ after, sink.write text state = (.ok (), after) ∧
      ready after (held ++ Text.octets text)) ∨
    (∃ fault after, sink.write text state = (.error fault, after) ∧ spent after held)
  flush : ∀ {state held}, ready state held →
    (∃ after, sink.flush state = (.ok (), after) ∧ ready after held) ∨
    (∃ fault after, sink.flush state = (.error fault, after) ∧ spent after held)
  keeps : sink.Keeps spent

theorem Sink.Falters.wavers
    {σ : Type} {sink : Sink σ} {ready spent : σ → List UInt8 → Prop}
    (falters : sink.Falters ready spent) :
    sink.Wavers (fun _ => True) ready spent where
  write := fun isReady _ => falters.write isReady
  flush := falters.flush

/-- A sink in memory that counts its calls and fails at the one with a number. -/
def Sink.failingAt (number : Nat) : Sink (Nat × Sink.Memory) where
  write text state :=
    if state.1 = number then (.error ⟨.other, "interrupted"⟩, (state.1 + 1, state.2))
    else
      let (result, after) := (Sink.memory none).write text state.2
      (result, (state.1 + 1, after))
  flush state :=
    if state.1 = number then (.error ⟨.other, "interrupted"⟩, (state.1 + 1, state.2))
    else
      let (result, after) := (Sink.memory none).flush state.2
      (result, (state.1 + 1, after))

/-- The call with a number is still to come. -/
def Sink.ReadyAt (number : Nat) (state : Nat × Sink.Memory) (held : List UInt8) : Prop :=
  state.1 ≤ number ∧ Text.octets state.2.written = held

/-- The call with a number is over. -/
def Sink.SpentAt (number : Nat) (state : Nat × Sink.Memory) (held : List UInt8) : Prop :=
  number < state.1 ∧ Text.octets state.2.written = held

theorem Sink.failingAt_write
    {number : Nat} {state : Nat × Sink.Memory} (notNow : state.1 ≠ number) (text : String) :
    (Sink.failingAt number).write text state =
      (.ok (), (state.1 + 1, { state.2 with written := state.2.written ++ text })) := by
  simp [failingAt, memory, notNow]

theorem Sink.failingAt_flush
    {number : Nat} {state : Nat × Sink.Memory} (notNow : state.1 ≠ number) :
    (Sink.failingAt number).flush state =
      (.ok (), (state.1 + 1, { state.2 with flushes := state.2.flushes + 1 })) := by
  simp [failingAt, memory, notNow]

theorem Sink.failingAt_falters (number : Nat) :
    (Sink.failingAt number).Falters (Sink.ReadyAt number) (Sink.SpentAt number) where
  write := by
    rintro state held ⟨early, rfl⟩ text
    by_cases isNow : state.1 = number
    · exact .inr ⟨⟨.other, "interrupted"⟩, (state.1 + 1, state.2), by simp [failingAt, isNow],
        Nat.lt_succ_of_le (Nat.le_of_eq isNow.symm), rfl⟩
    · exact .inl ⟨_, failingAt_write isNow text, Nat.lt_of_le_of_ne early isNow,
        Text.octets_append _ _⟩
  flush := by
    rintro state held ⟨early, rfl⟩
    by_cases isNow : state.1 = number
    · exact .inr ⟨⟨.other, "interrupted"⟩, (state.1 + 1, state.2), by simp [failingAt, isNow],
        Nat.lt_succ_of_le (Nat.le_of_eq isNow.symm), rfl⟩
    · exact .inl ⟨_, failingAt_flush isNow, Nat.lt_of_le_of_ne early isNow, rfl⟩
  keeps := {
    write := by
      rintro state held ⟨late, rfl⟩ text
      exact ⟨_, failingAt_write (Nat.ne_of_gt late) text, Nat.lt_succ_of_lt late,
        Text.octets_append _ _⟩
    flush := by
      rintro state held ⟨late, rfl⟩
      exact ⟨_, failingAt_flush (Nat.ne_of_gt late), Nat.lt_succ_of_lt late, rfl⟩ }

namespace Summary

/-! ## Steps that may fail -/

/-- A step succeeds with something or fails with something. -/
def Ends
    {σ ε : Type} (step : Summary × σ → Except ε Unit × (Summary × σ)) (before : Summary × σ)
    (succeeded failed : Summary × σ → Prop) : Prop :=
  (∃ after, step before = (.ok (), after) ∧ succeeded after) ∨
    (∃ fault after, step before = (.error fault, after) ∧ failed after)

theorem ends_andThen
    {σ : Type} {first second : Step σ} {before : Summary × σ}
    {between succeeded failed : Summary × σ → Prop}
    (firstEnds : Ends first before between failed)
    (secondEnds : ∀ middle, between middle → Ends second middle succeeded failed) :
    Ends (andThen first second) before succeeded failed := by
  rcases firstEnds with ⟨middle, succeeds, isBetween⟩ | ⟨fault, after, fails, hasFailed⟩
  · have both : andThen first second before = second middle := andThen_of_ok succeeds
    simpa only [Ends, both] using secondEnds middle isBetween
  · exact .inr ⟨fault, after, by simp [andThen, fails], hasFailed⟩

/-- A step that succeeds or fails with something does so with all that follows. -/
theorem Ends.imp
    {σ ε : Type} {step : Summary × σ → Except ε Unit × (Summary × σ)} {before : Summary × σ}
    {succeeded failed succeededSo failedSo : Summary × σ → Prop}
    (ends : Ends step before succeeded failed)
    (ifSucceeded : ∀ after, succeeded after → succeededSo after)
    (ifFailed : ∀ after, failed after → failedSo after) :
    Ends step before succeededSo failedSo := by
  rcases ends with ⟨after, succeeds, hasSucceeded⟩ | ⟨fault, after, fails, hasFailed⟩
  · exact .inl ⟨after, succeeds, ifSucceeded after hasSucceeded⟩
  · exact .inr ⟨fault, after, fails, ifFailed after hasFailed⟩

/-! ## Where a batch stops -/

/-- The brace, unless it was written before. -/
def bracePiece (summary : Summary) : String :=
  if summary.opened then "" else "\x7b\n"

/-- The comma, if there is something before it. -/
def commaPiece (summary : Summary) : String :=
  if 0 < summary.written then ",\n" else ""

/-- The call of the sink at which writing a batch stops. -/
inductive Stop where
  | brace
  | comma
  | entries
  | flush
  deriving DecidableEq, Repr

/-- What stands behind a text when the writing of a batch stops. -/
def Stop.text (summary : Summary) (text : String) : Stop → String
  | brace => text
  | comma => text ++ bracePiece summary
  | entries => text ++ bracePiece summary ++ commaPiece summary
  | flush => text ++ bracePiece summary ++ commaPiece summary ++ Text.join ",\n" summary.pending

/-- The steps up to a call and with it. -/
def Stop.through {σ : Type} (sink : Sink σ) : Stop → Step σ
  | brace => openObject sink
  | comma => andThen (openObject sink) (separate sink)
  | entries => andThen (andThen (openObject sink) (separate sink)) (writePending sink)
  | flush =>
    andThen (andThen (andThen (openObject sink) (separate sink)) (writePending sink))
      (flushSink sink)

/-- Everything before a call succeeds, and the call fails. -/
def Stop.At {σ : Type} (sink : Sink σ) (before : Summary × σ) : Stop → Prop
  | brace => (Stop.brace.through sink before).1 ≠ .ok ()
  | comma =>
    (Stop.brace.through sink before).1 = .ok () ∧ (Stop.comma.through sink before).1 ≠ .ok ()
  | entries =>
    (Stop.comma.through sink before).1 = .ok () ∧ (Stop.entries.through sink before).1 ≠ .ok ()
  | flush =>
    (Stop.entries.through sink before).1 = .ok () ∧ (Stop.flush.through sink before).1 ≠ .ok ()

/-- What a summary has noted when the writing of a batch stops. -/
def Stop.noted (summary : Summary) : Stop → Summary
  | brace => summary
  | _ => { summary with opened := true }

section Steps

variable {σ : Type} {sink : Sink σ} {fine : List UInt8 → Prop}
  {ready spent : σ → List UInt8 → Prop} (wavers : sink.Wavers fine ready spent)

include wavers

theorem emit_ends
    (summary : Summary) {state : σ} {text : String} (isHeld : ready state (Text.octets text))
    (isFine : fine (Text.octets text)) (more : String) :
    Ends (emit sink more) (summary, state)
      (fun after => after.1 = summary ∧ ready after.2 (Text.octets (text ++ more)))
      (fun after => after.1 = summary ∧ spent after.2 (Text.octets text)) := by
  rw [Text.octets_append]
  rcases wavers.write isHeld isFine more with
    ⟨after, written, nowHeld⟩ | ⟨fault, after, fails, asBefore⟩
  · exact .inl ⟨(summary, after), by simp [emit, written], rfl, nowHeld⟩
  · exact .inr ⟨fault, (summary, after), by simp [emit, fails], rfl, asBefore⟩

theorem flushSink_ends
    (summary : Summary) {state : σ} {held : List UInt8} (isHeld : ready state held) :
    Ends (flushSink sink) (summary, state)
      (fun after => after.1 = summary ∧ ready after.2 held)
      (fun after => after.1 = summary ∧ spent after.2 held) := by
  rcases wavers.flush isHeld with ⟨after, flushed, nowHeld⟩ | ⟨fault, after, fails, asBefore⟩
  · exact .inl ⟨(summary, after), by simp [flushSink, flushed], rfl, nowHeld⟩
  · exact .inr ⟨fault, (summary, after), by simp [flushSink, fails], rfl, asBefore⟩

/-- The summary notes the brace only after it is written. -/
theorem openObject_ends
    (summary : Summary) {state : σ} {text : String} (isHeld : ready state (Text.octets text))
    (isFine : fine (Text.octets text)) :
    Ends (openObject sink) (summary, state)
      (fun after => after.1 = { summary with opened := true } ∧
        ready after.2 (Text.octets (text ++ bracePiece summary)))
      (fun after => after.1 = summary ∧ spent after.2 (Text.octets text)) := by
  obtain ⟨batchSize, pending, written, opened⟩ := summary
  cases opened with
  | true =>
      exact .inl ⟨_, rfl, rfl, by simpa [bracePiece] using isHeld⟩
  | false =>
      refine ends_andThen (emit_ends wavers _ isHeld isFine _) ?_
      rintro ⟨_, after⟩ ⟨rfl, nowHeld⟩
      exact .inl ⟨_, rfl, rfl, nowHeld⟩

theorem separate_ends
    (summary : Summary) {state : σ} {text : String} (isHeld : ready state (Text.octets text))
    (isFine : fine (Text.octets text)) :
    Ends (separate sink) (summary, state)
      (fun after => after.1 = summary ∧
        ready after.2 (Text.octets (text ++ commaPiece summary)))
      (fun after => after.1 = summary ∧ spent after.2 (Text.octets text)) := by
  by_cases someWritten : 0 < summary.written
  · have separates : separate sink (summary, state) = emit sink ",\n" (summary, state) := by
      simp [separate, someWritten]
    simp only [Ends, separates, commaPiece, if_pos someWritten]
    exact emit_ends wavers summary isHeld isFine ",\n"
  · exact .inl ⟨(summary, state), by simp [separate, someWritten], rfl,
      by simpa [commaPiece, someWritten] using isHeld⟩

/-- A batch is written, or it stops at one of the four calls. -/
theorem flushBatch_stops
    (summary : Summary) (somePending : summary.pending ≠ []) {state : σ} {text : String}
    (isHeld : ready state (Text.octets text))
    (isFine : ∀ stop, fine (Text.octets (Stop.text summary text stop))) :
    Ends (flushBatch sink) (summary, state)
      (fun after => after.1 = settle { summary with opened := true } ∧
        ready after.2 (Text.octets (Stop.flush.text summary text)))
      (fun after => ∃ stop, Stop.At sink (summary, state) stop ∧
        after.1 = Stop.noted summary stop ∧
        spent after.2 (Text.octets (stop.text summary text))) := by
  have notIdle : summary.pending.isEmpty = false := by
    simpa using somePending
  rcases openObject_ends wavers summary isHeld (isFine .brace) with
    ⟨⟨_, opened⟩, opens, rfl, openedHeld⟩ | ⟨fault, after, fails, isNoted, asBefore⟩
  swap
  · exact .inr ⟨fault, after, by simp [flushBatch, andThen, fails], .brace,
      by simp [Stop.At, Stop.through, fails], isNoted, asBefore⟩
  rcases separate_ends wavers { summary with opened := true } openedHeld (isFine .comma) with
    ⟨⟨_, separated⟩, separates, rfl, separatedHeld⟩ | ⟨fault, after, fails, isNoted, asBefore⟩
  swap
  · exact .inr ⟨fault, after, by simp [flushBatch, andThen, opens, notIdle, fails], .comma,
      by simp [Stop.At, Stop.through, andThen, opens, fails], isNoted, asBefore⟩
  rcases emit_ends wavers { summary with opened := true } separatedHeld (isFine .entries)
    (Text.join ",\n" summary.pending) with
    ⟨⟨_, entered⟩, enters, rfl, enteredHeld⟩ | ⟨fault, after, fails, isNoted, asBefore⟩
  swap
  · exact .inr ⟨fault, after,
      by simp [flushBatch, andThen, opens, notIdle, separates, writePending, fails], .entries,
      by simp [Stop.At, Stop.through, andThen, opens, separates, writePending, fails], isNoted,
      asBefore⟩
  rcases flushSink_ends wavers { summary with opened := true } enteredHeld with
    ⟨⟨_, flushed⟩, flushes, rfl, flushedHeld⟩ | ⟨fault, after, fails, isNoted, asBefore⟩
  swap
  · exact .inr ⟨fault, after,
      by simp [flushBatch, andThen, opens, notIdle, separates, writePending, enters, fails], .flush,
      by simp [Stop.At, Stop.through, andThen, opens, separates, writePending, enters, fails],
      isNoted, asBefore⟩
  exact .inl ⟨(settle { summary with opened := true }, flushed),
    by simp [flushBatch, andThen, opens, notIdle, separates, writePending, enters, flushes, note],
    rfl, flushedHeld⟩

end Steps

/-! ## How far a batch has come -/

/-- What of a batch has been written. -/
inductive Reach where
  /-- Nothing. -/
  | nothing
  /-- The brace or the comma before its entries. -/
  | lead
  /-- Its entries, but the summary does not know of them. -/
  | entries
  deriving DecidableEq, Repr

/-- What has been written when some findings are in and the next batch has come
so far. -/
def Reach.text (written batch : List Finding) : Reach → String
  | nothing => beginning written
  | lead => beginning written ++ (if written.isEmpty then "\x7b\n" else ",\n")
  | entries => beginning (written ++ batch)

/-- Some findings are written, and the next batch has come so far. -/
structure Underway
    {σ : Type} (holds : σ → List UInt8 → Prop) (size : Nat) (written batch : List Finding)
    (reach : Reach) (progress : Summary × σ) : Prop where
  sized : progress.1.batchSize = size
  waiting : progress.1.pending = batch.map findingText
  counted : progress.1.written = written.length
  opened : progress.1.opened = !(written.isEmpty && reach == .nothing)
  held : holds progress.2 (Text.octets (reach.text written batch))

/-- How far a batch has come when it stops. -/
def Stop.reach (written : List Finding) : Stop → Reach
  | brace => .nothing
  | comma => if written.isEmpty then .lead else .nothing
  | entries => .lead
  | flush => .entries

section Batch

variable {σ : Type} {sink : Sink σ} {fine : List UInt8 → Prop}
  {ready spent : σ → List UInt8 → Prop} {size : Nat} {written batch : List Finding}
  {progress : Summary × σ}

/-- A batch that stops behind what is written leaves the text of how far it has
come. -/
theorem stop_text_of_recorded
    (recorded : Recorded ready size written batch progress) (someBatch : batch ≠ [])
    (stop : Stop) :
    stop.text progress.1 (beginning written) = (stop.reach written).text written batch := by
  obtain ⟨-, waiting, counted, opened, -⟩ := recorded
  cases written with
  | nil =>
      have first := beginning_first someBatch
      have blank : beginning [] = "" := rfl
      cases stop <;>
        simp [Stop.text, Stop.reach, Reach.text, bracePiece, commaPiece, waiting, counted, opened,
          first, blank]
  | cons finding rest =>
      have next := beginning_next (List.cons_ne_nil finding rest) someBatch
      rw [List.cons_append] at next
      cases stop <;>
        simp [Stop.text, Stop.reach, Reach.text, bracePiece, commaPiece, waiting, counted, opened,
          next]

variable (wavers : sink.Wavers fine ready spent)
  (isFine : ∀ (written batch : List Finding) (reach : Reach),
    fine (Text.octets (reach.text written batch)))

include wavers isFine

/-- A batch is written, or it stops somewhere on its way. -/
theorem flushBatch_ends
    (recorded : Recorded ready size written batch progress) (someBatch : batch ≠ []) :
    Ends (flushBatch sink) progress (Recorded ready size (written ++ batch) [])
      fun after => ∃ stop, Stop.At sink progress stop ∧
        Underway spent size written batch (stop.reach written) after := by
  have texts := stop_text_of_recorded recorded someBatch
  obtain ⟨summary, state⟩ := progress
  obtain ⟨sized, waiting, counted, opened, held⟩ := recorded
  dsimp only at sized waiting counted opened held texts
  have somePending : summary.pending ≠ [] := by
    simpa [waiting] using someBatch
  have fineAt : ∀ stop, fine (Text.octets (Stop.text summary (beginning written) stop)) :=
    fun stop => texts stop ▸ isFine written batch _
  refine (flushBatch_stops wavers summary somePending held fineAt).imp ?_ ?_
  · rintro ⟨_, after⟩ ⟨rfl, nowHeld⟩
    rw [texts] at nowHeld
    refine ⟨sized, rfl, ?_, ?_, nowHeld⟩
    · simp [settle, counted, waiting]
    · simp [settle, someBatch]
  · rintro ⟨_, after⟩ ⟨stop, stopsAt, rfl, nowHeld⟩
    rw [texts] at nowHeld
    refine ⟨stop, stopsAt, ?_, ?_, ?_, ?_, nowHeld⟩
    · cases stop <;> exact sized
    · cases stop <;> exact waiting
    · cases stop <;> exact counted
    · cases written <;> cases stop <;> simp [Stop.noted, Stop.reach, opened]

/-- A push records its finding, or the batch that the finding fills stops
somewhere on its way. -/
theorem push_ends
    {batchSize : Nat} {findings : List Finding}
    (records : Records ready batchSize findings progress) (finding : Finding) :
    Ends (push sink finding.1 finding.2) progress
      (Records ready batchSize (findings ++ [finding]))
      fun after => ∃ written batch stop, findings ++ [finding] = written ++ batch ∧ batch ≠ [] ∧
        Stop.At sink (waitingWith finding progress) stop ∧
        Underway spent (max batchSize 1) written batch (stop.reach written) after := by
  obtain ⟨written, pending, isSplit, somePending, recorded, waits | writes⟩ :=
    push_cases sink records finding
  · obtain ⟨few, pushed⟩ := waits
    exact .inl ⟨_, pushed, written, pending, isSplit, few, recorded⟩
  · rcases flushBatch_ends wavers isFine recorded somePending with
      ⟨after, flushed, settled⟩ | ⟨fault, after, fails, stop, stopsAt, underway⟩
    · have anyBatch : 0 < max batchSize 1 := by
        omega
      refine .inl ⟨after, ?_, written ++ pending, [], by simpa using isSplit, anyBatch, settled⟩
      rw [writes, flushed]
      rfl
    · refine .inr ⟨.io fault, after, ?_, written, pending, stop, isSplit, somePending, stopsAt,
        underway⟩
      rw [writes, fails]
      rfl

/-- Pushes that all succeed record their findings. -/
theorem records_of_pushAll
    {batchSize : Nat} {findings pushes : List Finding} {after : Summary × σ}
    (records : Records ready batchSize findings progress)
    (pushed : pushAll sink pushes progress = (.ok (), after)) :
    Records ready batchSize (findings ++ pushes) after := by
  induction pushes generalizing findings progress with
  | nil =>
      have same : progress = after := congrArg Prod.snd pushed
      simpa [← same] using records
  | cons finding rest inductionHypothesis =>
      rcases push_ends wavers isFine records finding with
        ⟨next, pushesOne, nextRecords⟩ | ⟨fault, next, fails, -⟩
      · rw [pushAll, pushesOne] at pushed
        simpa using inductionHypothesis nextRecords pushed
      · rw [pushAll, fails] at pushed
        cases pushed

end Batch

/-! ## Closing after a fault -/

/-- What is written when a batch that has come so far is written once more and the
summary is closed.  Only the brace is not written again. -/
def closedText (written batch : List Finding) (reach : Reach) : String :=
  reach.text written batch ++
    ((if written.isEmpty && reach == .nothing then "\x7b\n" else "") ++
      (if 0 < written.length then ",\n" else "") ++
      Text.join ",\n" (batch.map findingText)) ++
    "\n\x7d\n"

/-- Closing after the fault succeeds, wherever the batch stopped. -/
theorem finish_underway
    {σ : Type} {sink : Sink σ} {holds : σ → List UInt8 → Prop} (keeps : sink.Keeps holds)
    {size : Nat} {written batch : List Finding} {reach : Reach} {progress : Summary × σ}
    (someBatch : batch ≠ []) (underway : Underway holds size written batch reach progress) :
    ∃ closed, finish sink progress = (.ok (written ++ batch).length, closed) ∧
      holds closed.2 (Text.octets (closedText written batch reach)) := by
  obtain ⟨summary, state⟩ := progress
  obtain ⟨sized, waiting, counted, opened, held⟩ := underway
  dsimp only at waiting counted opened held
  have somePending : summary.pending ≠ [] := by
    simp [waiting, someBatch]
  obtain ⟨flushed, flushes, flushedHeld⟩ := flushBatch_ok keeps summary held somePending
  obtain ⟨closed, finished, closedHeld⟩ := finish_of_flushBatch keeps flushes flushedHeld
  have count : (settle { summary with opened := true }).written = (written ++ batch).length := by
    simp [settle, counted, waiting]
  have notZero : (written ++ batch).length ≠ 0 := by
    simp [someBatch]
  refine ⟨closed, count ▸ finished, ?_⟩
  rw [count, if_neg notZero] at closedHeld
  simp only [opened, counted, waiting, ← Text.octets_append] at closedHeld
  cases missing : written.isEmpty && reach == .nothing with
  | true =>
      simpa [closedText, missing] using closedHeld
  | false =>
      simpa [closedText, missing] using closedHeld

section Closed

variable {written batch : List Finding}

theorem closedText_nothing (someBatch : batch ≠ []) :
    closedText written batch .nothing = textOf (written ++ batch) := by
  have notEmpty : written ++ batch ≠ [] := List.append_ne_nil_of_right_ne_nil written someBatch
  rw [← beginning_close notEmpty, ← beginning_batch someBatch]
  simp [closedText, Reach.text]

/-- The brace is not written again. -/
theorem closedText_lead_first (someBatch : batch ≠ []) :
    closedText [] batch .lead = textOf batch := by
  rw [← beginning_close someBatch, ← beginning_first someBatch]
  rfl

/-- A summary that goes astray behind some findings is not read. -/
theorem readEntries_beginning_astray
    {findings : List Finding} (notEmpty : findings ≠ []) {later : String}
    (astray : Json.Astray later.toList) (entries : List (String × Json)) :
    Json.readEntries (beginning findings ++ later) ≠ .ok entries := by
  have shown : beginning findings ++ later = String.ofList
      ('{' :: (Json.prettyMembers 1 true (membersOf findings) ++ later.toList)) := by
    apply String.toList_inj.mp
    simp [beginning, notEmpty]
  rw [shown]
  apply Json.readEntries_astray _ (legible_membersOf findings) astray
  simpa [membersOf] using notEmpty

theorem astray_two_commas (later : String) :
    Json.Astray (",\n,\n" ++ later).toList := by
  rw [String.toList_append]
  rintro c tail isNext
  cases isNext
  exact ⟨by decide, fun _ _ => nofun⟩

/-- The comma is written again. -/
theorem closedText_lead_next
    (someWritten : written ≠ []) (entries : List (String × Json)) :
    Json.readEntries (closedText written batch .lead) ≠ .ok entries := by
  have shown : closedText written batch .lead = beginning written ++
      (",\n,\n" ++ (Text.join ",\n" (batch.map findingText) ++ "\n\x7d\n")) := by
    have somePositive : 0 < written.length := List.length_pos_iff.mpr someWritten
    apply String.toList_inj.mp
    simp [closedText, Reach.text, someWritten, somePositive]
  rw [shown]
  exact readEntries_beginning_astray someWritten (astray_two_commas _) entries

/-- Behind the last entry comes the quote of the first one. -/
theorem astray_entries (someBatch : batch ≠ []) (later : String) :
    Json.Astray (Text.join ",\n" (batch.map findingText) ++ later).toList := by
  obtain ⟨finding, rest, rfl⟩ := List.exists_cons_of_ne_nil someBatch
  obtain ⟨tail, again⟩ : ∃ tail, (Text.join ",\n" ((finding :: rest).map findingText)).toList =
      ' ' :: ' ' :: '"' :: tail := by
    have joined := toList_join_findings finding rest
    rw [prettyMembers_cons, toList_findingText] at joined
    exact ⟨_, (List.cons.inj joined).2⟩
  rw [String.toList_append, again]
  rintro c tail isNext
  cases isNext
  exact ⟨by decide, fun isComma => absurd isComma (by decide)⟩

/-- The entries of the first batch are written again with no comma before them. -/
theorem closedText_entries_first
    (someBatch : batch ≠ []) (entries : List (String × Json)) :
    Json.readEntries (closedText [] batch .entries) ≠ .ok entries := by
  have shown : closedText [] batch .entries = beginning batch ++
      (Text.join ",\n" (batch.map findingText) ++ "\n\x7d\n") := by
    apply String.toList_inj.mp
    simp [closedText, Reach.text]
  rw [shown]
  exact readEntries_beginning_astray someBatch (astray_entries someBatch _) entries

/-- A later batch is written twice. -/
theorem closedText_entries_next (someWritten : written ≠ []) (someBatch : batch ≠ []) :
    closedText written batch .entries = textOf (written ++ batch ++ batch) := by
  have notEmpty : written ++ batch ≠ [] := List.append_ne_nil_of_right_ne_nil written someBatch
  have somePositive : 0 < written.length := List.length_pos_iff.mpr someWritten
  rw [← beginning_close (List.append_ne_nil_of_right_ne_nil _ someBatch),
    ← beginning_next notEmpty someBatch]
  apply String.toList_inj.mp
  simp [closedText, Reach.text, somePositive]

/-- The closed summary has each finding once exactly if the call that failed had
nothing of the batch before it but the brace. -/
theorem closedText_reads_back_iff (someBatch : batch ≠ []) (reach : Reach) :
    (∃ entries, Json.readEntries (closedText written batch reach) = .ok entries ∧
      entries.Perm (membersOf (written ++ batch))) ↔
    reach = .nothing ∨ (reach = .lead ∧ written = []) := by
  cases reach with
  | nothing =>
      rw [closedText_nothing someBatch, readEntries_textOf]
      simp
  | lead =>
      by_cases noneWritten : written = []
      · subst noneWritten
        rw [closedText_lead_first someBatch, readEntries_textOf]
        simp
      · simp [closedText_lead_next noneWritten, noneWritten]
  | entries =>
      by_cases noneWritten : written = []
      · subst noneWritten
        simp [closedText_entries_first someBatch]
      · rw [closedText_entries_next noneWritten someBatch, readEntries_textOf]
        have notOnce : ¬ (membersOf (written ++ batch ++ batch)).Perm
            (membersOf (written ++ batch)) := by
          intro same
          have lengths := same.length_eq
          have somePositive : 0 < batch.length := List.length_pos_iff.mpr someBatch
          simp only [membersOf, List.length_map, List.length_append] at lengths
          omega
        simpa using notOnce

end Closed

/-- A push to a summary fails because one call of its sink fails, and the summary
is closed.  Closing succeeds.  What it leaves behind is read as one object with
every pushed finding in it once exactly if, before the call that failed, nothing
of the batch had been written, or no more than the brace of the whole object; it is
then the text of a summary without a fault. -/
theorem closing_after_fault_reads_back_iff
    {σ : Type} {sink : Sink σ} {ready spent : σ → List UInt8 → Prop}
    (falters : sink.Falters ready spent) {state : σ} (blank : ready state []) (batchSize : Nat)
    {pushes : List Finding} {last : Finding} {before after : Summary × σ} {fault : SummaryFault}
    (pushed : pushAll sink pushes (start batchSize, state) = (.ok (), before))
    (fails : push sink last.1 last.2 before = (.error fault, after)) :
    ∃ written batch reach closed,
      pushes ++ [last] = written ++ batch ∧ after.1.written = written.length ∧
      spent after.2 (Text.octets (reach.text written batch)) ∧
      finish sink after = (.ok (pushes.length + 1), closed) ∧
      spent closed.2 (Text.octets (closedText written batch reach)) ∧
      ((∃ entries, Json.readEntries (closedText written batch reach) = .ok entries ∧
          entries.Perm (membersOf (pushes ++ [last]))) ↔
        reach = .nothing ∨ (reach = .lead ∧ written = [])) ∧
      (reach = .nothing ∨ (reach = .lead ∧ written = []) →
        closedText written batch reach = textOf (pushes ++ [last])) := by
  have isFine : ∀ (written batch : List Finding) (reach : Reach),
      (fun _ : List UInt8 => True) (Text.octets (reach.text written batch)) :=
    fun _ _ _ => trivial
  have records := records_of_pushAll falters.wavers isFine (records_start blank batchSize) pushed
  rw [List.nil_append] at records
  rcases push_ends falters.wavers isFine records last with
    ⟨next, succeeds, -⟩ | ⟨_, _, failed, written, batch, stop, isSplit, someBatch, -, underway⟩
  · rw [succeeds] at fails
    cases fails
  · obtain ⟨-, rfl⟩ := Prod.mk.inj (failed.symm.trans fails)
    generalize stop.reach written = reach at underway
    obtain ⟨closed, finished, closedHeld⟩ := finish_underway falters.keeps someBatch underway
    have count : (written ++ batch).length = pushes.length + 1 := by
      rw [← isSplit, List.length_append, List.length_singleton]
    refine ⟨written, batch, reach, closed, isSplit, underway.counted, underway.held,
      count ▸ finished, closedHeld, ?_, ?_⟩
    · rw [isSplit]
      exact closedText_reads_back_iff someBatch reach
    · rw [isSplit]
      rintro (rfl | ⟨rfl, rfl⟩)
      · exact closedText_nothing someBatch
      · exact closedText_lead_first someBatch

/-- A finding to push. -/
def someFinding : Finding := ("a.js", .linear ["x"])

/-- Another one. -/
def otherFinding : Finding := ("b.js", .linear ["dead_code", "inline", "unsafe_math"])

/-- When the brace fails, closing writes it together with both findings. -/
theorem fault_at_brace_is_made_good :
    (Sink.failingAt 0).Falters (Sink.ReadyAt 0) (Sink.SpentAt 0) ∧
    ∃ before after fault closed,
      pushAll (Sink.failingAt 0) [someFinding] (start 2, (0, {})) = (.ok (), before) ∧
      push (Sink.failingAt 0) otherFinding.1 otherFinding.2 before = (.error fault, after) ∧
      finish (Sink.failingAt 0) after = (.ok 2, closed) ∧
      closed.2.2.written = textOf [someFinding, otherFinding] := by
  have falters := Sink.failingAt_falters 0
  have pushed : pushAll (Sink.failingAt 0) [someFinding] (start 2, (0, {})) =
      (.ok (), (⟨2, [findingText someFinding], 0, false⟩, (0, {}))) := rfl
  have fails : push (Sink.failingAt 0) otherFinding.1 otherFinding.2
      (⟨2, [findingText someFinding], 0, false⟩, (0, {})) =
      (.error (.io ⟨.other, "interrupted"⟩),
        (⟨2, [findingText someFinding, findingText otherFinding], 0, false⟩, (1, {}))) := rfl
  obtain ⟨written, batch, reach, closed, isSplit, counted, ⟨-, held⟩, finished, ⟨-, closedHeld⟩, -,
    asWhole⟩ := closing_after_fault_reads_back_iff falters ⟨Nat.le_refl 0, rfl⟩ 2 pushed fails
  refine ⟨falters, _, _, _, closed, pushed, fails, finished, ?_⟩
  -- nothing is held, so the batch had not begun
  obtain rfl : written = [] := List.length_eq_zero_iff.mp counted.symm
  obtain rfl : [someFinding, otherFinding] = batch := isSplit
  have nothingHeld : reach.text [] [someFinding, otherFinding] = "" :=
    (Text.octets_injective held).symm
  have notBegun : reach = .nothing := by
    cases reach with
    | nothing =>
        rfl
    | lead =>
        exact absurd nothingHeld (by decide)
    | entries =>
        have characters := congrArg String.toList nothingHeld
        simp [Reach.text, beginning] at characters
  rw [Text.octets_injective closedHeld, asWhole (.inl notBegun)]
  rfl

/-- Where the entries of the second batch fail, closing leaves two commas behind,
and where the flush after them fails, it leaves the entries behind twice.  Two
commas are also all that closing leaves behind in a sink that is too small for the
second batch, and nothing that might be written after them makes it an object. -/
theorem fault_behind_comma_spoils_object :
    (∃ before after fault closed,
      pushAll (Sink.failingAt 4) [someFinding] (start 1, (0, {})) = (.ok (), before) ∧
      push (Sink.failingAt 4) otherFinding.1 otherFinding.2 before = (.error (.io fault), after) ∧
      finish (Sink.failingAt 4) after = (.ok 2, closed) ∧
      ∀ entries, Json.readEntries closed.2.2.written ≠ .ok entries) ∧
    (∃ before after fault closed,
      pushAll (Sink.failingAt 5) [someFinding] (start 1, (0, {})) = (.ok (), before) ∧
      push (Sink.failingAt 5) otherFinding.1 otherFinding.2 before = (.error (.io fault), after) ∧
      finish (Sink.failingAt 5) after = (.ok 2, closed) ∧
      Json.readEntries closed.2.2.written =
        .ok (membersOf [someFinding, otherFinding, otherFinding])) ∧
    (∃ after fault closed,
      pushAll (Sink.memory (some 60)) [someFinding, otherFinding] (start 1, {}) =
        (.error (.io fault), after) ∧
      finish (Sink.memory (some 60)) after = (.error (.io fault), closed) ∧
      closed.2.written = "\x7b\n  \"a.js\": [\n    \"x\"\n  ],\n,\n" ∧
      ∀ later entries, Json.readEntries (closed.2.written ++ later) ≠ .ok entries) := by
  have first : "" ++ "\x7b\n" ++ Text.join ",\n" [findingText someFinding] =
      beginning [someFinding] := by
    rw [← beginning_first (List.cons_ne_nil someFinding [])]
    rfl
  refine ⟨?_, ?_, ?_⟩
  · have underway : Underway (Sink.SpentAt 4) 1 [someFinding] [otherFinding] .lead
        (⟨1, [findingText otherFinding], 1, true⟩,
          (5, ⟨"" ++ "\x7b\n" ++ Text.join ",\n" [findingText someFinding] ++ ",\n", 1⟩)) := by
      rw [first]
      exact ⟨rfl, rfl, rfl, rfl, by decide, rfl⟩
    obtain ⟨closed, finished, -, closedHeld⟩ :=
      finish_underway (Sink.failingAt_falters 4).keeps (List.cons_ne_nil _ _) underway
    refine ⟨_, _, ⟨.other, "interrupted"⟩, closed, rfl, rfl, finished, ?_⟩
    rw [Text.octets_injective closedHeld]
    exact closedText_lead_next (List.cons_ne_nil _ _)
  · have both := beginning_next (List.cons_ne_nil someFinding []) (List.cons_ne_nil otherFinding [])
    have underway : Underway (Sink.SpentAt 5) 1 [someFinding] [otherFinding] .entries
        (⟨1, [findingText otherFinding], 1, true⟩,
          (6, ⟨"" ++ "\x7b\n" ++ Text.join ",\n" [findingText someFinding] ++ ",\n" ++
            Text.join ",\n" [findingText otherFinding], 1⟩)) := by
      rw [first]
      exact ⟨rfl, rfl, rfl, rfl, by decide, congrArg Text.octets both⟩
    obtain ⟨closed, finished, -, closedHeld⟩ :=
      finish_underway (Sink.failingAt_falters 5).keeps (List.cons_ne_nil _ _) underway
    refine ⟨_, _, ⟨.other, "interrupted"⟩, closed, rfl, rfl, finished, ?_⟩
    rw [Text.octets_injective closedHeld,
      closedText_entries_next (List.cons_ne_nil _ _) (List.cons_ne_nil _ _)]
    exact readEntries_textOf _
  · have pushed : pushAll (Sink.memory (some 60)) [someFinding, otherFinding] (start 1, {}) =
        (.error (.io ⟨.other, "no space left"⟩), (⟨1, [findingText otherFinding], 1, true⟩,
          ⟨"\x7b\n  \"a.js\": [\n    \"x\"\n  ],\n", 1⟩)) := by
      decide +kernel
    have finished : finish (Sink.memory (some 60)) (⟨1, [findingText otherFinding], 1, true⟩,
          ⟨"\x7b\n  \"a.js\": [\n    \"x\"\n  ],\n", 1⟩) =
        (.error (.io ⟨.other, "no space left"⟩), (⟨1, [findingText otherFinding], 1, true⟩,
          ⟨"\x7b\n  \"a.js\": [\n    \"x\"\n  ],\n,\n", 1⟩)) := by
      decide +kernel
    have shown : "\x7b\n  \"a.js\": [\n    \"x\"\n  ],\n,\n" =
        beginning [someFinding] ++ ",\n,\n" := by
      decide +kernel
    refine ⟨_, _, _, pushed, finished, rfl, ?_⟩
    intro later entries
    rw [shown, String.append_assoc]
    exact readEntries_beginning_astray (List.cons_ne_nil _ _) (astray_two_commas later) entries

end Summary

end ShapeAudit
