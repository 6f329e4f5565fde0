import ShapeAudit.Proofs.Json.Indent
import ShapeAudit.Proofs.Json.ReadBack
import ShapeAudit.Proofs.Text.Octets
import ShapeAudit.Summary

/-!
# Summaries

A summary is written in batches, and the braces, commas and line breaks between
its entries are written at different times.  Whatever the batches are, the text
is the one of an object that is spread over lines, cut off behind some entry as
long as the summary is open.
-/

namespace ShapeAudit

/-! ## Sinks that do not fail -/

/-- Writing to a sink never fails and puts the octets of the text behind those
that it holds. -/
structure Sink.Keeps
    {σ : Type} (sink : Sink σ) (holds : σ → List UInt8 → Prop) : Prop where
  write : ∀ {state held}, holds state held → ∀ text, ∃ after,
    sink.write text state = (.ok (), after) ∧ holds after (held ++ Text.octets text)
  flush : ∀ {state held}, holds state held → ∃ after,
    sink.flush state = (.ok (), after) ∧ holds after held

/-- A sink in memory without a limit does not fail. -/
theorem Sink.memory_keeps :
    (Sink.memory none).Keeps fun state held => Text.octets state.written = held where
  write := by
    rintro state held rfl text
    exact ⟨_, rfl, Text.octets_append state.written text⟩
  flush := by
    rintro state held rfl
    exact ⟨_, rfl, rfl⟩

/-- A sink beside something else does not fail if the sink alone does not. -/
theorem Sink.beside_keeps
    {σ τ : Type} {sink : Sink τ} {holds : τ → List UInt8 → Prop} (keeps : sink.Keeps holds) :
    (sink.beside : Sink (σ × τ)).Keeps fun state => holds state.2 where
  write := by
    intro state held isHeld text
    obtain ⟨after, written, stillHeld⟩ := keeps.write isHeld text
    exact ⟨(state.1, after), by simp [Sink.beside, written], stillHeld⟩
  flush := by
    intro state held isHeld
    obtain ⟨after, flushed, stillHeld⟩ := keeps.flush isHeld
    exact ⟨(state.1, after), by simp [Sink.beside, flushed], stillHeld⟩

namespace Summary

/-! ## The text of a summary -/

/-- What is pushed to a summary: the name of an input and what was found. -/
abbrev Finding := String × Search.Triggered

/-- Findings as the members of an object. -/
def membersOf (findings : List Finding) : List (String × Json) :=
  findings.map fun finding => (finding.1, finding.2.toJson)

/-- The text of a finding in a summary. -/
def findingText (finding : Finding) : String :=
  entryText finding.1 finding.2

/-- The text of a summary of some findings. -/
def textOf (findings : List Finding) : String :=
  String.ofList ('{' :: (Json.prettyMembers 1 true (membersOf findings) ++
    (Json.lineAt 0 ++ ['}', '\n'])))

/-- What has been written when some findings are in and the summary is open.
The brace is written together with the first of them. -/
def beginning (findings : List Finding) : String :=
  if findings.isEmpty then ""
  else String.ofList ('{' :: Json.prettyMembers 1 true (membersOf findings))

theorem toList_findingText (finding : Finding) :
    (findingText finding).toList =
      ' ' :: ' ' :: (Json.quote finding.1 ++
        ':' :: ' ' :: Json.prettyChars 1 finding.2.toJson) := by
  simp [findingText, entryText, Json.toList_replace_pretty]

/-- A finding stands on a line of its own, behind a comma if it is not the first
one. -/
theorem prettyMembers_cons (first : Bool) (finding : Finding) (findings : List Finding) :
    Json.prettyMembers 1 first (membersOf (finding :: findings)) =
      (if first then [] else [',']) ++ '\n' :: ((findingText finding).toList ++
        Json.prettyMembers 1 false (membersOf findings)) := by
  rw [toList_findingText]
  simp [membersOf, Json.prettyMembers, Json.lineAt]

theorem prettyMembers_append
    {before : List Finding} (notEmpty : before ≠ []) (first : Bool) (after : List Finding) :
    Json.prettyMembers 1 first (membersOf (before ++ after)) =
      Json.prettyMembers 1 first (membersOf before) ++
        Json.prettyMembers 1 false (membersOf after) := by
  induction before generalizing first with
  | nil =>
      exact absurd rfl notEmpty
  | cons finding rest inductionHypothesis =>
      rw [List.cons_append, prettyMembers_cons, prettyMembers_cons]
      by_cases single : rest = []
      · subst single
        simp [membersOf, Json.prettyMembers]
      · rw [inductionHypothesis single]
        simp

/-- Findings that are joined by commas and line breaks are members on lines of
their own. -/
theorem toList_join_findings (finding : Finding) (findings : List Finding) :
    '\n' :: (Text.join ",\n" ((finding :: findings).map findingText)).toList =
      Json.prettyMembers 1 true (membersOf (finding :: findings)) := by
  induction findings generalizing finding with
  | nil =>
      rw [prettyMembers_cons]
      simp [Text.join, membersOf, Json.prettyMembers]
  | cons second rest inductionHypothesis =>
      have others := inductionHypothesis second
      rw [prettyMembers_cons] at others ⊢
      rw [prettyMembers_cons]
      simp only [List.map_cons, Text.join, String.toList_append] at others ⊢
      simp_all

/-- The first batch, behind the opening brace. -/
theorem beginning_first {findings : List Finding} (notEmpty : findings ≠ []) :
    "\x7b\n" ++ Text.join ",\n" (findings.map findingText) = beginning findings := by
  obtain ⟨finding, rest, rfl⟩ := List.exists_cons_of_ne_nil notEmpty
  apply String.toList_inj.mp
  simp [beginning, ← toList_join_findings]

/-- A later batch, behind a comma. -/
theorem beginning_next
    {written findings : List Finding} (someWritten : written ≠ []) (notEmpty : findings ≠ []) :
    beginning written ++ ",\n" ++ Text.join ",\n" (findings.map findingText) =
      beginning (written ++ findings) := by
  obtain ⟨finding, rest, rfl⟩ := List.exists_cons_of_ne_nil notEmpty
  have joined := toList_join_findings finding rest
  rw [prettyMembers_cons] at joined
  apply String.toList_inj.mp
  simp only [beginning, List.isEmpty_iff, someWritten, List.append_eq_nil_iff, false_and, if_false,
    String.toList_append, String.toList_ofList, prettyMembers_append someWritten]
  rw [prettyMembers_cons]
  simp_all

/-- The closing brace behind some findings. -/
theorem beginning_close {findings : List Finding} (notEmpty : findings ≠ []) :
    beginning findings ++ "\n\x7d\n" = textOf findings := by
  apply String.toList_inj.mp
  simp [beginning, textOf, notEmpty, Json.lineAt]

/-- What an open summary has written is where the text of any longer one begins. -/
theorem beginning_prefix (findings others : List Finding) :
    Text.octets (beginning findings) <+: Text.octets (textOf (findings ++ others)) := by
  by_cases isEmpty : findings = []
  · subst isEmpty
    exact List.nil_prefix
  · refine ⟨Text.octets (String.ofList (Json.prettyMembers 1 false (membersOf others) ++
      (Json.lineAt 0 ++ ['}', '\n']))), ?_⟩
    rw [← Text.octets_append]
    congr 1
    apply String.toList_inj.mp
    simp [beginning, textOf, isEmpty, prettyMembers_append isEmpty]

/-! ## Reading it back -/

theorem legible_ofTexts (limit depth : Nat) (names : List String) :
    Json.Legible (limit + 2) depth (Json.ofTexts names) := by
  apply Json.legible_array
  intro item isItem
  obtain ⟨name, -, rfl⟩ := List.mem_map.mp isItem
  exact Json.legible_text limit (depth + 1) name

/-- What was found is read back as it is. -/
theorem legible_toJson (limit depth : Nat) (result : Search.Triggered) :
    Json.Legible (limit + 3) depth result.toJson := by
  cases result with
  | linear names =>
      exact legible_ofTexts (limit + 1) depth names
  | powerSet sets =>
      apply Json.legible_array
      intro item isItem
      obtain ⟨names, -, rfl⟩ := List.mem_map.mp isItem
      exact legible_ofTexts limit (depth + 1) names

theorem legible_membersOf (findings : List Finding) :
    ∀ member ∈ membersOf findings, Json.Legible 127 1 member.2 := by
  intro member isMember
  obtain ⟨finding, -, rfl⟩ := List.mem_map.mp isMember
  exact legible_toJson 124 1 finding.2

/-- The text of a summary is read as its findings, in order. -/
theorem readEntries_textOf (findings : List Finding) :
    Json.readEntries (textOf findings) = .ok (membersOf findings) :=
  Json.readEntries_pretty (legible_membersOf findings)

/-! ## Steps of writing -/

section Steps

variable {σ : Type} {sink : Sink σ} {holds : σ → List UInt8 → Prop} (keeps : sink.Keeps holds)

theorem andThen_of_ok
    {first second : Step σ} {before after : Summary × σ}
    (succeeds : first before = (.ok (), after)) :
    andThen first second before = second after := by
  simp [andThen, succeeds]

include keeps

theorem emit_ok
    (summary : Summary) {state : σ} {held : List UInt8} (isHeld : holds state held)
    (text : String) :
    ∃ after, emit sink text (summary, state) = (.ok (), (summary, after)) ∧
      holds after (held ++ Text.octets text) := by
  obtain ⟨after, written, stillHeld⟩ := keeps.write isHeld text
  exact ⟨after, by simp [emit, written], stillHeld⟩

theorem flushSink_ok
    (summary : Summary) {state : σ} {held : List UInt8} (isHeld : holds state held) :
    ∃ after, flushSink sink (summary, state) = (.ok (), (summary, after)) ∧
      holds after held := by
  obtain ⟨after, flushed, stillHeld⟩ := keeps.flush isHeld
  exact ⟨after, by simp [flushSink, flushed], stillHeld⟩

/-- Opening writes the brace if it was not written before. -/
theorem openObject_ok
    (summary : Summary) {state : σ} {held : List UInt8} (isHeld : holds state held) :
    ∃ after,
      openObject sink (summary, state) = (.ok (), ({ summary with opened := true }, after)) ∧
        holds after (held ++ Text.octets (if summary.opened then "" else "\x7b\n")) := by
  obtain ⟨batchSize, pending, written, opened⟩ := summary
  cases opened with
  | true =>
      exact ⟨state, rfl, by simpa [Text.octets] using isHeld⟩
  | false =>
      obtain ⟨after, emitted, stillHeld⟩ :=
        emit_ok keeps ⟨batchSize, pending, written, false⟩ isHeld "\x7b\n"
      exact ⟨after, andThen_of_ok emitted, stillHeld⟩

/-- The comma is written if there is something before it. -/
theorem separate_ok
    (summary : Summary) {state : σ} {held : List UInt8} (isHeld : holds state held) :
    ∃ after,
      separate sink (summary, state) = (.ok (), (summary, after)) ∧
        holds after (held ++ Text.octets (if 0 < summary.written then ",\n" else "")) := by
  by_cases someWritten : 0 < summary.written
  · obtain ⟨after, emitted, stillHeld⟩ := emit_ok keeps summary isHeld ",\n"
    exact ⟨after, by simp [separate, someWritten, emitted], by simpa [someWritten] using stillHeld⟩
  · exact ⟨state, by simp [separate, someWritten],
      by simpa [someWritten, Text.octets] using isHeld⟩

theorem writePending_ok
    (summary : Summary) {state : σ} {held : List UInt8} (isHeld : holds state held) :
    ∃ after,
      writePending sink (summary, state) = (.ok (), (summary, after)) ∧
        holds after (held ++ Text.octets (Text.join ",\n" summary.pending)) :=
  emit_ok keeps summary isHeld (Text.join ",\n" summary.pending)

/-- A batch that is not empty is written behind what stands before it. -/
theorem flushBatch_ok
    (summary : Summary) {state : σ} {held : List UInt8} (isHeld : holds state held)
    (somePending : summary.pending ≠ []) :
    ∃ after,
      flushBatch sink (summary, state) =
          (.ok (), (settle { summary with opened := true }, after)) ∧
        holds after (held ++ Text.octets
          ((if summary.opened then "" else "\x7b\n") ++
            (if 0 < summary.written then ",\n" else "") ++
            Text.join ",\n" summary.pending)) := by
  obtain ⟨opened, opens, openedHeld⟩ := openObject_ok keeps summary isHeld
  obtain ⟨separated, separates, separatedHeld⟩ :=
    separate_ok keeps { summary with opened := true } openedHeld
  obtain ⟨written, writes, writtenHeld⟩ :=
    writePending_ok keeps { summary with opened := true } separatedHeld
  obtain ⟨flushed, flushes, flushedHeld⟩ :=
    flushSink_ok keeps { summary with opened := true } writtenHeld
  refine ⟨flushed, ?_, ?_⟩
  · rw [flushBatch, andThen_of_ok opens]
    simp only [List.isEmpty_iff, somePending, if_false]
    rw [andThen_of_ok separates, andThen_of_ok writes, andThen_of_ok flushes]
    rfl
  · simpa only [Text.octets_append, List.append_assoc] using flushedHeld

/-- An empty batch only opens the object. -/
theorem flushBatch_nil
    (summary : Summary) {state : σ} {held : List UInt8} (isHeld : holds state held)
    (nonePending : summary.pending = []) :
    ∃ after,
      flushBatch sink (summary, state) = (.ok (), ({ summary with opened := true }, after)) ∧
        holds after (held ++ Text.octets (if summary.opened then "" else "\x7b\n")) := by
  obtain ⟨opened, opens, openedHeld⟩ := openObject_ok keeps summary isHeld
  refine ⟨opened, ?_, openedHeld⟩
  rw [flushBatch, andThen_of_ok opens]
  simp [nonePending]

end Steps

/-! ## What a summary has recorded -/

/-- Some findings are written and others wait for their batch. -/
structure Recorded
    {σ : Type} (holds : σ → List UInt8 → Prop) (batchSize : Nat)
    (written pending : List Finding) (progress : Summary × σ) : Prop where
  batch : progress.1.batchSize = batchSize
  waiting : progress.1.pending = pending.map findingText
  counted : progress.1.written = written.length
  opened : progress.1.opened = !written.isEmpty
  held : holds progress.2 (Text.octets (beginning written))

/-- Some findings are recorded, in order, and fewer than a batch of them wait. -/
def Records
    {σ : Type} (holds : σ → List UInt8 → Prop) (batchSize : Nat)
    (findings : List Finding) (progress : Summary × σ) : Prop :=
  ∃ written pending, findings = written ++ pending ∧ pending.length < max batchSize 1 ∧
    Recorded holds (max batchSize 1) written pending progress

section Recording

variable {σ : Type} {sink : Sink σ} {holds : σ → List UInt8 → Prop} {batchSize : Nat}

theorem records_start {state : σ} (blank : holds state []) (batchSize : Nat) :
    Records holds batchSize [] (start batchSize, state) :=
  ⟨[], [], rfl, Nat.lt_of_lt_of_le Nat.one_pos (Nat.le_max_right _ _), rfl, rfl, rfl, rfl, blank⟩

theorem size_of_records
    {findings : List Finding} {progress : Summary × σ}
    (records : Records holds batchSize findings progress) :
    progress.1.size = findings.length := by
  obtain ⟨written, pending, rfl, -, recorded⟩ := records
  rw [size, recorded.counted, recorded.waiting, List.length_map, List.length_append]

theorem pending_of_records
    {findings : List Finding} {progress : Summary × σ}
    (records : Records holds batchSize findings progress) :
    progress.1.pending.length < max batchSize 1 := by
  obtain ⟨written, pending, rfl, few, recorded⟩ := records
  rwa [recorded.waiting, List.length_map]

/-- What has been written is where the text of the finished summary begins. -/
theorem prefix_of_records
    {findings : List Finding} {progress : Summary × σ}
    (records : Records holds batchSize findings progress) (others : List Finding) :
    ∃ held, holds progress.2 held ∧ held <+: Text.octets (textOf (findings ++ others)) := by
  obtain ⟨written, pending, rfl, -, recorded⟩ := records
  refine ⟨_, recorded.held, ?_⟩
  rw [List.append_assoc]
  exact beginning_prefix written (pending ++ others)

theorem held_of_records
    {findings : List Finding} {progress : Summary × σ}
    (records : Records holds batchSize findings progress) :
    ∃ held, holds progress.2 held := by
  obtain ⟨written, pending, -, -, recorded⟩ := records
  exact ⟨_, recorded.held⟩

/-- A state that holds the same has the same findings recorded. -/
theorem records_moved
    {findings : List Finding} {progress : Summary × σ}
    (records : Records holds batchSize findings progress) {state : σ}
    (moved : ∀ {held}, holds progress.2 held → holds state held) :
    Records holds batchSize findings (progress.1, state) := by
  obtain ⟨written, pending, isSplit, few, recorded⟩ := records
  exact ⟨written, pending, isSplit, few,
    { recorded with held := moved recorded.held }⟩

/-- The text of a batch behind what has been written. -/
theorem beginning_batch
    {written pending : List Finding} (somePending : pending ≠ []) :
    beginning written ++ ((if written.isEmpty then "\x7b\n" else "") ++
        (if 0 < written.length then ",\n" else "") ++
        Text.join ",\n" (pending.map findingText)) =
      beginning (written ++ pending) := by
  cases written with
  | nil =>
      simpa [beginning] using beginning_first somePending
  | cons finding rest =>
      have next := beginning_next (List.cons_ne_nil finding rest) somePending
      simpa [String.append_assoc] using next

/-- A finding waits behind the others. -/
def waitingWith (finding : Finding) (progress : Summary × σ) : Summary × σ :=
  ({ progress.1 with pending := progress.1.pending ++ [findingText finding] }, progress.2)

/-- A push lets its finding wait with the others, or writes the batch that it
fills. -/
theorem push_cases
    (sink : Sink σ) {findings : List Finding} {progress : Summary × σ}
    (records : Records holds batchSize findings progress) (finding : Finding) :
    ∃ written pending,
      findings ++ [finding] = written ++ pending ∧ pending ≠ [] ∧
      Recorded holds (max batchSize 1) written pending (waitingWith finding progress) ∧
      ((pending.length < max batchSize 1 ∧
          push sink finding.1 finding.2 progress = (.ok (), waitingWith finding progress)) ∨
        push sink finding.1 finding.2 progress =
          ((flushBatch sink (waitingWith finding progress)).1.mapError .io,
            (flushBatch sink (waitingWith finding progress)).2)) := by
  obtain ⟨summary, state⟩ := progress
  obtain ⟨written, pending, rfl, few, batch, waiting, counted, opened, held⟩ := records
  dsimp only at batch waiting counted opened held
  have added : Recorded holds (max batchSize 1) written (pending ++ [finding])
      (waitingWith finding (summary, state)) :=
    ⟨batch, by simp [waitingWith, waiting], counted, opened, held⟩
  refine ⟨written, pending ++ [finding], by simp, by simp, added, ?_⟩
  by_cases isFull : max batchSize 1 ≤ pending.length + 1
  · have fullBatch : summary.batchSize ≤ summary.pending.length + 1 := by
      simpa [batch, waiting] using isFull
    apply Or.inr
    simp [push, fullBatch, findingText, waitingWith]
  · have notFull : ¬ summary.batchSize ≤ summary.pending.length + 1 := by
      simpa [batch, waiting] using isFull
    refine Or.inl ⟨by simp; omega, ?_⟩
    simp [push, notFull, findingText, waitingWith]

include sink

variable (keeps : sink.Keeps holds)

include keeps

/-- A batch moves the findings that wait to those that are written. -/
theorem flushBatch_recorded
    {size : Nat} {written pending : List Finding} {progress : Summary × σ}
    (recorded : Recorded holds size written pending progress) (somePending : pending ≠ []) :
    ∃ after, flushBatch sink progress = (.ok (), after) ∧
      Recorded holds size (written ++ pending) [] after := by
  obtain ⟨summary, state⟩ := progress
  obtain ⟨batch, waiting, counted, opened, held⟩ := recorded
  dsimp only at batch waiting counted opened held
  have notEmpty : summary.pending ≠ [] := by
    rw [waiting]
    exact fun isEmpty => somePending (List.map_eq_nil_iff.mp isEmpty)
  obtain ⟨after, flushed, afterHeld⟩ := flushBatch_ok keeps summary held notEmpty
  refine ⟨_, flushed, batch, rfl, ?_, ?_, ?_⟩
  · simp [settle, counted, waiting]
  · simp [settle, somePending]
  · rw [← beginning_batch somePending, Text.octets_append]
    simpa [waiting, counted, opened] using afterHeld

/-- Pushing a finding records it behind the others. -/
theorem push_records
    {findings : List Finding} {progress : Summary × σ}
    (records : Records holds batchSize findings progress) (finding : Finding) :
    ∃ after, push sink finding.1 finding.2 progress = (.ok (), after) ∧
      Records holds batchSize (findings ++ [finding]) after := by
  obtain ⟨written, pending, isSplit, somePending, recorded, waits | writes⟩ :=
    push_cases sink records finding
  · obtain ⟨few, pushed⟩ := waits
    exact ⟨_, pushed, written, pending, isSplit, few, recorded⟩
  · obtain ⟨after, flushed, settled⟩ := flushBatch_recorded keeps recorded somePending
    have anyBatch : 0 < max batchSize 1 := by
      omega
    refine ⟨after, ?_, written ++ pending, [], by simpa using isSplit, anyBatch, settled⟩
    rw [writes, flushed]
    rfl

/-- Before the object is closed, it is open and everything is written. -/
theorem flushBatch_records
    {findings : List Finding} {progress : Summary × σ}
    (records : Records holds batchSize findings progress) :
    ∃ after, flushBatch sink progress = (.ok (), after) ∧
      after.1.written = findings.length ∧
      holds after.2 (Text.octets (if findings = [] then "\x7b\n" else beginning findings)) := by
  obtain ⟨summary, state⟩ := progress
  obtain ⟨written, pending, rfl, -, recorded⟩ := records
  by_cases nonePending : pending = []
  · subst nonePending
    obtain ⟨-, waiting, counted, opened, held⟩ := recorded
    dsimp only at waiting counted opened held
    obtain ⟨after, flushed, afterHeld⟩ := flushBatch_nil keeps summary held waiting
    refine ⟨_, flushed, by simpa using counted, ?_⟩
    rw [← Text.octets_append] at afterHeld
    cases written with
    | nil =>
        simpa [opened, beginning] using afterHeld
    | cons finding rest =>
        simpa [opened] using afterHeld
  · obtain ⟨after, flushed, settled⟩ := flushBatch_recorded keeps recorded nonePending
    refine ⟨after, flushed, settled.counted, ?_⟩
    rw [if_neg (List.append_ne_nil_of_right_ne_nil written nonePending)]
    exact settled.held

theorem closeObject_ok
    (summary : Summary) {state : σ} {held : List UInt8} (isHeld : holds state held) :
    ∃ after,
      closeObject sink (summary, state) = (.ok (), (summary, after)) ∧
        holds after (held ++ Text.octets (if summary.written = 0 then "\x7d\n" else "\n\x7d\n")) :=
  emit_ok keeps summary isHeld _

/-- A summary whose last batch is written is closed. -/
theorem finish_of_flushBatch
    {progress after : Summary × σ} (flushes : flushBatch sink progress = (.ok (), after))
    {held : List UInt8} (isHeld : holds after.2 held) :
    ∃ closed, finish sink progress = (.ok after.1.written, closed) ∧
      holds closed.2
        (held ++ Text.octets (if after.1.written = 0 then "\x7d\n" else "\n\x7d\n")) := by
  obtain ⟨summary, flushed⟩ := after
  obtain ⟨closed, closes, closedHeld⟩ := closeObject_ok keeps summary isHeld
  obtain ⟨final, settles, finalHeld⟩ := flushSink_ok keeps summary closedHeld
  have steps : andThen (flushBatch sink) (andThen (closeObject sink) (flushSink sink)) progress =
      (.ok (), (summary, final)) := by
    rw [andThen_of_ok flushes, andThen_of_ok closes, settles]
  exact ⟨(summary, final), by simp [finish, steps], finalHeld⟩

/-- Finishing a summary completes its text. -/
theorem finish_records
    {findings : List Finding} {progress : Summary × σ}
    (records : Records holds batchSize findings progress) :
    ∃ after, finish sink progress = (.ok findings.length, after) ∧
      holds after.2 (Text.octets (textOf findings)) := by
  obtain ⟨flushed, flushes, counted, flushedHeld⟩ := flushBatch_records keeps records
  obtain ⟨closed, finished, closedHeld⟩ := finish_of_flushBatch keeps flushes flushedHeld
  refine ⟨closed, counted ▸ finished, ?_⟩
  rw [← Text.octets_append, counted] at closedHeld
  by_cases isEmpty : findings = []
  · subst isEmpty
    exact closedHeld
  · simpa [isEmpty, beginning_close isEmpty] using closedHeld

end Recording

/-! ## Whole summaries -/

/-- Pushes findings one after the other, up to the first one that fails. -/
def pushAll {σ : Type} (sink : Sink σ) :
    List Finding → Summary × σ → Except SummaryFault Unit × (Summary × σ)
  | [], progress => (.ok (), progress)
  | finding :: rest, progress =>
      match push sink finding.1 finding.2 progress with
      | (.ok (), after) => pushAll sink rest after
      | (.error fault, after) => (.error fault, after)

theorem pushAll_records
    {σ : Type} {sink : Sink σ} {holds : σ → List UInt8 → Prop} (keeps : sink.Keeps holds)
    {batchSize : Nat} {findings : List Finding} {progress : Summary × σ}
    (records : Records holds batchSize findings progress) (pushes : List Finding) :
    ∃ after, pushAll sink pushes progress = (.ok (), after) ∧
      Records holds batchSize (findings ++ pushes) after := by
  induction pushes generalizing findings progress with
  | nil =>
      exact ⟨progress, rfl, by simpa using records⟩
  | cons finding rest inductionHypothesis =>
      obtain ⟨next, pushed, nextRecords⟩ := push_records keeps records finding
      obtain ⟨after, run, afterRecords⟩ := inductionHypothesis nextRecords
      exact ⟨after, by simp [pushAll, pushed, run], by simpa using afterRecords⟩

/-- A summary that is written to a sink that does not fail.  While findings are
pushed, the summary counts them, keeps less than a batch of them back, and has
written a beginning of the final text.  The final text depends on the findings
alone, and it is read as one object with the findings as its members, in order. -/
theorem summary_reads_as_its_findings
    {σ : Type} {sink : Sink σ} {holds : σ → List UInt8 → Prop} (keeps : sink.Keeps holds)
    {state : σ} (blank : holds state []) (batchSize : Nat) (findings : List Finding) :
    (∀ done later, findings = done ++ later →
      ∃ after, pushAll sink done (start batchSize, state) = (.ok (), after) ∧
        after.1.size = done.length ∧
        after.1.pending.length < max batchSize 1 ∧
        ∃ written, holds after.2 written ∧ written <+: Text.octets (textOf findings)) ∧
    (∃ pushed closed,
      pushAll sink findings (start batchSize, state) = (.ok (), pushed) ∧
      finish sink pushed = (.ok findings.length, closed) ∧
      holds closed.2 (Text.octets (textOf findings))) ∧
    Text.decode? (Text.octets (textOf findings)) = some (textOf findings) ∧
    Json.readEntries (textOf findings) = .ok (membersOf findings) ∧
    Json.read (textOf findings) = .ok (.object (Json.ordered (membersOf findings))) := by
  have start := records_start blank batchSize
  have entries := readEntries_textOf findings
  refine ⟨?_, ?_, Text.decode?_octets _, entries, Json.read_of_readEntries entries⟩
  · rintro done later rfl
    obtain ⟨after, pushed, records⟩ := pushAll_records keeps start done
    rw [List.nil_append] at records
    exact ⟨after, pushed, size_of_records records, pending_of_records records,
      prefix_of_records records later⟩
  · obtain ⟨pushed, pushes, records⟩ := pushAll_records keeps start findings
    rw [List.nil_append] at records
    obtain ⟨closed, finished, held⟩ := finish_records keeps records
    exact ⟨pushed, closed, pushes, finished, held⟩

/-- Findings whose names have to be escaped. -/
def awkwardFindings : List Finding :=
  [("a \"quoted\".js", .linear ["line\nbreak", "back\\slash"]),
    ("\x01\x7f\t", .powerSet [[], ["\x00", "µ"]]),
    ("", .linear [])]

/-- Names that have to be escaped are read back; the last batch is not full. -/
theorem awkward_summary_reads_back :
    Sink.Keeps (Sink.memory none) (fun state held => Text.octets state.written = held) ∧
    Text.octets ({} : Sink.Memory).written = [] ∧
    (∃ pushed closed,
      pushAll (Sink.memory none) awkwardFindings (start 2, {}) = (.ok (), pushed) ∧
      finish (Sink.memory none) pushed = (.ok 3, closed) ∧
      Text.octets closed.2.written = Text.octets (textOf awkwardFindings)) ∧
    Json.readEntries (textOf awkwardFindings) = .ok (membersOf awkwardFindings) := by
  have blank : Text.octets ({} : Sink.Memory).written = [] := rfl
  obtain ⟨-, written, -, entries, -⟩ :=
    summary_reads_as_its_findings Sink.memory_keeps blank 2 awkwardFindings
  exact ⟨Sink.memory_keeps, blank, written, entries⟩

end Summary

end ShapeAudit
