import ShapeAudit.Proofs.SummaryFaults

/-!
# Closing a summary

When any call of the sink may fail, closing a summary either writes its closing
brace, or stops at a text that is no object, wherever it stops and wherever a
batch had stopped before it.  Behind a buffer less may have arrived than was
written; then, too, it is a text that was held once before the closing brace.
-/

namespace ShapeAudit

namespace Summary

/-! ## Texts that are cut off -/

/-- A text of a summary without the closing brace: nothing or the opening brace,
or some findings and something behind them at which reading gives up. -/
def Unfinished (text : String) : Prop :=
  text = "" ∨ text = "\x7b\n" ∨
    ∃ findings later, findings ≠ [] ∧ Json.Astray later.toList ∧
      text = beginning findings ++ later

theorem readEntries_unfinished
    {text : String} (unfinished : Unfinished text) (entries : List (String × Json)) :
    Json.readEntries text ≠ .ok entries := by
  rcases unfinished with rfl | rfl | ⟨findings, later, someFindings, astray, rfl⟩
  · intro reads
    cases reads
  · intro reads
    cases reads
  · exact readEntries_beginning_astray someFindings astray entries

section Cut

variable {findings batch : List Finding} (someFindings : findings ≠ [])

theorem unfinished_beginning (findings : List Finding) : Unfinished (beginning findings) := by
  by_cases noFindings : findings = []
  · subst noFindings
    exact Or.inl rfl
  · exact Or.inr (Or.inr ⟨findings, "", noFindings, nofun, by simp⟩)

include someFindings

theorem unfinished_comma : Unfinished (beginning findings ++ ",\n") := by
  refine Or.inr (Or.inr ⟨findings, ",\n", someFindings, ?_, rfl⟩)
  rintro c tail isNext
  cases isNext
  exact ⟨by decide, fun _ _ => nofun⟩

theorem unfinished_two_commas (later : String) :
    Unfinished (beginning findings ++ (",\n,\n" ++ later)) :=
  Or.inr (Or.inr ⟨findings, _, someFindings, astray_two_commas later, rfl⟩)

theorem unfinished_entries (someBatch : batch ≠ []) (later : String) :
    Unfinished (beginning findings ++ (Text.join ",\n" (batch.map findingText) ++ later)) :=
  Or.inr (Or.inr ⟨findings, _, someFindings, astray_entries someBatch later, rfl⟩)

end Cut

theorem unfinished_reach (written batch : List Finding) (reach : Reach) :
    Unfinished (reach.text written batch) := by
  cases reach with
  | nothing =>
      exact unfinished_beginning written
  | lead =>
      cases written with
      | nil =>
          exact Or.inr (Or.inl rfl)
      | cons finding rest =>
          exact unfinished_comma (List.cons_ne_nil finding rest)
  | entries =>
      exact unfinished_beginning (written ++ batch)

/-! ## Once more from where a batch stopped -/

section Again

variable {σ : Type} {holds : σ → List UInt8 → Prop} {size : Nat}
  {written batch : List Finding} {reach : Reach} {progress : Summary × σ}

theorem underway_of_recorded (recorded : Recorded holds size written batch progress) :
    Underway holds size written batch .nothing progress :=
  ⟨recorded.batch, recorded.waiting, recorded.counted, by simp [recorded.opened], recorded.held⟩

/-- Before anything is written, the brace is all that can be missing. -/
theorem unfinished_stop_first
    (someBatch : batch ≠ []) (underway : Underway holds size [] batch reach progress)
    (stop : Stop) :
    Unfinished (stop.text progress.1 (reach.text [] batch)) := by
  obtain ⟨-, waiting, counted, opened, -⟩ := underway
  have first := beginning_first someBatch
  have noComma : commaPiece progress.1 = "" := by
    simp [commaPiece, counted]
  cases reach with
  | nothing =>
      have brace : bracePiece progress.1 = "\x7b\n" := by
        simp [bracePiece, opened]
      have blank : Reach.nothing.text [] batch = "" := rfl
      cases stop with
      | brace =>
          exact unfinished_reach [] batch .nothing
      | comma =>
          exact Or.inr (Or.inl (by simp [Stop.text, brace, blank]))
      | entries =>
          exact Or.inr (Or.inl (by simp [Stop.text, brace, blank, noComma]))
      | flush =>
          simpa [Stop.text, brace, blank, noComma, waiting, first] using unfinished_beginning batch
  | lead =>
      have noBrace : bracePiece progress.1 = "" := by
        simp [bracePiece, opened]
      have braceOnly : Reach.lead.text [] batch = "\x7b\n" := rfl
      cases stop with
      | flush =>
          simpa [Stop.text, noBrace, braceOnly, noComma, waiting, first] using
            unfinished_beginning batch
      | _ =>
          exact Or.inr (Or.inl (by simp [Stop.text, noBrace, braceOnly, noComma]))
  | entries =>
      have noBrace : bracePiece progress.1 = "" := by
        simp [bracePiece, opened]
      cases stop with
      | flush =>
          simpa [Stop.text, noBrace, noComma, waiting, Reach.text] using
            unfinished_entries someBatch someBatch ""
      | _ =>
          simpa [Stop.text, noBrace, noComma] using unfinished_reach [] batch .entries

/-- Behind other findings, a comma is written first. -/
theorem unfinished_stop_next
    (someWritten : written ≠ []) (someBatch : batch ≠ [])
    (underway : Underway holds size written batch reach progress) (stop : Stop) :
    Unfinished (stop.text progress.1 (reach.text written batch)) := by
  obtain ⟨-, waiting, counted, opened, -⟩ := underway
  have someBefore : written ++ batch ≠ [] := List.append_ne_nil_of_right_ne_nil written someBatch
  have noBrace : bracePiece progress.1 = "" := by
    simp [bracePiece, opened, someWritten]
  have comma : commaPiece progress.1 = ",\n" := by
    simp [commaPiece, counted, List.length_pos_iff.mpr someWritten]
  have here : Unfinished (reach.text written batch) := unfinished_reach written batch reach
  have lead : Reach.lead.text written batch = beginning written ++ ",\n" := by
    simp [Reach.text, someWritten]
  cases stop with
  | brace =>
      exact here
  | comma =>
      simpa [Stop.text, noBrace] using here
  | entries =>
      cases reach with
      | nothing =>
          simpa [Stop.text, noBrace, comma, Reach.text] using unfinished_comma someWritten
      | lead =>
          simpa [Stop.text, noBrace, comma, lead, String.append_assoc] using
            unfinished_two_commas someWritten ""
      | entries =>
          simpa [Stop.text, noBrace, comma, Reach.text] using unfinished_comma someBefore
  | flush =>
      cases reach with
      | nothing =>
          simpa [Stop.text, noBrace, comma, waiting, Reach.text,
            beginning_next someWritten someBatch] using unfinished_beginning (written ++ batch)
      | lead =>
          simpa [Stop.text, noBrace, comma, lead, String.append_assoc] using
            unfinished_two_commas someWritten (Text.join ",\n" progress.1.pending)
      | entries =>
          simpa [Stop.text, noBrace, comma, waiting, Reach.text,
            beginning_next someBefore someBatch] using
            unfinished_beginning (written ++ batch ++ batch)

theorem unfinished_stop
    (someBatch : batch ≠ []) (underway : Underway holds size written batch reach progress)
    (stop : Stop) :
    Unfinished (stop.text progress.1 (reach.text written batch)) := by
  by_cases someWritten : written = []
  · subst someWritten
    exact unfinished_stop_first someBatch underway stop
  · exact unfinished_stop_next someWritten someBatch underway stop

end Again

/-! ## The closing brace -/

/-- A text is held, as octets. -/
def HoldsText {σ : Type} (holds : σ → List UInt8 → Prop) (text : String)
    (progress : Summary × σ) : Prop :=
  holds progress.2 (Text.octets text)

/-- A text without the closing brace is held. -/
def HoldsUnfinished {σ : Type} (holds : σ → List UInt8 → Prop) (progress : Summary × σ) : Prop :=
  ∃ text, Unfinished text ∧ HoldsText holds text progress

/-- Writing what is pending and the closing brace. -/
def closing {σ : Type} (sink : Sink σ) : Step σ :=
  andThen (flushBatch sink) (closeObject sink)

/-- Three steps are carried out one after the other. -/
theorem andThen_assoc {σ : Type} (first second third : Step σ) (before : Summary × σ) :
    andThen first (andThen second third) before =
      andThen (andThen first second) third before := by
  rcases done : first before with ⟨fault | _, middle⟩
  · simp only [andThen, done]
  · simp only [andThen, done]

/-- A summary is finished by closing it and by a flush behind that. -/
theorem finish_eq {σ : Type} (sink : Sink σ) (progress : Summary × σ) :
    finish sink progress =
      (((andThen (closing sink) (flushSink sink) progress).1.mapError .io).map fun _ =>
          (andThen (closing sink) (flushSink sink) progress).2.1.written,
        (andThen (closing sink) (flushSink sink) progress).2) := by
  rw [finish, andThen_assoc, ← closing]
  rcases andThen (closing sink) (flushSink sink) progress with ⟨fault | _, after⟩
  · rfl
  · rfl

theorem closing_of_finish
    {σ : Type} {sink : Sink σ} {progress : Summary × σ}
    (finished : (finish sink progress).1.isOk = true) :
    (closing sink progress).1 = .ok () := by
  rw [finish_eq] at finished
  rcases closed : closing sink progress with ⟨fault | _, after⟩
  · simp [andThen, closed, Except.mapError, Except.map, Except.isOk, Except.toBool] at finished
  · rfl

section Closing

variable {σ : Type} {sink : Sink σ} {fine : List UInt8 → Prop} {holds : σ → List UInt8 → Prop}
  (wavers : sink.Wavers fine holds holds) {size : Nat} {written batch : List Finding}
  {reach : Reach} {progress : Summary × σ}

include wavers

/-- Finishing a summary holds what closing it does, whatever comes of the flush
behind it. -/
theorem finish_holds
    {text : String}
    (ends : Ends (closing sink) progress (HoldsText holds text) (HoldsUnfinished holds)) :
    ((closing sink progress).1 = .ok () ∧ HoldsText holds text (finish sink progress).2) ∨
      ((closing sink progress).1 ≠ .ok () ∧ HoldsUnfinished holds (finish sink progress).2) := by
  have steps : (finish sink progress).2 = (andThen (closing sink) (flushSink sink) progress).2 := by
    rw [finish_eq]
  rcases ends with ⟨⟨summary, state⟩, closes, isHeld⟩ | ⟨fault, after, fails, unfinished⟩
  · left
    refine ⟨by rw [closes], ?_⟩
    rcases flushSink_ends wavers summary isHeld with
      ⟨after, flushed, -, afterHeld⟩ | ⟨fault, after, flushed, -, afterHeld⟩
    · rw [steps, andThen_of_ok closes, flushed]
      exact afterHeld
    · rw [steps, andThen_of_ok closes, flushed]
      exact afterHeld
  · right
    refine ⟨by simp [fails], ?_⟩
    rw [steps]
    simpa [andThen, fails] using unfinished

variable (isFine : ∀ {text}, Unfinished text → fine (Text.octets text))

include isFine

/-- Behind an unfinished text the closing brace is written, or nothing is. -/
theorem closeObject_ends
    (summary : Summary) {state : σ} {text : String} (isHeld : holds state (Text.octets text))
    (unfinished : Unfinished text) :
    Ends (closeObject sink) (summary, state)
      (HoldsText holds (text ++ if summary.written = 0 then "\x7d\n" else "\n\x7d\n"))
      (HoldsUnfinished holds) :=
  (emit_ends wavers summary isHeld (isFine unfinished) _).imp (fun _ closed => closed.2)
    fun _ stopped => ⟨text, unfinished, stopped.2⟩

/-- A batch is written from where it had stopped, and the brace behind it, or what
is held stays unfinished. -/
theorem closing_ends_underway
    (someBatch : batch ≠ []) (underway : Underway holds size written batch reach progress) :
    Ends (closing sink) progress (HoldsText holds (closedText written batch reach))
      (HoldsUnfinished holds) := by
  have unfinished := unfinished_stop someBatch underway
  obtain ⟨summary, state⟩ := progress
  obtain ⟨sized, waiting, counted, opened, held⟩ := underway
  dsimp only at waiting counted opened held unfinished
  have somePending : summary.pending ≠ [] := by
    simpa [waiting] using someBatch
  refine ends_andThen ((flushBatch_stops wavers summary somePending held
    fun stop => isFine (unfinished stop)).imp (fun _ flushed => flushed) ?_) ?_
  · rintro after ⟨stop, -, -, stopHeld⟩
    exact ⟨_, unfinished stop, stopHeld⟩
  · rintro ⟨_, after⟩ ⟨rfl, flushedHeld⟩
    have notZero : (settle { summary with opened := true }).written ≠ 0 := by
      simp [settle, waiting, someBatch]
    have closed := closeObject_ends wavers isFine (settle { summary with opened := true })
      flushedHeld (unfinished .flush)
    rw [if_neg notZero] at closed
    have isClosed : closedText written batch reach =
        Stop.flush.text summary (reach.text written batch) ++ "\n\x7d\n" := by
      cases missing : written.isEmpty && reach == .nothing <;>
        simp [closedText, Stop.text, bracePiece, commaPiece, waiting, counted, opened, missing,
          String.append_assoc]
    rw [isClosed]
    exact closed

/-- Where nothing is pending the object is opened, if it has to be, and closed. -/
theorem closing_ends_idle (recorded : Recorded holds size written [] progress) :
    Ends (closing sink) progress (HoldsText holds (textOf written))
      (HoldsUnfinished holds) := by
  obtain ⟨summary, state⟩ := progress
  obtain ⟨sized, waiting, counted, opened, held⟩ := recorded
  dsimp only at waiting counted opened held
  have begun := unfinished_beginning written
  have idle : flushBatch sink (summary, state) = openObject sink (summary, state) := by
    have after := openObject_ends wavers summary held (isFine begun)
    rcases after with ⟨⟨_, after⟩, opens, rfl, -⟩ | ⟨fault, after, fails, -⟩
    · rw [flushBatch, andThen_of_ok opens, opens]
      simp [waiting]
    · simp [flushBatch, andThen, fails]
  have begins : Unfinished (beginning written ++ bracePiece summary) := by
    cases written with
    | nil =>
        exact Or.inr (Or.inl (by simp [bracePiece, opened, beginning]))
    | cons finding rest =>
        simpa [bracePiece, opened] using begun
  have opens : Ends (flushBatch sink) (summary, state)
      (fun after => after.1 = { summary with opened := true } ∧
        HoldsText holds (beginning written ++ bracePiece summary) after)
      (HoldsUnfinished holds) := by
    simp only [Ends, idle]
    exact (openObject_ends wavers summary held (isFine begun)).imp (fun _ opened => opened)
      fun _ stopped => ⟨_, begun, stopped.2⟩
  refine ends_andThen opens ?_
  rintro ⟨_, after⟩ ⟨rfl, openedHeld⟩
  have closed := closeObject_ends wavers isFine { summary with opened := true } openedHeld begins
  cases written with
  | nil =>
      have isText : beginning [] ++ bracePiece summary ++
          (if ({ summary with opened := true } : Summary).written = 0 then "\x7d\n"
            else "\n\x7d\n") = textOf [] := by
        simp only [bracePiece, opened, counted]
        rfl
      exact isText ▸ closed
  | cons finding rest =>
      have isText : beginning (finding :: rest) ++ bracePiece summary ++
          (if ({ summary with opened := true } : Summary).written = 0 then "\x7d\n"
            else "\n\x7d\n") = textOf (finding :: rest) := by
        simpa [bracePiece, opened, counted] using beginning_close (List.cons_ne_nil finding rest)
      exact isText ▸ closed

/-- The findings that are recorded are closed into their text, or what is held
stays unfinished. -/
theorem closing_ends_records
    {batchSize : Nat} {findings : List Finding}
    (records : Records holds batchSize findings progress) :
    Ends (closing sink) progress (HoldsText holds (textOf findings))
      (HoldsUnfinished holds) := by
  obtain ⟨written, pending, rfl, -, recorded⟩ := records
  by_cases nonePending : pending = []
  · subst nonePending
    rw [List.append_nil]
    exact closing_ends_idle wavers isFine recorded
  · rw [← closedText_nothing nonePending]
    exact closing_ends_underway wavers isFine nonePending (underway_of_recorded recorded)

end Closing

/-! ## What a batch leaves when it stops -/

/-- A batch has come to its comma, or the first one to its entries.  Writing it once
more spoils the object. -/
def Reach.Spoils (written : List Finding) : Reach → Prop
  | nothing => False
  | lead => written ≠ []
  | entries => written = []

/-- A batch stops at its entries behind a comma, or the first one at the flush behind
its entries. -/
def Stop.Spoils (written : Nat) : Stop → Prop
  | entries => 0 < written
  | flush => written = 0
  | _ => False

theorem spoils_reach_iff (written : List Finding) (stop : Stop) :
    (stop.reach written).Spoils written ↔ stop.Spoils written.length := by
  cases written <;> cases stop <;> simp [Stop.reach, Reach.Spoils, Stop.Spoils]

section Calls

variable {σ : Type} {sink : Sink σ} {before : Summary × σ}

theorem first_of_andThen {first second : Step σ} (both : (andThen first second before).1 = .ok ()) :
    (first before).1 = .ok () := by
  rcases done : first before with ⟨fault | _, middle⟩
  · simp [andThen, done] at both
  · rfl

/-- A batch stops at one call only: behind a call that fails none is made. -/
theorem Stop.At.unique
    {one other : Stop} (atOne : Stop.At sink before one) (atOther : Stop.At sink before other) :
    one = other := by
  have throughComma : (Stop.entries.through sink before).1 = .ok () →
      (Stop.comma.through sink before).1 = .ok () := first_of_andThen
  have throughBrace : (Stop.comma.through sink before).1 = .ok () →
      (Stop.brace.through sink before).1 = .ok () := first_of_andThen
  cases one <;> cases other <;> simp only [Stop.At] at atOne atOther <;> grind

end Calls

section Stopped

variable {written batch : List Finding} {reach : Reach}

theorem readEntries_of_spoils
    (someBatch : batch ≠ []) (spoils : reach.Spoils written) (entries : List (String × Json)) :
    Json.readEntries (closedText written batch reach) ≠ .ok entries := by
  cases reach with
  | nothing =>
      exact spoils.elim
  | lead =>
      exact closedText_lead_next spoils entries
  | entries =>
      obtain rfl : written = [] := spoils
      exact closedText_entries_first someBatch entries

/-- Anywhere else each finding stands in the object, once or twice. -/
theorem readEntries_of_not_spoils
    (someBatch : batch ≠ []) (isClean : ¬ reach.Spoils written) :
    ∃ entries, Json.readEntries (closedText written batch reach) = .ok entries ∧
      ∀ member, member ∈ entries ↔ member ∈ membersOf (written ++ batch) := by
  cases reach with
  | nothing =>
      exact ⟨_, closedText_nothing someBatch ▸ readEntries_textOf _, fun _ => Iff.rfl⟩
  | lead =>
      obtain rfl : written = [] := not_not.mp isClean
      exact ⟨_, closedText_lead_first someBatch ▸ readEntries_textOf _, fun _ => Iff.rfl⟩
  | entries =>
      refine ⟨_, closedText_entries_next isClean someBatch ▸ readEntries_textOf _, ?_⟩
      intro member
      simp only [membersOf, List.map_append, List.mem_append, or_assoc, or_self]

end Stopped

end Summary

/-! ## Behind a buffer -/

namespace Sink

variable {σ : Type} {deliver : String → σ → Except Files.Fault Unit × σ}
  {stands : σ → List UInt8 → Prop} {fine : List UInt8 → Prop}

/-- Handing over a text puts its octets behind those that stand, or does nothing. -/
def Delivers
    (deliver : String → σ → Except Files.Fault Unit × σ) (stands : σ → List UInt8 → Prop) :
    Prop :=
  ∀ ⦃state held⦄, stands state held → ∀ text,
    (∃ after, deliver text state = (.ok (), after) ∧ stands after (held ++ Text.octets text)) ∨
    (∃ fault after, deliver text state = (.error fault, after) ∧ stands after held)

/-- What is held is what stands and what waits behind it.  While something waits,
what stands is fine. -/
def Buffers
    (stands : σ → List UInt8 → Prop) (fine : List UInt8 → Prop) (state : σ × String)
    (held : List UInt8) : Prop :=
  ∃ taken, stands state.1 taken ∧ held = taken ++ Text.octets state.2 ∧
    (state.2 = "" ∨ fine taken)

theorem release_ends
    (delivers : Delivers deliver stands) {state : σ × String} {held : List UInt8}
    (isHeld : Buffers stands fine state held) :
    (∃ after, release deliver state = (.ok (), (after, "")) ∧ stands after held) ∨
    (∃ fault after taken, release deliver state = (.error fault, (after, state.2)) ∧
      state.2 ≠ "" ∧ stands after taken ∧ held = taken ++ Text.octets state.2 ∧ fine taken) := by
  obtain ⟨state, waiting⟩ := state
  obtain ⟨taken, isTaken, rfl, isFine⟩ := isHeld
  by_cases noneWaits : waiting = ""
  · subst noneWaits
    exact .inl ⟨state, by simp [release], by simpa [Text.octets] using isTaken⟩
  · rcases delivers isTaken waiting with
      ⟨after, delivered, nowStands⟩ | ⟨fault, after, fails, asBefore⟩
    · exact .inl ⟨after, by simp [release, noneWaits, delivered], nowStands⟩
    · exact .inr ⟨fault, after, taken, by simp [release, noneWaits, fails], noneWaits, asBefore,
        rfl, isFine.resolve_left noneWaits⟩

/-- Whatever comes of handing over what waits, what stands then is all of it, or is
fine. -/
theorem stands_release
    (delivers : Delivers deliver stands) {state : σ × String} {held : List UInt8}
    (isHeld : Buffers stands fine state held) :
    ((release deliver state).2.2 = "" ∧ stands (release deliver state).2.1 held) ∨
    ((release deliver state).2.2 ≠ "" ∧
      ∃ taken, fine taken ∧ stands (release deliver state).2.1 taken) := by
  rcases release_ends delivers isHeld with
    ⟨after, released, nowStands⟩ | ⟨fault, after, taken, fails, someWaits, asBefore, -, isFine⟩
  · rw [released]
    exact .inl ⟨rfl, nowStands⟩
  · rw [fails]
    exact .inr ⟨someWaits, taken, isFine, asBefore⟩

theorem release_of_nothing {state : σ × String} (nothingWaits : state.2 = "") :
    (release deliver state).2.2 = "" := by
  rw [release, if_pos nothingWaits]
  exact nothingWaits

theorem nothing_waits_of_release
    {state after : σ × String} (released : release deliver state = (.ok (), after)) :
    after.2 = "" := by
  rw [release] at released
  split at released
  · cases released
    assumption
  · split at released <;> cases released
    rfl

/-- Nothing waits when a summary is finished. -/
theorem nothing_waits_of_finish
    {progress : Summary × (σ × String)}
    (finished : (Summary.finish (buffered deliver) progress).1.isOk = true) :
    (Summary.finish (buffered deliver) progress).2.2.2 = "" := by
  have closed := Summary.closing_of_finish finished
  rcases closes : Summary.closing (buffered deliver) progress with ⟨outcome, summary, state⟩
  rw [closes] at closed
  subst closed
  rw [Summary.finish_eq, Summary.andThen_of_ok closes] at finished ⊢
  rcases released : release deliver state with ⟨fault | _, left⟩
  · simp [Summary.flushSink, buffered, released, Except.mapError, Except.map, Except.isOk,
      Except.toBool] at finished
  · simp only [Summary.flushSink, buffered, released]
    exact nothing_waits_of_release released

/-- A text is handed over or waits behind what waited before; what is handed over
is not the first of what waits. -/
theorem fill_ends
    (delivers : Delivers deliver stands) {state : σ × String} {held : List UInt8}
    (isHeld : Buffers stands fine state held) (isFine : fine held) (text : String)
    (inOrder : bufferSize ≤ Text.octetCount text → state.2 = "") :
    (∃ after, fill deliver text state = (.ok (), after) ∧
      Buffers stands fine after (held ++ Text.octets text)) ∨
    (∃ fault after, fill deliver text state = (.error fault, after) ∧
      Buffers stands fine after held) := by
  obtain ⟨state, waiting⟩ := state
  obtain ⟨taken, isTaken, rfl, takenFine⟩ := isHeld
  by_cases isLarge : bufferSize ≤ Text.octetCount text
  · obtain rfl : waiting = "" := inOrder isLarge
    rw [fill, if_pos isLarge]
    rcases delivers isTaken text with
      ⟨after, delivered, nowStands⟩ | ⟨fault, after, fails, asBefore⟩
    · exact .inl ⟨(after, ""), by simp [delivered], _, nowStands, by simp [Text.octets],
        .inl rfl⟩
    · exact .inr ⟨fault, (after, ""), by simp [fails], _, asBefore, rfl, .inl rfl⟩
  · rw [fill, if_neg isLarge]
    refine .inl ⟨_, rfl, taken, isTaken, ?_, .inr ?_⟩
    · rw [Text.octets_append, List.append_assoc]
    · rcases takenFine with noneWaits | takenFine
      · obtain rfl : waiting = "" := noneWaits
        simpa [Text.octets] using isFine
      · exact takenFine

/-- A sink with a buffer fails only where handing over does. -/
theorem buffered_wavers (delivers : Delivers deliver stands) :
    (buffered deliver).Wavers fine (Buffers stands fine) (Buffers stands fine) where
  write := by
    intro state held isHeld isFine text
    by_cases noRoom : bufferSize - Text.octetCount state.2 < Text.octetCount text
    · simp only [buffered, if_pos noRoom]
      rcases release_ends delivers isHeld with
        ⟨after, released, nowStands⟩ | ⟨fault, after, taken, fails, -, asBefore, rfl, takenFine⟩
      · rw [released]
        exact fill_ends delivers ⟨held, nowStands, by simp [Text.octets], .inl rfl⟩ isFine text
          fun _ => rfl
      · rw [fails]
        exact .inr ⟨fault, _, rfl, taken, asBefore, rfl, .inr takenFine⟩
    · simp only [buffered, if_neg noRoom]
      apply fill_ends delivers isHeld isFine text
      -- a text that fills the buffer has room only where nothing waits
      intro isLarge
      have someRoom : 0 < bufferSize := by
        decide
      have noOctets : Text.octetCount state.2 = 0 := by
        omega
      exact Text.eq_empty_of_octetCount noOctets
  flush := by
    intro state held isHeld
    rcases release_ends delivers isHeld with
      ⟨after, released, nowStands⟩ | ⟨fault, after, taken, fails, -, asBefore, rfl, takenFine⟩
    · exact .inl ⟨_, released, held, nowStands, by simp [Text.octets], .inl rfl⟩
    · exact .inr ⟨fault, _, fails, taken, asBefore, rfl, .inr takenFine⟩

end Sink

end ShapeAudit
