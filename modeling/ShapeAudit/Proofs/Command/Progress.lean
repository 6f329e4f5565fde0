import ShapeAudit.Proofs.Command.Find
import ShapeAudit.Proofs.SummaryClosing

/-!
# How far a search of files comes

Collected files are searched and what is found is pushed, one file after the
other, until none is left, one cannot be read, or a push fails.  The summary is
closed from there, whatever the sink does.
-/

namespace ShapeAudit.Command.Survey

open Summary (Finding HoldsText HoldsUnfinished Records Stop Underway closing waitingWith)

variable {σ : Type}

/-- A file is read and searched.  What is found is ready to be pushed. -/
def Turn (survey : Survey σ) (before : Summary × σ) (finding : Finding) (ready : Summary × σ) :
    Prop :=
  ∃ code after,
    readSource (survey.filesOf before.2) finding.1 = .ok code ∧
    Search.find survey.transformer code survey.record survey.options before.2 =
      (.ok finding.2, after) ∧
    ready = (before.1, survey.transformer.reset after)

/-- Files are read and searched and what is found is pushed, one after the other. -/
inductive Pushes (survey : Survey σ) (state : σ) : List Finding → Summary × σ → Prop where
  | none : Pushes survey state [] (Summary.start survey.batchSize, state)
  | next {findings : List Finding} {before ready after : Summary × σ} {finding : Finding} :
      Pushes survey state findings before →
        survey.Turn before finding ready →
        Summary.push survey.sink finding.1 finding.2 ready = (.ok (), after) →
        Pushes survey state (findings ++ [finding]) after

/-- A search of collected files halts with some findings pushed. -/
inductive Halts (survey : Survey σ) (state : σ) (collected : List String) :
    List Finding → Summary × σ → Prop where
  /-- No file is left. -/
  | completed {findings : List Finding} {reached : Summary × σ} :
      survey.Pushes state findings reached →
        collected = findings.map Prod.fst →
        Halts survey state collected findings reached
  /-- The next file cannot be read. -/
  | unreadable {findings : List Finding} {reached : Summary × σ} {path : String}
      {later : List String} {failure : Failure} :
      survey.Pushes state findings reached →
        collected = findings.map Prod.fst ++ path :: later →
        readSource (survey.filesOf reached.2) path = .error failure →
        Halts survey state collected findings reached
  /-- The last push fails. -/
  | unpushed {findings : List Finding} {before ready reached : Summary × σ} {last : Finding}
      {later : List String} {fault : SummaryFault} :
      survey.Pushes state findings before →
        collected = findings.map Prod.fst ++ last.1 :: later →
        survey.Turn before last ready →
        Summary.push survey.sink last.1 last.2 ready = (.error fault, reached) →
        Halts survey state collected (findings ++ [last]) reached

/-- The last push fails at a call of the sink from where its batch spoils the object
when it is written once more. -/
inductive Spoils (survey : Survey σ) (state : σ) (collected : List String)
    (reached : Summary × σ) : Prop where
  | unpushed {findings : List Finding} {before ready : Summary × σ} {last : Finding}
      {later : List String} {fault : SummaryFault} {stop : Stop} :
      survey.Pushes state findings before →
        collected = findings.map Prod.fst ++ last.1 :: later →
        survey.Turn before last ready →
        Summary.push survey.sink last.1 last.2 ready = (.error fault, reached) →
        Stop.At survey.sink (waitingWith last ready) stop →
        stop.Spoils reached.1.written →
        Spoils survey state collected reached

/-! ## Every search halts -/

section Running

variable {survey : Survey σ} {state : σ}

theorem searchFile_of_pushed
    {before ready after : Summary × σ} {finding : Finding} (turn : survey.Turn before finding ready)
    (pushed : Summary.push survey.sink finding.1 finding.2 ready = (.ok (), after)) :
    searchFile survey.transformer survey.sink survey.filesOf survey.record survey.options
      finding.1 before = (.ok (!finding.2.isEmpty), after) := by
  obtain ⟨code, moved, reads, searched, rfl⟩ := turn
  simp only [searchFile, reads, searched, pushed]

theorem searchFile_of_unpushed
    {before ready after : Summary × σ} {finding : Finding} {fault : SummaryFault}
    (turn : survey.Turn before finding ready)
    (fails : Summary.push survey.sink finding.1 finding.2 ready = (.error fault, after)) :
    searchFile survey.transformer survey.sink survey.filesOf survey.record survey.options
      finding.1 before = (.error (.ofSummary fault), after) := by
  obtain ⟨code, moved, reads, searched, rfl⟩ := turn
  simp only [searchFile, reads, searched, fails]

/-- A search goes on from where some findings are pushed. -/
theorem search_of_pushes
    {findings : List Finding} {before : Summary × σ} (pushes : survey.Pushes state findings before)
    (rest : List String) :
    ∃ triggered, survey.search state (findings.map Prod.fst ++ rest) =
      searchFiles survey.transformer survey.sink survey.filesOf survey.record survey.options
        rest triggered before := by
  induction pushes generalizing rest with
  | none =>
      exact ⟨0, rfl⟩
  | @next findings before ready after finding _ turn pushed inductionHypothesis =>
      obtain ⟨triggered, searched⟩ := inductionHypothesis (finding.1 :: rest)
      simp only [searchFiles, searchFile_of_pushed turn pushed] at searched
      rw [List.map_append, List.append_assoc]
      exact ⟨_, searched⟩

/-- Where a push fails, the search does. -/
theorem search_of_unpushed
    {findings : List Finding} {before ready reached : Summary × σ} {last : Finding}
    {fault : SummaryFault} (pushes : survey.Pushes state findings before)
    (turn : survey.Turn before last ready)
    (fails : Summary.push survey.sink last.1 last.2 ready = (.error fault, reached))
    (later : List String) :
    survey.search state (findings.map Prod.fst ++ last.1 :: later) =
      (.error (.ofSummary fault), reached) := by
  obtain ⟨triggered, searched⟩ := search_of_pushes pushes (last.1 :: later)
  rw [searched]
  simp only [searchFiles, searchFile_of_unpushed turn fails]

variable (allowed : Search.ensureSearchable survey.record survey.options = .ok ())

include allowed

/-- From where some findings are pushed, a search goes on until it halts. -/
theorem halts_of_pushes
    {findings : List Finding} {before : Summary × σ}
    (pushes : survey.Pushes state findings before) (rest : List String) :
    ∃ pushed, survey.Halts state (findings.map Prod.fst ++ rest) pushed
      (survey.search state (findings.map Prod.fst ++ rest)).2 := by
  induction rest generalizing findings before with
  | nil =>
      obtain ⟨triggered, searched⟩ := search_of_pushes pushes []
      rw [searched]
      exact ⟨findings, .completed pushes (List.append_nil _)⟩
  | cons path rest inductionHypothesis =>
      cases reads : readSource (survey.filesOf before.2) path with
      | error failure =>
          obtain ⟨triggered, searched⟩ := search_of_pushes pushes (path :: rest)
          rw [searched, searchFiles, searchFile_of_error reads]
          exact ⟨findings, .unreadable pushes rfl reads⟩
      | ok code =>
          obtain ⟨found, isFound⟩ :=
            Search.find_of_ensureSearchable survey.transformer code allowed before.2
          have turn : survey.Turn before (path, found) (before.1, survey.transformer.reset
              (Search.find survey.transformer code survey.record survey.options before.2).2) :=
            ⟨code, _, reads, Prod.ext isFound rfl, rfl⟩
          rcases pushed : Summary.push survey.sink path found (before.1,
            survey.transformer.reset (Search.find survey.transformer code survey.record
              survey.options before.2).2) with ⟨fault | _, after⟩
          · rw [search_of_unpushed pushes turn pushed rest]
            exact ⟨_, .unpushed pushes rfl turn pushed⟩
          · have goesOn := inductionHypothesis (pushes.next turn pushed)
            rwa [List.map_append, List.append_assoc] at goesOn

variable (survey state)

/-- A search of collected files halts somewhere. -/
theorem exists_halts (collected : List String) :
    ∃ findings, survey.Halts state collected findings (survey.search state collected).2 := by
  have begins : survey.Pushes state [] (Summary.start survey.batchSize, state) := .none
  exact halts_of_pushes allowed begins collected

/-- Wherever a search has halted, its summary is closed from there.  It succeeds only
if the search and the closing do. -/
theorem run_closes
    {paths collected : List String}
    (gathered : Files.collect (survey.filesOf state) paths = .ok collected) (label : String) :
    (survey.run label paths state).2 =
        (Summary.finish survey.sink (survey.search state collected).2).2.2 ∧
      ((survey.run label paths state).1.isOk = true →
        (survey.search state collected).1.isOk = true ∧
          (Summary.finish survey.sink (survey.search state collected).2).1.isOk = true) := by
  rw [run_eq_searchCollected survey state allowed gathered label, searchCollected, search]
  rcases searchFiles survey.transformer survey.sink survey.filesOf survey.record survey.options
    collected 0 (Summary.start survey.batchSize, state) with ⟨failure | triggered, after⟩
  · exact ⟨rfl, fun succeeds => absurd succeeds Bool.false_ne_true⟩
  · dsimp only
    cases Summary.finish survey.sink after with
    | mk finished closed =>
        cases finished with
        | error fault => exact ⟨rfl, fun succeeds => absurd succeeds Bool.false_ne_true⟩
        | ok count => exact ⟨rfl, fun _ => ⟨rfl, rfl⟩⟩

end Running

/-! ## What is held on the way -/

section Held

variable {survey : Survey σ} {fine : List UInt8 → Prop} {holds : σ → List UInt8 → Prop}
  (wavers : survey.sink.Wavers fine holds holds)
  (isFine : ∀ {text}, Summary.Unfinished text → fine (Text.octets text))
  (leaves : survey.transformer.Leaves holds) {state : σ} (blank : holds state [])

/-- What is recorded stays recorded while a file is searched. -/
theorem records_of_turn
    {findings : List Finding} {before ready : Summary × σ} {finding : Finding}
    (leaves : survey.transformer.Leaves holds)
    (records : Records holds survey.batchSize findings before)
    (turn : survey.Turn before finding ready) :
    Records holds survey.batchSize findings ready := by
  obtain ⟨code, after, -, searched, rfl⟩ := turn
  apply Summary.records_moved records
  intro held isHeld
  have kept := leaves.rests code survey.record survey.options isHeld
  rwa [searched] at kept

include isFine in
theorem fine_reach (written batch : List Finding) (reach : Summary.Reach) :
    fine (Text.octets (reach.text written batch)) :=
  isFine (Summary.unfinished_reach written batch reach)

include wavers isFine

/-- A push that fails stops its batch at some call. -/
theorem underway_of_unpushed
    {findings : List Finding} {ready reached : Summary × σ} {last : Finding}
    {fault : SummaryFault} (records : Records holds survey.batchSize findings ready)
    (fails : Summary.push survey.sink last.1 last.2 ready = (.error fault, reached)) :
    ∃ written batch stop, findings ++ [last] = written ++ batch ∧ batch ≠ [] ∧
      Stop.At survey.sink (waitingWith last ready) stop ∧
      Underway holds (max survey.batchSize 1) written batch (stop.reach written) reached := by
  rcases Summary.push_ends wavers (fine_reach isFine) records last with
    ⟨next, pushed, -⟩ | ⟨_, after, stops, written, batch, stop, isSplit, someBatch, stopsAt,
      underway⟩
  · cases pushed.symm.trans fails
  · obtain ⟨-, rfl⟩ := Prod.mk.inj (stops.symm.trans fails)
    exact ⟨written, batch, stop, isSplit, someBatch, stopsAt, underway⟩

include leaves blank

/-- Findings that are pushed are recorded. -/
theorem records_of_pushes
    {findings : List Finding} {reached : Summary × σ}
    (pushes : survey.Pushes state findings reached) :
    Records holds survey.batchSize findings reached := by
  induction pushes with
  | none =>
      exact Summary.records_start blank survey.batchSize
  | @next findings before ready after finding _ turn pushed records =>
      rcases Summary.push_ends wavers (fine_reach isFine) (records_of_turn leaves records turn)
        finding with ⟨next, succeeds, nextRecords⟩ | ⟨fault, next, fails, -⟩
      · obtain ⟨-, rfl⟩ := Prod.mk.inj (succeeds.symm.trans pushed)
        exact nextRecords
      · cases fails.symm.trans pushed

/-- The findings stand in one object, once or twice, and nothing else does. -/
def ReadsAs (text : String) (findings : List Finding) : Prop :=
  ∃ entries, Json.readEntries text = .ok entries ∧
    ∀ member, member ∈ entries ↔ member ∈ Summary.membersOf findings

/-- What closing a summary comes to when a search has halted. -/
inductive Closes
    (holds : σ → List UInt8 → Prop) (survey : Survey σ) (state : σ) (collected : List String)
    (findings : List Finding) (reached : Summary × σ) : Prop where
  /-- What is pending or the closing brace cannot be written. -/
  | cut :
      (closing survey.sink reached).1 ≠ .ok () →
        HoldsUnfinished holds (Summary.finish survey.sink reached).2 →
        Closes holds survey state collected findings reached
  /-- The findings and the closing brace are written. -/
  | complete {text : String} :
      (closing survey.sink reached).1 = .ok () →
        ReadsAs text findings →
        HoldsText holds text (Summary.finish survey.sink reached).2 →
        Closes holds survey state collected findings reached
  /-- The last batch is written once more where it must not be. -/
  | spoiled :
      survey.Spoils state collected reached →
        Closes holds survey state collected findings reached

/-- Closing the summary of a search that has halted writes its findings and the
closing brace, unless the brace cannot be written or the last batch spoils them. -/
theorem closes_of_halts
    {collected : List String} {findings : List Finding} {reached : Summary × σ}
    (halts : survey.Halts state collected findings reached) :
    Closes holds survey state collected findings reached := by
  have ofRecords : ∀ {findings}, Records holds survey.batchSize findings reached →
      Closes holds survey state collected findings reached := by
    intro findings records
    rcases Summary.finish_holds wavers (Summary.closing_ends_records wavers isFine records) with
      ⟨closed, isHeld⟩ | ⟨unclosed, unfinished⟩
    · exact .complete closed ⟨_, Summary.readEntries_textOf findings, fun _ => Iff.rfl⟩ isHeld
    · exact .cut unclosed unfinished
  cases halts with
  | completed pushes isAll =>
      exact ofRecords (records_of_pushes wavers isFine leaves blank pushes)
  | unreadable pushes isSplit failed =>
      exact ofRecords (records_of_pushes wavers isFine leaves blank pushes)
  | unpushed pushes isSplit turn fails =>
      have records := records_of_turn leaves
        (records_of_pushes wavers isFine leaves blank pushes) turn
      obtain ⟨written, batch, stop, isBatch, someBatch, stopsAt, underway⟩ :=
        underway_of_unpushed wavers isFine records fails
      by_cases spoils : (stop.reach written).Spoils written
      · rw [Summary.spoils_reach_iff, ← underway.counted] at spoils
        exact .spoiled (.unpushed pushes isSplit turn fails stopsAt spoils)
      · rcases Summary.finish_holds wavers
          (Summary.closing_ends_underway wavers isFine someBatch underway) with
          ⟨closed, isHeld⟩ | ⟨unclosed, unfinished⟩
        · have reads := Summary.readEntries_of_not_spoils someBatch spoils
          rw [← isBatch] at reads
          exact .complete closed reads isHeld
        · exact .cut unclosed unfinished

/-- Closing a summary behind a batch that spoils it leaves a text that is no
object. -/
theorem finish_of_spoils
    {collected : List String} {reached : Summary × σ}
    (spoils : survey.Spoils state collected reached) :
    ∃ text, (∀ entries, Json.readEntries text ≠ .ok entries) ∧
      HoldsText holds text (Summary.finish survey.sink reached).2 := by
  obtain ⟨pushes, -, turn, fails, stopsAt, stopSpoils⟩ := spoils
  have records := records_of_turn leaves
    (records_of_pushes wavers isFine leaves blank pushes) turn
  obtain ⟨written, batch, stop, -, someBatch, alsoAt, underway⟩ :=
    underway_of_unpushed wavers isFine records fails
  rw [stopsAt.unique alsoAt, underway.counted, ← Summary.spoils_reach_iff] at stopSpoils
  rcases Summary.finish_holds wavers
    (Summary.closing_ends_underway wavers isFine someBatch underway) with
    ⟨-, isHeld⟩ | ⟨-, text, unfinished, isHeld⟩
  · exact ⟨_, Summary.readEntries_of_spoils someBatch stopSpoils, isHeld⟩
  · exact ⟨text, Summary.readEntries_unfinished unfinished, isHeld⟩

/-- Whatever closing a summary comes to, a text is held: it reads as the findings, or
it is no object. -/
theorem Closes.held
    {collected : List String} {findings : List Finding} {reached : Summary × σ}
    (closes : Closes holds survey state collected findings reached) :
    ∃ text, HoldsText holds text (Summary.finish survey.sink reached).2 ∧
      (((closing survey.sink reached).1 = .ok () ∧ ReadsAs text findings) ∨
        ∀ entries, Json.readEntries text ≠ .ok entries) := by
  cases closes with
  | cut unclosed unfinished =>
      obtain ⟨text, unfinished, isHeld⟩ := unfinished
      exact ⟨text, isHeld, .inr (Summary.readEntries_unfinished unfinished)⟩
  | complete closed reads isHeld =>
      exact ⟨_, isHeld, .inl ⟨closed, reads⟩⟩
  | spoiled spoils =>
      obtain ⟨text, unreadable, isHeld⟩ := finish_of_spoils wavers isFine leaves blank spoils
      exact ⟨text, isHeld, .inr unreadable⟩

end Held

end ShapeAudit.Command.Survey
