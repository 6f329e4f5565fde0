import ShapeAudit.CommandLine.Execute
import ShapeAudit.Proofs.Command.Progress
import ShapeAudit.Proofs.Files.Storage

/-!
# The file of a summary

A search empties the file of its summary before it collects its inputs.  Behind
that, inputs may refuse to be read, and the system may refuse what is written.  The
file ends up with one object of what was found, unless the inputs cannot be
collected, the closing brace does not arrive, or a batch that was partly written is
written once more.
-/

namespace ShapeAudit

/-- What waits in a buffer is left alone by a transformer that leaves alone what
stands. -/
theorem Transformer.leaves_buffers
    {σ : Type} {transformer : Transformer σ} {stands : σ → List UInt8 → Prop}
    {fine : List UInt8 → Prop} (leaves : transformer.Leaves stands) :
    transformer.beside.Leaves (Sink.Buffers stands fine) where
  transform := by
    rintro state held ⟨taken, isTaken, isHeld, isFine⟩ code config
    exact ⟨taken, leaves.transform isTaken code config, isHeld, isFine⟩
  reset := by
    rintro state held ⟨taken, isTaken, isHeld, isFine⟩
    exact ⟨taken, leaves.reset isTaken, isHeld, isFine⟩

namespace CommandLine

open Command (Survey)
open Files.Storage (HoldsAt holdsAt_of_write status_of_read)
open Summary (Finding HoldsText HoldsUnfinished Unfinished closing)

namespace Workshop

variable {τ : Type} (workshop : Workshop τ)

/-! ## Searching into a file -/

/-- A search of files into the open file at the end of a list of names. -/
def surveyInto (equipment : Equipment τ) (options : Search.Options) (names : List String) :
    Survey ((τ × Files.Storage) × String) where
  transformer := equipment.transformer.beside
  sink := .buffered (workshop.deliver names)
  filesOf state := state.1.2
  record := equipment.record
  options := options
  batchSize := equipment.batchSize

/-- The state in which such a search begins. -/
def outset (opened : Files.Storage) : (τ × Files.Storage) × String :=
  ((workshop.blank, opened), "")

/-- What such a search of collected files comes to before its summary is closed. -/
def reached (equipment : Equipment τ) (options : Search.Options) (names : List String)
    (opened : Files.Storage) (collected : List String) :
    Summary × ((τ × Files.Storage) × String) :=
  ((workshop.surveyInto equipment options names).search (workshop.outset opened) collected).2

/-- The files when what was left in the buffer has been handed over. -/
def filesAfter (names : List String) (state : (τ × Files.Storage) × String) : Files.Storage :=
  (Sink.release (workshop.deliver names) state).2.1.2

theorem searchInto_of_write
    {equipment : Equipment τ} {options : Search.Options}
    (allowed : Search.ensureSearchable equipment.record options = .ok ())
    {files opened : Files.Storage} {output : String} {names : List String}
    (written : files.write output [] = .ok (names, opened)) (paths : List String) :
    workshop.searchInto equipment options output paths files =
      (((workshop.surveyInto equipment options names).run output paths (workshop.outset opened)).1,
        workshop.filesAfter names ((workshop.surveyInto equipment options names).run output paths
          (workshop.outset opened)).2) := by
  simp only [searchInto, allowed, written]
  rfl

/-! ## What a search comes to -/

section Outcomes

variable (situation : Situation) (request : Request) (choice : Choice)
  (options : Search.Options) (batchSize : Option Nat) (output : String)

/-- A search has all that it works with, it may be made, and the file of its
summary is opened and emptied. -/
structure Opens (equipment : Equipment τ) (names : List String) (opened : Files.Storage) :
    Prop where
  equipped : workshop.equip situation request choice batchSize = .ok equipment
  allowed : Search.ensureSearchable equipment.record options = .ok ()
  written : situation.files.write output [] = .ok (names, opened)

/-- How a summary is lost when its file is open. -/
inductive Loses (equipment : Equipment τ) (names : List String) (opened : Files.Storage)
    (paths : List String) : Prop where
  /-- An input is missing, or a folder cannot be walked. -/
  | uncollected {fault : Files.CollectFault} :
      Files.collect opened paths = .error fault →
        Loses equipment names opened paths
  /-- What is pending or the closing brace cannot be written. -/
  | unclosed {collected : List String} :
      Files.collect opened paths = .ok collected →
        (closing (workshop.surveyInto equipment options names).sink
          (workshop.reached equipment options names opened collected)).1 ≠ .ok () →
        Loses equipment names opened paths
  /-- The end of the text never leaves the buffer. -/
  | undelivered {collected : List String} :
      Files.collect opened paths = .ok collected →
        (Sink.release (workshop.deliver names)
          (Summary.finish (workshop.surveyInto equipment options names).sink
            (workshop.reached equipment options names opened collected)).2.2).2.2 ≠ "" →
        Loses equipment names opened paths
  /-- A push fails at the entries of its batch, behind a comma, or at the flush behind
  the entries of the first batch, and the batch is written once more. -/
  | spoiled {collected : List String} :
      Files.collect opened paths = .ok collected →
        (workshop.surveyInto equipment options names).Spoils (workshop.outset opened) collected
          (workshop.reached equipment options names opened collected) →
        Loses equipment names opened paths

/-- The file of a summary is opened, and the summary is lost. -/
def LosesSummary (paths : List String) : Prop :=
  ∃ equipment names opened,
    workshop.Opens situation request choice options batchSize output equipment names opened ∧
    workshop.Loses options equipment names opened paths

/-- The file of a summary holds one object with the findings that were pushed until
no input was left, one could not be read or the last push failed. -/
def HoldsFinished (paths : List String) (files : Files.Storage) : Prop :=
  ∃ equipment names opened collected findings text,
    workshop.Opens situation request choice options batchSize output equipment names opened ∧
    Files.collect opened paths = .ok collected ∧
    (workshop.surveyInto equipment options names).Halts (workshop.outset opened) collected
      findings (workshop.reached equipment options names opened collected) ∧
    files.status output = .ok (.file (Text.octets text)) ∧
    Survey.ReadsAs text findings

end Outcomes

/-! ## What is held while it is written -/

/-- The octets of a text without the closing brace. -/
def CutShort (content : List UInt8) : Prop :=
  ∃ text, Unfinished text ∧ content = Text.octets text

/-- The file at the end of a list of names and the buffer hold what was written.
While something waits, the file is cut short. -/
def Holding (output : String) (names : List String) :
    (τ × Files.Storage) × String → List UInt8 → Prop :=
  Sink.Buffers (fun state => HoldsAt output names state.2) CutShort

theorem deliver_delivers (path : String) (names : List String) :
    Sink.Delivers (workshop.deliver names) fun state => HoldsAt path names state.2 := by
  rintro ⟨own, files⟩ held isHeld text
  rcases taken : workshop.takes text (own, files) with ⟨fault | _, after⟩
  · exact .inr ⟨fault, (after, files), by simp [deliver, taken], isHeld⟩
  · exact .inl ⟨(after, files.append names text), by simp [deliver, taken],
      isHeld.appended text⟩

section Held

variable {workshop} {equipment : Equipment τ} {options : Search.Options} {output : String}
  {names : List String} {opened : Files.Storage} {paths : List String}

theorem wavers_surveyInto :
    (workshop.surveyInto equipment options names).sink.Wavers CutShort (Holding output names)
      (Holding output names) :=
  Sink.buffered_wavers (workshop.deliver_delivers output names)

theorem cutShort_of_unfinished {text : String} (unfinished : Unfinished text) :
    CutShort (Text.octets text) :=
  ⟨text, unfinished, rfl⟩

theorem holding_outset (isHeld : HoldsAt output names opened []) :
    Holding output names (workshop.outset opened) [] :=
  ⟨[], isHeld, rfl, .inl rfl⟩

/-- What was written arrives, or the end of it is left in the buffer and the file is
cut short. -/
theorem arrives
    {text : String} {progress : Summary × ((τ × Files.Storage) × String)}
    (isHeld : HoldsText (Holding output names) text progress) :
    ((Sink.release (workshop.deliver names) progress.2).2.2 = "" ∧
      HoldsAt output names (workshop.filesAfter names progress.2) (Text.octets text)) ∨
    ((Sink.release (workshop.deliver names) progress.2).2.2 ≠ "" ∧
      ∃ cut, (∀ entries, Json.readEntries cut ≠ .ok entries) ∧
        HoldsAt output names (workshop.filesAfter names progress.2) (Text.octets cut)) := by
  rcases Sink.stands_release (workshop.deliver_delivers output names) isHeld with
    arrived | ⟨waits, _, ⟨cut, unfinished, rfl⟩, stands⟩
  · exact .inl arrived
  · exact .inr ⟨waits, cut, Summary.readEntries_unfinished unfinished, stands⟩

/-- Where what was written is no object, neither is what arrives. -/
theorem unreadable_after
    {text : String} (unreadable : ∀ entries, Json.readEntries text ≠ .ok entries)
    {progress : Summary × ((τ × Files.Storage) × String)}
    (isHeld : HoldsText (Holding output names) text progress) :
    ∃ cut, (∀ entries, Json.readEntries cut ≠ .ok entries) ∧
      HoldsAt output names (workshop.filesAfter names progress.2) (Text.octets cut) := by
  rcases workshop.arrives isHeld with ⟨-, stands⟩ | ⟨-, cutShort⟩
  · exact ⟨text, unreadable, stands⟩
  · exact cutShort

/-- If the inputs cannot be collected, the search ends where it began. -/
theorem run_of_uncollected
    (allowed : Search.ensureSearchable equipment.record options = .ok ())
    {fault : Files.CollectFault} (failed : Files.collect opened paths = .error fault) :
    workshop.filesAfter names ((workshop.surveyInto equipment options names).run output paths
      (workshop.outset opened)).2 = opened := by
  simp [Survey.run, Command.find, surveyInto, outset, allowed, failed, filesAfter, Sink.release]

section Collected

variable (allowed : Search.ensureSearchable equipment.record options = .ok ())

include allowed

theorem run_of_collected
    {collected : List String} (gathered : Files.collect opened paths = .ok collected) :
    ((workshop.surveyInto equipment options names).run output paths
        (workshop.outset opened)).2 =
      (Summary.finish (workshop.surveyInto equipment options names).sink
        (workshop.reached equipment options names opened collected)).2.2 :=
  (Survey.run_closes _ _ allowed gathered output).1

/-- A search that loses its summary fails. -/
theorem fails_of_loses (loses : workshop.Loses options equipment names opened paths) :
    ((workshop.surveyInto equipment options names).run output paths
      (workshop.outset opened)).1.isOk = false := by
  have steps : ∀ {collected}, Files.collect opened paths = .ok collected →
      ((workshop.surveyInto equipment options names).run output paths
        (workshop.outset opened)).1.isOk = true →
      ((workshop.surveyInto equipment options names).search (workshop.outset opened)
        collected).1.isOk = true ∧
      (Summary.finish (workshop.surveyInto equipment options names).sink
        (workshop.reached equipment options names opened collected)).1.isOk = true :=
    fun gathered => (Survey.run_closes _ _ allowed gathered output).2
  rw [← Bool.not_eq_true]
  intro succeeds
  cases loses with
  | uncollected failed =>
      simp [Survey.run, Command.find, surveyInto, outset, allowed, failed, Except.isOk,
        Except.toBool] at succeeds
  | unclosed gathered unclosed =>
      exact unclosed (Summary.closing_of_finish (steps gathered succeeds).2)
  | undelivered gathered waits =>
      have nothingWaits := Sink.nothing_waits_of_finish (steps gathered succeeds).2
      exact waits (Sink.release_of_nothing nothingWaits)
  | spoiled gathered spoils =>
      obtain ⟨pushes, rfl, turn, fails, -, -⟩ := spoils
      have searched := (steps gathered succeeds).1
      rw [Survey.search_of_unpushed pushes turn fails] at searched
      cases searched

variable (leaves : equipment.transformer.Leaves fun state => HoldsAt output names state.2)
  (isHeld : HoldsAt output names opened [])

include leaves isHeld

/-- The summary is closed from where the search has halted. -/
theorem closes_reached (collected : List String) :
    ∃ findings,
      (workshop.surveyInto equipment options names).Halts (workshop.outset opened) collected
        findings (workshop.reached equipment options names opened collected) ∧
      (workshop.surveyInto equipment options names).Closes (Holding output names)
        (workshop.outset opened) collected findings
        (workshop.reached equipment options names opened collected) := by
  obtain ⟨findings, halts⟩ := Survey.exists_halts (workshop.surveyInto equipment options names)
    (workshop.outset opened) allowed collected
  exact ⟨findings, halts, Survey.closes_of_halts wavers_surveyInto cutShort_of_unfinished
    (Transformer.leaves_buffers leaves) (holding_outset isHeld) halts⟩

/-- A summary that is lost leaves a text that is no object. -/
theorem unreadable_of_loses
    (loses : workshop.Loses options equipment names opened paths) :
    ∃ cut, (∀ entries, Json.readEntries cut ≠ .ok entries) ∧
      HoldsAt output names (workshop.filesAfter names
        ((workshop.surveyInto equipment options names).run output paths
          (workshop.outset opened)).2) (Text.octets cut) := by
  have held : ∀ {collected findings reached}, Survey.Closes (Holding output names)
      (workshop.surveyInto equipment options names) (workshop.outset opened) collected findings
        reached → _ :=
    Survey.Closes.held wavers_surveyInto cutShort_of_unfinished
      (Transformer.leaves_buffers leaves) (holding_outset isHeld)
  cases loses with
  | uncollected failed =>
      rw [run_of_uncollected allowed failed]
      exact ⟨"", Summary.readEntries_unfinished (.inl rfl), isHeld⟩
  | @unclosed collected gathered unclosed =>
      obtain ⟨findings, -, closes⟩ := closes_reached allowed leaves isHeld collected
      rw [run_of_collected allowed gathered]
      obtain ⟨text, textHeld, ⟨closed, -⟩ | unreadable⟩ := held closes
      · exact absurd closed unclosed
      · exact unreadable_after unreadable textHeld
  | @undelivered collected gathered waits =>
      -- the file is cut short, whatever was written
      obtain ⟨findings, -, closes⟩ := closes_reached allowed leaves isHeld collected
      rw [run_of_collected allowed gathered]
      obtain ⟨text, textHeld, -⟩ := held closes
      rcases workshop.arrives textHeld with ⟨noneWaits, -⟩ | ⟨-, cutShort⟩
      · exact absurd noneWaits waits
      · exact cutShort
  | spoiled gathered spoils =>
      rw [run_of_collected allowed gathered]
      obtain ⟨text, unreadable, textHeld⟩ := Survey.finish_of_spoils wavers_surveyInto
        cutShort_of_unfinished (Transformer.leaves_buffers leaves) (holding_outset isHeld) spoils
      exact unreadable_after unreadable textHeld

/-- A summary that is not lost is finished. -/
theorem finished_of_not_loses
    (notLost : ¬ workshop.Loses options equipment names opened paths) :
    ∃ collected findings text,
      Files.collect opened paths = .ok collected ∧
      (workshop.surveyInto equipment options names).Halts (workshop.outset opened) collected
        findings (workshop.reached equipment options names opened collected) ∧
      HoldsAt output names (workshop.filesAfter names
        ((workshop.surveyInto equipment options names).run output paths
          (workshop.outset opened)).2) (Text.octets text) ∧
      Survey.ReadsAs text findings := by
  cases gathered : Files.collect opened paths with
  | error fault =>
      exact absurd (.uncollected gathered) notLost
  | ok collected =>
      obtain ⟨findings, halts, closes⟩ := closes_reached allowed leaves isHeld collected
      rw [run_of_collected allowed gathered]
      cases closes with
      | cut unclosed unfinished =>
          exact absurd (.unclosed gathered unclosed) notLost
      | spoiled spoils =>
          exact absurd (.spoiled gathered spoils) notLost
      | @complete text closed reads textHeld =>
          rcases workshop.arrives textHeld with ⟨-, stands⟩ | ⟨waits, -⟩
          · exact ⟨collected, findings, text, rfl, halts, stands, reads⟩
          · exact absurd (.undelivered gathered waits) notLost

end Collected

end Held

/-! ## What a run leaves -/

section Executed

variable {workshop} {situation : Situation} {arguments : List String} {request : Request}
  {choice : Choice} {options : Search.Options} {batchSize : Option Nat} {output : String}
  {paths : List String} {equipment : Equipment τ} {names : List String}
  {opened : Files.Storage}

/-- A search whose file is never opened changes no file. -/
theorem files_of_not_opens
    (asked : Request.ofArguments arguments = .ok request)
    (task : request.task = .find choice options batchSize output paths)
    (notOpened : ∀ equipment names opened,
      ¬ workshop.Opens situation request choice options batchSize output equipment names opened) :
    (workshop.execute situation arguments).files = situation.files := by
  cases equipped : workshop.equip situation request choice batchSize with
  | error failure =>
      simp [execute, asked, perform, task, equipped]
  | ok equipment =>
      have isInto : (workshop.execute situation arguments).files =
          (workshop.searchInto equipment options output paths situation.files).2 := by
        simp [execute, asked, perform, task, equipped]
      rw [isInto, searchInto]
      cases allowed : Search.ensureSearchable equipment.record options with
      | error refusal => rfl
      | ok _ =>
          cases written : situation.files.write output [] with
          | error fault => rfl
          | ok spot => exact absurd ⟨equipped, allowed, written⟩ (notOpened equipment spot.1 spot.2)

/-- Once its file is open, a search does what its survey does. -/
theorem execute_of_opens
    (asked : Request.ofArguments arguments = .ok request)
    (task : request.task = .find choice options batchSize output paths)
    (opens : workshop.Opens situation request choice options batchSize output equipment names
      opened) :
    (workshop.execute situation arguments).files =
        workshop.filesAfter names ((workshop.surveyInto equipment options names).run output paths
          (workshop.outset opened)).2 ∧
      (workshop.execute situation arguments).exit =
        (responseTo ((workshop.surveyInto equipment options names).run output paths
          (workshop.outset opened)).1).exitNumber := by
  have isSurvey := searchInto_of_write workshop opens.allowed opens.written paths
  constructor
  · simp [execute, asked, perform, task, opens.equipped, isSurvey]
  · simp [execute, asked, perform, task, opens.equipped, isSurvey]

theorem equip_transformer
    (equipped : workshop.equip situation request choice batchSize = .ok equipment) :
    ∃ external, equipment.transformer = workshop.transformerFor external := by
  simp only [equip, bind, Except.bind] at equipped
  split at equipped
  · cases equipped
  split at equipped
  · cases equipped
  split at equipped
  · cases equipped
  cases equipped
  exact ⟨_, rfl⟩

variable (grounded : situation.files.Grounded)
  (asked : Request.ofArguments arguments = .ok request)
  (task : request.task = .find choice options batchSize output paths)
  (leaves : ∀ external names, (workshop.transformerFor external).Leaves
    fun state => HoldsAt output names state.2)

include grounded asked task leaves

/-- A run that loses its summary fails, and leaves a text that is no object. -/
theorem fails_of_losesSummary
    (loses : workshop.LosesSummary situation request choice options batchSize output paths) :
    (workshop.execute situation arguments).exit ≠ 0 ∧
      ∃ cut, (workshop.execute situation arguments).files.status output =
          .ok (.file (Text.octets cut)) ∧
        ∀ entries, Json.readEntries cut ≠ .ok entries := by
  obtain ⟨equipment, names, opened, opens, loses⟩ := loses
  obtain ⟨external, isExternal⟩ := equip_transformer opens.equipped
  have isHeld := holdsAt_of_write grounded opens.written
  obtain ⟨cut, unreadable, cutHeld⟩ :=
    unreadable_of_loses opens.allowed (isExternal ▸ leaves external names) isHeld loses
  obtain ⟨isLeft, ends⟩ := execute_of_opens asked task opens
  rw [isLeft, ends]
  refine ⟨?_, cut, cutHeld.status, unreadable⟩
  have fails : ((workshop.surveyInto equipment options names).run output paths
      (workshop.outset opened)).1.isOk = false := fails_of_loses opens.allowed loses
  cases result : ((workshop.surveyInto equipment options names).run output paths
    (workshop.outset opened)).1 with
  | error failure =>
      cases failure <;> simp [responseTo, Response.exitNumber, Failure.code, ExitCode.number]
  | ok response =>
      rw [result] at fails
      cases fails

theorem holdsFinished_of_not_loses
    (opens : workshop.Opens situation request choice options batchSize output equipment names
      opened)
    (notLost : ¬ workshop.Loses options equipment names opened paths) :
    workshop.HoldsFinished situation request choice options batchSize output paths
      (workshop.execute situation arguments).files := by
  obtain ⟨external, isExternal⟩ := equip_transformer opens.equipped
  have isHeld := holdsAt_of_write grounded opens.written
  obtain ⟨collected, findings, text, gathered, halts, textHeld, reads⟩ :=
    finished_of_not_loses opens.allowed (isExternal ▸ leaves external names) isHeld notLost
  rw [← (execute_of_opens asked task opens).1] at textHeld
  exact ⟨equipment, names, opened, collected, findings, text, opens, gathered, halts,
    textHeld.status, reads⟩

end Executed

end Workshop

/-- However the system treats what is written and whatever can be read, a search
leaves the file of its summary as it was, or with one object of the findings that it
came to, unless it has opened the file and lost the summary.  A run that loses it
fails and leaves a text that is no object, and if the inputs could not be collected,
an empty file.  Arguments that do not fit change nothing. -/
theorem search_keeps_or_finishes_summary_iff
    {τ : Type} (workshop : Workshop τ) {situation : Situation}
    (grounded : situation.files.Grounded) {arguments : List String} {request : Request}
    (asked : Request.ofArguments arguments = .ok request)
    {choice : Choice} {options : Search.Options} {batchSize : Option Nat} {output : String}
    {paths : List String}
    (task : request.task = .find choice options batchSize output paths)
    (leaves : ∀ external names, (workshop.transformerFor external).Leaves
      fun state => HoldsAt output names state.2) :
    (((workshop.execute situation arguments).files.status output =
          situation.files.status output ∨
        workshop.HoldsFinished situation request choice options batchSize output paths
          (workshop.execute situation arguments).files) ↔
      (workshop.LosesSummary situation request choice options batchSize output paths →
        (workshop.execute situation arguments).files.status output =
          situation.files.status output)) ∧
    (workshop.LosesSummary situation request choice options batchSize output paths →
      (workshop.execute situation arguments).exit ≠ 0 ∧
        ∃ cut, (workshop.execute situation arguments).files.status output =
            .ok (.file (Text.octets cut)) ∧
          ∀ entries, Json.readEntries cut ≠ .ok entries) ∧
    (∀ equipment names opened fault,
      workshop.Opens situation request choice options batchSize output equipment names opened →
      Files.collect opened paths = .error fault →
        (workshop.execute situation arguments).files.status output = .ok (.file [])) ∧
    ∀ others halt, Request.ofArguments others = .error halt →
      (workshop.execute situation others).files = situation.files := by
  refine ⟨⟨?_, ?_⟩, Workshop.fails_of_losesSummary grounded asked task leaves, ?_, ?_⟩
  · rintro (kept | ⟨_, _, _, _, findings, text, -, -, -, isText, entries, reads, -⟩) loses
    · exact kept
    · obtain ⟨-, cut, isCut, unreadable⟩ :=
        Workshop.fails_of_losesSummary grounded asked task leaves loses
      have sameOctets : Text.octets text = Text.octets cut := by
        simpa using isText.symm.trans isCut
      obtain rfl := Text.octets_injective sameOctets
      exact absurd reads (unreadable entries)
  · intro keptIfLost
    by_cases someOpened : ∃ equipment names opened,
      workshop.Opens situation request choice options batchSize output equipment names opened
    · obtain ⟨equipment, names, opened, opens⟩ := someOpened
      by_cases loses : workshop.Loses options equipment names opened paths
      · exact .inl (keptIfLost ⟨equipment, names, opened, opens, loses⟩)
      · exact .inr (Workshop.holdsFinished_of_not_loses grounded asked task leaves opens loses)
    · -- nothing was changed before the file could be opened
      left
      rw [Workshop.files_of_not_opens asked task fun equipment names opened opens =>
        someOpened ⟨equipment, names, opened, opens⟩]
  · intro equipment names opened fault opens failed
    rw [(Workshop.execute_of_opens asked task opens).1,
      Workshop.run_of_uncollected opens.allowed failed]
    exact (holdsAt_of_write grounded opens.written).status
  · intro others halt halted
    cases halt <;> simp [Workshop.execute, halted]

/-- A transformer that gives every source back, and a system that takes every text. -/
def echoing : Workshop Unit where
  transformerFor _ := (Transformer.ofFunction "echo" fun code _ => .ok code).beside
  takes _ _ := (.ok (), ())
  blank := ()

/-- A folder with two sources and an old summary.  The second source refuses to be
read. -/
def folderWithSealed : Situation where
  files := {
    root := .folder [
      ("a.js", .file (Text.octets "f();")),
      ("b.js", .file (Text.octets "g();")),
      ("out.json", .file (Text.octets "\x7b\"old\": []\x7d\n"))]
    refuses := fun access names => access == .read && names == ["b.js"] }
  bindings := []

/-- A search of both sources. -/
def sealedArguments : List String :=
  ["find-triggered-options", "-o", "out.json", "a.js", "b.js"]

/-- The request that those arguments make. -/
def sealedRequest : Request where
  cacheFolder := none
  timeoutSeconds := none
  task := .find {} {} none "out.json" ["a.js", "b.js"]

/-- A source that cannot be read leaves a finished summary of those before it. -/
theorem sealed_source_leaves_finished_summary :
    Request.ofArguments sealedArguments = .ok sealedRequest ∧
    (echoing.execute folderWithSealed sealedArguments).exit = 4 ∧
    echoing.HoldsFinished folderWithSealed sealedRequest {} {} none "out.json" ["a.js", "b.js"]
      (echoing.execute folderWithSealed sealedArguments).files := by
  have asked : Request.ofArguments sealedArguments = .ok sealedRequest := by
    rfl
  have grounded : folderWithSealed.files.Grounded := by
    decide
  have leaves : ∀ external names, (echoing.transformerFor external).Leaves
      fun state => HoldsAt "out.json" names state.2 :=
    fun _ _ => ⟨fun isHeld _ _ => isHeld, fun isHeld => isHeld⟩
  have isLeft : (echoing.execute folderWithSealed sealedArguments).files.read "out.json" =
      .ok (Text.octets (Summary.textOf [("a.js", .linear [])])) := by
    decide +kernel
  have wasThere : folderWithSealed.files.read "out.json" =
      .ok (Text.octets "\x7b\"old\": []\x7d\n") := by
    decide +kernel
  obtain ⟨keptOrFinished, unreadable, -⟩ :=
    search_keeps_or_finishes_summary_iff echoing grounded asked rfl leaves
  refine ⟨asked, by decide +kernel, ?_⟩
  -- what is left is an object, so the summary was not lost
  have notLost : ¬ echoing.LosesSummary folderWithSealed sealedRequest {} {} none "out.json"
      ["a.js", "b.js"] := by
    intro loses
    obtain ⟨-, cut, isCut, noObject⟩ := unreadable loses
    have sameOctets := (status_of_read isLeft).symm.trans isCut
    simp only [Except.ok.injEq, Files.Entry.file.injEq] at sameOctets
    obtain rfl := Text.octets_injective sameOctets
    exact noObject _ (Summary.readEntries_textOf _)
  rcases keptOrFinished.mpr fun loses => absurd loses notLost with kept | finished
  · rw [status_of_read isLeft, status_of_read wasThere] at kept
    simp only [Except.ok.injEq, Files.Entry.file.injEq] at kept
    exact absurd kept (by decide +kernel)
  · exact finished

/-- A working folder with a configuration of one flag and an old summary. -/
def folderWithSummary : Situation where
  files := { root := .folder [
    ("config.json", .file (Text.octets "\x7b\"fold\": true\x7d")),
    ("out.json", .file (Text.octets "\x7b\"old\": []\x7d\n"))] }
  bindings := []

/-- A missing input empties the old summary. -/
theorem missing_input_empties_summary :
    (execute folderWithSummary
        ["find-triggered-options", "-o", "out.json", "missing.js"]).exit = 3 ∧
      folderWithSummary.files.readText "out.json" = .ok "\x7b\"old\": []\x7d\n" ∧
      (execute folderWithSummary
        ["find-triggered-options", "-o", "out.json", "missing.js"]).files.readText "out.json" =
          .ok "" ∧
      ∀ members, Json.readEntries "" ≠ .ok members := by
  refine ⟨?_, ?_, ?_, Summary.readEntries_unfinished (.inl rfl)⟩
  · decide +kernel
  · decide +kernel
  · decide +kernel

end CommandLine

end ShapeAudit
