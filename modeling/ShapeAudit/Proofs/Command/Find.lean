import Mathlib.Data.List.Forall2
import ShapeAudit.Command.Find
import ShapeAudit.Proofs.Files.Collect
import ShapeAudit.Proofs.Search.Simulation
import ShapeAudit.Proofs.Summary
import ShapeAudit.Proofs.Transform.Memo

/-!
# Searching many files

Files are read and searched one after the other, and the transformer, which may
change the files as it likes, is called in between.  What stands in the summary
of a file depends on the source that was read when its turn came, and on nothing
that happened to other files.
-/

namespace ShapeAudit

/-- A transformer leaves what was written alone. -/
structure Transformer.Leaves
    {σ : Type} (transformer : Transformer σ) (holds : σ → List UInt8 → Prop) : Prop where
  transform : ∀ {state held}, holds state held → ∀ code config,
    holds (transformer.transform code config state).2 held
  reset : ∀ {state held}, holds state held → holds (transformer.reset state) held

/-- A whole search leaves it alone, with the reset behind it. -/
theorem Transformer.Leaves.rests
    {σ : Type} {transformer : Transformer σ} {holds : σ → List UInt8 → Prop}
    (leaves : transformer.Leaves holds) (code : String) (record : Config.Record)
    (options : Search.Options) {state : σ} {held : List UInt8} (isHeld : holds state held) :
    holds (transformer.reset (Search.find transformer code record options state).2) held := by
  apply leaves.reset
  exact Search.find_keeps (fun state => holds state held)
    (fun config _ state isHeld => leaves.transform isHeld code config) isHeld

/-- With a table in front of it the transformer still leaves alone what it did. -/
theorem Transform.memoized_leaves
    {σ : Type} {transformer : Transformer σ} {holds : σ → List UInt8 → Prop}
    (leaves : transformer.Leaves holds) :
    (memoized transformer).Leaves fun memo => holds memo.inner where
  transform := by
    intro memo held isHeld code config
    have afterHeld := leaves.transform isHeld code config
    rcases memoized_cases transformer code config memo with
      ⟨output, -, served⟩ | ⟨-, ⟨output, after, answered, served⟩ |
        ⟨fault, after, answered, served⟩⟩
    · rw [served]
      exact isHeld
    · rw [answered] at afterHeld
      rw [served]
      exact afterHeld
    · rw [answered] at afterHeld
      rw [served]
      exact afterHeld
  reset := by
    intro memo held isHeld
    exact leaves.reset isHeld

/-- A sink for a state with a table in front of it. -/
def Sink.behindTable {σ : Type} (sink : Sink σ) : Sink (Transform.Memo σ) where
  write text memo :=
    let (result, after) := sink.write text memo.inner
    (result, { memo with inner := after })
  flush memo :=
    let (result, after) := sink.flush memo.inner
    (result, { memo with inner := after })

namespace Command

open Config (Record)
open Summary (Finding Records membersOf textOf)
open Transform (KeysApart Memo memoized)

/-! ## Surveys -/

/-- A search over files: what transforms, what the summary is written to, where
the files are, and what is searched for. -/
structure Survey (σ : Type) where
  transformer : Transformer σ
  sink : Sink σ
  filesOf : σ → Files.Storage
  record : Record
  options : Search.Options
  batchSize : Nat

namespace Survey

variable {σ : Type}

/-- Collects files, searches them and writes the summary. -/
def run (survey : Survey σ) (label : String) (paths : List String) (state : σ) :
    Except Failure Response × σ :=
  find survey.transformer survey.sink survey.filesOf survey.record survey.options
    survey.batchSize label paths state

/-- Searches some files, with a summary that is new. -/
def search (survey : Survey σ) (state : σ) (done : List String) :
    Except Failure Nat × (Summary × σ) :=
  searchFiles survey.transformer survey.sink survey.filesOf survey.record survey.options
    done 0 (Summary.start survey.batchSize, state)

/-- Reads a file when its turn comes, behind those that are done. -/
def readAfter (survey : Survey σ) (state : σ) (done : List String) (path : String) :
    Except Failure String :=
  readSource (survey.filesOf (survey.search state done).2.2) path

/-- Files that can be read one after the other, with the sources that are read. -/
inductive ReadInTurn (survey : Survey σ) (state : σ) : List (String × String) → Prop where
  | none : ReadInTurn survey state []
  | next {sources : List (String × String)} {path code : String} :
      ReadInTurn survey state sources →
        survey.readAfter state (sources.map Prod.fst) path = .ok code →
        ReadInTurn survey state (sources ++ [(path, code)])

/-- In how many files something was found. -/
def countFound (findings : List Finding) : Nat :=
  findings.countP fun finding => !finding.2.isEmpty

/-- The result for a file, as it stands in the summary, is a result for its
source. -/
def FoundIn (finds : String → Search.Triggered → Prop)
    (source : String × String) (finding : Finding) : Prop :=
  finding.1 = source.1 ∧ finds source.2 finding.2

/-- The searches of a survey leave what was written alone, for sources that are
admitted, and find what they should. -/
structure Steady
    (survey : Survey σ) (holds : σ → List UInt8 → Prop)
    (admitted : String → Prop) (finds : String → Search.Triggered → Prop) : Prop where
  keeps : survey.sink.Keeps holds
  found : ∀ {code}, admitted code → ∀ {state held}, holds state held →
    ∃ found, (Search.find survey.transformer code survey.record survey.options state).1 =
      .ok found ∧ finds code found
  rests : ∀ {code}, admitted code → ∀ {state held}, holds state held →
    holds (survey.transformer.reset
      (Search.find survey.transformer code survey.record survey.options state).2) held

/-- The text that was written is that of an object with some findings as its
members. -/
def HoldsSummary
    (holds : σ → List UInt8 → Prop) (state : σ) (findings : List Finding) : Prop :=
  ∃ text, holds state (Text.octets text) ∧ Json.readEntries text = .ok (membersOf findings)

/-- What a survey of collected files answers and writes.  Each finding is a
result for the source of its own file, as that was read when its turn came. -/
structure Reports
    (survey : Survey σ) (holds : σ → List UInt8 → Prop)
    (admitted : String → Prop) (finds : String → Search.Triggered → Prop)
    (label : String) (paths collected : List String) (state : σ) : Prop where
  /-- All files can be read in turn, or one of them is the first that cannot. -/
  settled : ∃ sources, survey.ReadInTurn state sources ∧
    (collected = sources.map Prod.fst ∨
      ∃ path later failure, collected = sources.map Prod.fst ++ path :: later ∧
        survey.readAfter state (sources.map Prod.fst) path = .error failure)
  /-- If all files can be read, the summary has an entry for each. -/
  complete : ∀ sources, survey.ReadInTurn state sources →
    (∀ source ∈ sources, admitted source.2) → collected = sources.map Prod.fst →
    ∃ findings after, List.Forall₂ (FoundIn finds) sources findings ∧
      survey.run label paths state =
        (.ok (.searched survey.transformer.label label collected.length (countFound findings)),
          after) ∧
      HoldsSummary holds after findings
  /-- If some file cannot be read, the summary has an entry for each file before
  it. -/
  stopped : ∀ sources path later failure, survey.ReadInTurn state sources →
    (∀ source ∈ sources, admitted source.2) →
    collected = sources.map Prod.fst ++ path :: later →
    survey.readAfter state (sources.map Prod.fst) path = .error failure →
    ∃ findings after, List.Forall₂ (FoundIn finds) sources findings ∧
      survey.run label paths state = (.error failure, after) ∧
      HoldsSummary holds after findings

/-- A report on what was written is one on anything that follows from it. -/
theorem Reports.weaken
    {survey : Survey σ} {holds weaker : σ → List UInt8 → Prop} {admitted : String → Prop}
    {finds : String → Search.Triggered → Prop} {label : String} {paths collected : List String}
    {state : σ} (reports : survey.Reports holds admitted finds label paths collected state)
    (follows : ∀ state held, holds state held → weaker state held) :
    survey.Reports weaker admitted finds label paths collected state where
  settled := reports.settled
  complete := by
    intro sources inTurn areAdmitted isAll
    obtain ⟨findings, after, results, ran, text, isHeld, entries⟩ :=
      reports.complete sources inTurn areAdmitted isAll
    exact ⟨findings, after, results, ran, text, follows _ _ isHeld, entries⟩
  stopped := by
    intro sources path later failure inTurn areAdmitted isSplit failed
    obtain ⟨findings, after, results, ran, text, isHeld, entries⟩ :=
      reports.stopped sources path later failure inTurn areAdmitted isSplit failed
    exact ⟨findings, after, results, ran, text, follows _ _ isHeld, entries⟩

/-! ## One file after the other -/

/-- Every survey comes to an end: it reads all files or is stopped by one that
cannot be read. -/
theorem exists_readInTurn (survey : Survey σ) (state : σ) (paths : List String) :
    ∃ sources, survey.ReadInTurn state sources ∧
      (paths = sources.map Prod.fst ∨
        ∃ path later failure, paths = sources.map Prod.fst ++ path :: later ∧
          survey.readAfter state (sources.map Prod.fst) path = .error failure) := by
  induction paths using List.reverseRecOn with
  | nil =>
      exact ⟨[], .none, Or.inl rfl⟩
  | append_singleton paths path inductionHypothesis =>
      obtain ⟨sources, inTurn, rfl | ⟨stopped, later, failure, rfl, failed⟩⟩ :=
        inductionHypothesis
      · cases read : survey.readAfter state (sources.map Prod.fst) path with
        | ok code =>
            exact ⟨_, inTurn.next read, Or.inl (by simp)⟩
        | error failure =>
            exact ⟨sources, inTurn, Or.inr ⟨path, [], failure, rfl, read⟩⟩
      · exact ⟨sources, inTurn, Or.inr ⟨stopped, later ++ [path], failure, by simp, failed⟩⟩

theorem searchFiles_append
    (survey : Survey σ) (earlier later : List String) (triggered : Nat)
    (progress : Summary × σ) :
    searchFiles survey.transformer survey.sink survey.filesOf survey.record survey.options
        (earlier ++ later) triggered progress =
      match searchFiles survey.transformer survey.sink survey.filesOf survey.record
          survey.options earlier triggered progress with
      | (.error failure, after) => (.error failure, after)
      | (.ok count, after) =>
          searchFiles survey.transformer survey.sink survey.filesOf survey.record
            survey.options later count after := by
  induction earlier generalizing triggered progress with
  | nil =>
      rfl
  | cons path rest inductionHypothesis =>
      simp only [List.cons_append, searchFiles]
      rcases searchFile survey.transformer survey.sink survey.filesOf survey.record
        survey.options path progress with ⟨failure | found, after⟩
      · rfl
      · exact inductionHypothesis _ after

section Running

variable {survey : Survey σ} {holds : σ → List UInt8 → Prop} {admitted : String → Prop}
  {finds : String → Search.Triggered → Prop}

/-- A survey that may be made searches the files that it collects. -/
theorem run_eq_searchCollected
    (survey : Survey σ) (state : σ)
    (allowed : Search.ensureSearchable survey.record survey.options = .ok ())
    {paths collected : List String}
    (gathered : Files.collect (survey.filesOf state) paths = .ok collected) (label : String) :
    survey.run label paths state =
      searchCollected survey.transformer survey.sink survey.filesOf survey.record
        survey.options survey.batchSize label collected state := by
  simp only [run, find, allowed, gathered]

/-- A file that cannot be read stops the search before anything is done. -/
theorem searchFile_of_error
    {path : String} {progress : Summary × σ} {failure : Failure}
    (failed : readSource (survey.filesOf progress.2) path = .error failure) :
    searchFile survey.transformer survey.sink survey.filesOf survey.record survey.options
      path progress = (.error failure, progress) := by
  simp [searchFile, failed]

variable (steady : survey.Steady holds admitted finds)

include steady

/-- A file that can be read is recorded in the summary. -/
theorem searchFile_of_ok
    {findings : List Finding} {progress : Summary × σ}
    (records : Records holds survey.batchSize findings progress)
    {path code : String} (read : readSource (survey.filesOf progress.2) path = .ok code)
    (isAdmitted : admitted code) :
    ∃ found after,
      searchFile survey.transformer survey.sink survey.filesOf survey.record survey.options
          path progress = (.ok (!found.isEmpty), after) ∧
        finds code found ∧
        Records holds survey.batchSize (findings ++ [(path, found)]) after := by
  obtain ⟨held, isHeld⟩ := Summary.held_of_records records
  obtain ⟨found, result, isFound⟩ := steady.found isAdmitted isHeld
  have rested := Summary.records_moved records (steady.rests isAdmitted)
  obtain ⟨after, pushed, nextRecords⟩ :=
    Summary.push_records steady.keeps rested (path, found)
  refine ⟨found, after, ?_, isFound, nextRecords⟩
  simp only [searchFile, read, result, pushed]

/-- The files that can be read in turn are recorded, each with a result for its
own source. -/
theorem search_of_readInTurn
    {state : σ} (blank : holds state []) {sources : List (String × String)}
    (inTurn : survey.ReadInTurn state sources)
    (areAdmitted : ∀ source ∈ sources, admitted source.2) :
    ∃ findings after,
      survey.search state (sources.map Prod.fst) = (.ok (countFound findings), after) ∧
        List.Forall₂ (FoundIn finds) sources findings ∧
        Records holds survey.batchSize findings after := by
  -- turn by turn: a file is read in the state that all files before it have left
  induction inTurn with
  | none =>
      exact ⟨[], _, rfl, .nil, Summary.records_start blank survey.batchSize⟩
  | @next sources path code _ read inductionHypothesis =>
      obtain ⟨findings, after, searched, results, records⟩ := inductionHypothesis
        fun source isSource => areAdmitted source (List.mem_append_left _ isSource)
      have isAdmitted : admitted code :=
        areAdmitted (path, code) (List.mem_append_right _ List.mem_cons_self)
      rw [readAfter, searched] at read
      obtain ⟨found, next, pushed, isFound, nextRecords⟩ :=
        searchFile_of_ok steady records read isAdmitted
      refine ⟨findings ++ [(path, found)], next, ?_, ?_, nextRecords⟩
      · rw [search] at searched ⊢
        rw [List.map_append, searchFiles_append, searched]
        simp only [List.map_cons, List.map_nil, searchFiles, pushed, countFound,
          List.countP_append, List.countP_singleton]
        cases found.isEmpty <;> rfl
      · exact List.rel_append results (.cons ⟨rfl, isFound⟩ .nil)

/-- Closing the summary behind those files completes it. -/
theorem finish_of_readInTurn
    {state : σ} (blank : holds state []) {sources : List (String × String)}
    (inTurn : survey.ReadInTurn state sources)
    (areAdmitted : ∀ source ∈ sources, admitted source.2) :
    ∃ findings after closed,
      survey.search state (sources.map Prod.fst) = (.ok (countFound findings), after) ∧
        Summary.finish survey.sink after = (.ok findings.length, closed) ∧
        List.Forall₂ (FoundIn finds) sources findings ∧
        HoldsSummary holds closed.2 findings := by
  obtain ⟨findings, after, searched, results, records⟩ :=
    search_of_readInTurn steady blank inTurn areAdmitted
  obtain ⟨closed, finished, isHeld⟩ := Summary.finish_records steady.keeps records
  exact ⟨findings, after, closed, searched, finished, results,
    textOf findings, isHeld, Summary.readEntries_textOf findings⟩

/-- What a survey reports if its searches leave what was written alone. -/
theorem reports_of_steady
    (allowed : Search.ensureSearchable survey.record survey.options = .ok ())
    (state : σ) (blank : holds state []) {paths collected : List String}
    (gathered : Files.collect (survey.filesOf state) paths = .ok collected) (label : String) :
    survey.Reports holds admitted finds label paths collected state := by
  have begins := run_eq_searchCollected survey state allowed gathered label
  refine ⟨survey.exists_readInTurn state collected, ?_, ?_⟩
  · rintro sources inTurn areAdmitted rfl
    obtain ⟨findings, after, closed, searched, finished, results, summary⟩ :=
      finish_of_readInTurn steady blank inTurn areAdmitted
    refine ⟨findings, closed.2, results, ?_, summary⟩
    rw [search] at searched
    rw [begins, searchCollected, searched, List.length_map, results.length_eq]
    simp only [finished]
  · rintro sources path later failure inTurn areAdmitted rfl failed
    obtain ⟨findings, after, closed, searched, finished, results, summary⟩ :=
      finish_of_readInTurn steady blank inTurn areAdmitted
    refine ⟨findings, closed.2, results, ?_, summary⟩
    rw [readAfter, searched] at failed
    rw [search] at searched
    rw [begins, searchCollected, searchFiles_append, searched]
    simp only [searchFiles, searchFile_of_error failed, finished]

end Running

/-! ## With and without a table -/

/-- What a function that answers for the transformer finds in a source. -/
def Alone
    (survey : Survey σ) (answer : String → Json → Except Transform.Fault String)
    (code : String) (found : Search.Triggered) : Prop :=
  (Search.find (.ofFunction "" answer) code survey.record survey.options ()).1 = .ok found

/-- A survey with a table of outputs in front of the transformer. -/
def cached (survey : Survey σ) : Survey (Memo σ) where
  transformer := memoized survey.transformer
  sink := survey.sink.behindTable
  filesOf memo := survey.filesOf memo.inner
  record := survey.record
  options := survey.options
  batchSize := survey.batchSize

/-- The calls that the search of a source can make. -/
def asks (survey : Survey σ) (code : String) : Set (String × Json) :=
  {pair | pair.1 = code ∧ pair.2 ∈ Search.asked survey.record survey.options}

section Answered

variable {survey : Survey σ} {holds : σ → List UInt8 → Prop}
  {answer : String → Json → Except Transform.Fault String}
  (answers : survey.transformer.Answers answer)
  (keeps : survey.sink.Keeps holds) (leaves : survey.transformer.Leaves holds)
  (allowed : Search.ensureSearchable survey.record survey.options = .ok ())

include answers keeps leaves allowed

theorem steady_of_answers :
    survey.Steady holds (fun _ => True) (survey.Alone answer) where
  keeps := keeps
  found := by
    intro code _ state held _
    exact Search.exists_found_alone allowed (fun _ => True)
      (fun config _ state _ => ⟨answers code config state, trivial⟩) trivial ""
  rests := by
    intro code _ state held isHeld
    exact leaves.rests code survey.record survey.options isHeld

/-- A table that is sound before the search of a source is empty after it, so
what it holds for one file does not show in another. -/
theorem steady_of_cached (prior : Set (String × Json)) :
    survey.cached.Steady
      (fun memo held => holds memo.inner held ∧ memo.Sound answer prior)
      (fun code => KeysApart (prior ∪ survey.asks code)) (survey.Alone answer) where
  keeps := by
    constructor
    · rintro memo held ⟨isHeld, sound⟩ text
      obtain ⟨after, written, stillHeld⟩ := keeps.write isHeld text
      exact ⟨{ memo with inner := after }, by simp [cached, Sink.behindTable, written],
        stillHeld, sound⟩
    · rintro memo held ⟨isHeld, sound⟩
      obtain ⟨after, flushed, stillHeld⟩ := keeps.flush isHeld
      exact ⟨{ memo with inner := after }, by simp [cached, Sink.behindTable, flushed],
        stillHeld, sound⟩
  found := by
    rintro code apart memo held ⟨-, sound⟩
    -- the table may still hold what it was used for before the first file
    have widened : memo.Sound answer (prior ∪ survey.asks code) := by
      intro key output stored
      obtain ⟨pair, isPrior, itsKey, itsAnswer⟩ := sound key output stored
      exact ⟨pair, Or.inl isPrior, itsKey, itsAnswer⟩
    exact Search.exists_found_alone allowed
      (fun memo : Memo σ => memo.Sound answer (prior ∪ survey.asks code))
      (fun config isAsked memo sound =>
        Transform.memoized_of_sound answers apart (Or.inr ⟨rfl, isAsked⟩) sound) widened ""
  rests := by
    rintro code - memo held ⟨isHeld, -⟩
    have leavesBehind := Transform.memoized_leaves leaves
    refine ⟨?_, Memo.sound_of_entries_empty answer prior _ rfl⟩
    exact leavesBehind.rests code survey.record survey.options isHeld

end Answered

/-- Files that are searched with a transformer that answers by a function, and
that may change the files as it likes.  Every file that is reached has an entry
of its own, with what the function finds in the source that was read when its
turn came; the first file that cannot be read ends the search with its failure,
and the summary is complete up to there.  A table in front of the transformer
does not show, whatever it was used for before, if no two of those calls and of
the calls for one file have the same key. -/
theorem survey_searches_each_file_alone
    (survey : Survey σ) {answer : String → Json → Except Transform.Fault String}
    (answers : survey.transformer.Answers answer)
    {holds : σ → List UInt8 → Prop} (keeps : survey.sink.Keeps holds)
    (leaves : survey.transformer.Leaves holds)
    (allowed : Search.ensureSearchable survey.record survey.options = .ok ())
    {paths collected : List String} {state : σ} (blank : holds state [])
    (gathered : Files.collect (survey.filesOf state) paths = .ok collected) (label : String) :
    collected.Nodup ∧
    survey.Reports holds (fun _ => True) (survey.Alone answer) label paths collected state ∧
    ∀ (memo : Memo σ) (prior : Set (String × Json)),
      memo.inner = state → memo.Sound answer prior →
      survey.cached.Reports (fun memo => holds memo.inner)
        (fun code => KeysApart (prior ∪ survey.asks code)) (survey.Alone answer)
        label paths collected memo := by
  refine ⟨Files.nodup_of_collect gathered, ?_, ?_⟩
  · exact reports_of_steady (steady_of_answers answers keeps leaves allowed) allowed state
      blank gathered label
  · rintro memo prior rfl sound
    have reports := reports_of_steady (steady_of_cached answers keeps leaves allowed prior)
      allowed memo ⟨blank, sound⟩ gathered label
    exact reports.weaken fun _ _ isHeld => isHeld.1

/-- A configuration with one flag. -/
def oneFlag : Record where
  value := (Json.object [("fold", .bool true)]).arrange
  pointer := ⟨"", rfl⟩
  ordered := Json.ordered_arrange _

/-- A survey of files with a transformer that removes a file whenever it is
called. -/
def sweeping : Survey (Files.Storage × Sink.Memory) where
  transformer :=
    { label := "sweeper"
      transform := fun code config state =>
        (.ok (code ++ config.compact), (state.1.drop ["b.js"], state.2))
      reset := id }
  sink := (Sink.memory none).beside
  filesOf := Prod.fst
  record := oneFlag
  options := {}
  batchSize := 2

/-- Two files and a sink that holds nothing. -/
def twoFiles : Files.Storage × Sink.Memory :=
  ({ root := .folder [("a.js", .file (Text.octets "x")), ("b.js", .file (Text.octets "y"))] }, {})

theorem sweeping_keysApart : KeysApart (∅ ∪ sweeping.asks "x") := by
  have isAsked : Search.asked sweeping.record sweeping.options =
      [.object [("fold", .bool true)], .object [("fold", .bool false)]] := by
    rfl
  have keysDiffer : Transform.cacheKey "x" (.object [("fold", .bool true)]) ≠
      Transform.cacheKey "x" (.object [("fold", .bool false)]) := by
    decide +kernel
  rintro ⟨code, config⟩ isFirst ⟨other, otherConfig⟩ isSecond sameKey
  simp only [asks, isAsked, Set.empty_union, Set.mem_ofPred_eq, List.mem_cons, List.not_mem_nil,
    or_false] at isFirst isSecond
  obtain ⟨rfl, rfl | rfl⟩ := isFirst
  · obtain ⟨rfl, rfl | rfl⟩ := isSecond
    · rfl
    · exact absurd sameKey keysDiffer
  · obtain ⟨rfl, rfl | rfl⟩ := isSecond
    · exact absurd sameKey.symm keysDiffer
    · rfl

/-- The transformer removes the second file while the first one is searched. -/
theorem sweeping_stops_at_second_file :
    KeysApart (∅ ∪ sweeping.asks "x") ∧
    ∃ after,
      sweeping.run "summary.json" ["a.js", "b.js"] twoFiles =
        (.error (.fileNotFound "b.js"), after) ∧
      HoldsSummary (fun state held => Text.octets state.2.written = held) after
        [("a.js", .linear ["fold"])] := by
  have answers : sweeping.transformer.Answers fun code config => .ok (code ++ config.compact) :=
    fun _ _ _ => rfl
  have keeps : sweeping.sink.Keeps fun state held => Text.octets state.2.written = held :=
    Sink.beside_keeps Sink.memory_keeps
  have leaves :
      sweeping.transformer.Leaves fun state held => Text.octets state.2.written = held :=
    ⟨fun isHeld _ _ => isHeld, fun isHeld => isHeld⟩
  have blank : Text.octets twoFiles.2.written = [] := rfl
  have gathered : Files.collect (sweeping.filesOf twoFiles) ["a.js", "b.js"] =
      .ok ["a.js", "b.js"] := by
    decide +kernel
  have stands : (sweeping.filesOf twoFiles).read "a.js" = .ok (Text.octets "x") := by
    decide +kernel
  have firstRead : sweeping.readAfter twoFiles [] "a.js" = .ok "x" := by
    have decoded : Text.decodeLossy (Text.octets "x") = "x" := by
      decide +kernel
    change readSource (sweeping.filesOf twoFiles) "a.js" = .ok "x"
    simp only [readSource, stands, decoded]
  have gone : (sweeping.filesOf (sweeping.search twoFiles ["a.js"]).2.2).read "b.js" =
      .error .noEntry := by
    decide +kernel
  have secondFails : sweeping.readAfter twoFiles ["a.js"] "b.js" =
      .error (.fileNotFound "b.js") := by
    rw [readAfter, readSource, gone]
    rfl
  obtain ⟨-, reports, -⟩ := survey_searches_each_file_alone sweeping answers keeps leaves rfl
    blank gathered "summary.json"
  obtain ⟨findings, after, results, ran, summary⟩ := reports.stopped [("a.js", "x")] "b.js" []
    (.fileNotFound "b.js") (ReadInTurn.none.next firstRead) (fun _ _ => trivial) rfl secondFails
  have foundInFirst :
      (Search.find (.ofFunction "" fun code config => .ok (code ++ config.compact)) "x"
        sweeping.record sweeping.options ()).1 = .ok (.linear ["fold"]) := by
    decide +kernel
  cases results with
  | @cons _ finding _ _ isFound others =>
      cases others
      obtain ⟨path, found⟩ := finding
      obtain ⟨rfl, isAlone⟩ := isFound
      cases foundInFirst.symm.trans isAlone
      exact ⟨sweeping_keysApart, after, ran, summary⟩

end Survey

end Command

end ShapeAudit
