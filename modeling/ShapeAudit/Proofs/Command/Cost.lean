import ShapeAudit.Proofs.Command.Find
import ShapeAudit.Proofs.Search.Cost

/-!
# What a survey costs behind a table

The table is emptied behind every file, and writing the summary does not touch
it.  So the search of each file finds an empty table, and the counts of a survey
are those of its files added up, also where two files hold the same source.
-/

namespace ShapeAudit

/-- Writing to a sink leaves something of the state alone, whether it fails or not. -/
structure Sink.Spares {σ α : Type} (sink : Sink σ) (view : σ → α) : Prop where
  write : ∀ text state, view (sink.write text state).2 = view state
  flush : ∀ state, view (sink.flush state).2 = view state

namespace Summary

/-! ## What the steps of writing leave alone -/

section Sparing

variable {σ α : Type} {view : σ → α}

/-- A step of writing leaves something of the state alone. -/
def Spares (view : σ → α) (step : Step σ) : Prop :=
  ∀ before, view (step before).2.2 = view before.2

theorem spares_andThen
    {first second : Step σ} (firstSpares : Spares view first) (secondSpares : Spares view second) :
    Spares view (andThen first second) := by
  intro before
  have here := firstSpares before
  rcases done : first before with ⟨result, after⟩
  rw [done] at here
  cases result with
  | error fault =>
      simpa [andThen, done] using here
  | ok _ =>
      have later := secondSpares after
      simpa [andThen, done] using later.trans here

theorem spares_ite
    {condition : Summary × σ → Prop} [DecidablePred condition] {step : Step σ}
    (stepSpares : Spares view step) :
    Spares view fun before => if condition before then step before else (.ok (), before) := by
  intro before
  by_cases holds : condition before
  · simpa [holds] using stepSpares before
  · simp [holds]

variable {sink : Sink σ} (spares : sink.Spares view)

include spares

theorem spares_emit (text : String) : Spares view (emit sink text) :=
  fun before => spares.write text before.2

theorem spares_flushSink : Spares view (flushSink sink) :=
  fun before => spares.flush before.2

theorem spares_openObject : Spares view (openObject sink) := by
  intro before
  have opens : Spares view
      (andThen (emit sink "\x7b\n") (note fun summary => { summary with opened := true })) :=
    spares_andThen (spares_emit spares _) fun _ => rfl
  by_cases isOpen : before.1.opened = true
  · simp [openObject, isOpen]
  · simpa [openObject, isOpen] using opens before

theorem spares_flushBatch : Spares view (flushBatch sink) := by
  apply spares_andThen (spares_openObject spares)
  intro before
  have writes : Spares view (andThen (separate sink) (andThen (writePending sink)
      (andThen (flushSink sink) (note settle)))) := by
    apply spares_andThen (spares_ite (spares_emit spares _))
    apply spares_andThen fun before => spares_emit spares _ before
    exact spares_andThen (spares_flushSink spares) fun _ => rfl
  by_cases isEmpty : before.1.pending.isEmpty = true
  · simp [isEmpty]
  · simpa [isEmpty] using writes before

theorem view_push (id : String) (result : Search.Triggered) (progress : Summary × σ) :
    view (push sink id result progress).2.2 = view progress.2 := by
  obtain ⟨summary, state⟩ := progress
  simp only [push]
  split
  · exact spares_flushBatch spares _
  · rfl

theorem view_finish (progress : Summary × σ) :
    view (finish sink progress).2.2 = view progress.2 := by
  have closes : Spares view
      (andThen (flushBatch sink) (andThen (closeObject sink) (flushSink sink))) := by
    apply spares_andThen (spares_flushBatch spares)
    apply spares_andThen fun before => spares_emit spares _ before
    exact spares_flushSink spares
  have closed := closes progress
  rcases done : andThen (flushBatch sink) (andThen (closeObject sink) (flushSink sink)) progress
    with ⟨result, after⟩
  rw [done] at closed
  cases result with
  | error fault =>
      simpa [finish, done] using closed
  | ok _ =>
      simpa [finish, done] using closed

end Sparing

end Summary

/-- What a table holds and how often it was asked. -/
def Transform.Memo.account {σ : Type} (memo : Transform.Memo σ) :
    Std.HashMap String String × Nat × Nat :=
  (memo.entries, memo.hits, memo.misses)

theorem Sink.behindTable_spares {σ : Type} (sink : Sink σ) :
    sink.behindTable.Spares Transform.Memo.account where
  write _ _ := rfl
  flush _ := rfl

namespace Command.Survey

open Search (Charged candidates distinctCalls repeatedCalls)
open Transform (KeysApart Memo Succeeds memoized)

variable {σ : Type}

/-! ## The counts of a survey -/

/-- A file that can be read leaves its search behind, at rest, and the summary adds
nothing to it. -/
theorem view_searchFile
    {α : Type} (survey : Survey σ) {view : σ → α} (spares : survey.sink.Spares view)
    {path code : String} {progress : Summary × σ}
    (read : readSource (survey.filesOf progress.2) path = .ok code) :
    view (searchFile survey.transformer survey.sink survey.filesOf survey.record survey.options
        path progress).2.2 =
      view (survey.transformer.reset
        (Search.find survey.transformer code survey.record survey.options progress.2).2) := by
  simp only [searchFile, read]
  rcases Search.find survey.transformer code survey.record survey.options progress.2 with
    ⟨refusal | found, after⟩
  · rfl
  · have pushed := Summary.view_push spares path found
      (progress.1, survey.transformer.reset after)
    dsimp only
    rcases done : Summary.push survey.sink path found
      (progress.1, survey.transformer.reset after) with ⟨fault | _, final⟩
    · rw [done] at pushed
      exact pushed
    · rw [done] at pushed
      exact pushed

theorem searchFiles_singleton
    (survey : Survey σ) (path : String) (triggered : Nat) (progress : Summary × σ) :
    (searchFiles survey.transformer survey.sink survey.filesOf survey.record survey.options
        [path] triggered progress).2 =
      (searchFile survey.transformer survey.sink survey.filesOf survey.record survey.options
        path progress).2 := by
  simp only [searchFiles]
  rcases searchFile survey.transformer survey.sink survey.filesOf survey.record survey.options
    path progress with ⟨failure | found, final⟩
  · rfl
  · rfl

/-- A table that is empty and was asked as often as some files need. -/
def AccountFor (survey : Survey σ) (count : Nat) (memo : Memo σ) : Prop :=
  memo.entries = ∅ ∧
    memo.hits = count * repeatedCalls survey.options.strategy ∧
    memo.misses = count * distinctCalls survey.options.strategy
      (candidates survey.record survey.options).length

theorem accountFor_of_account
    {survey : Survey σ} {count : Nat} {first second : Memo σ}
    (same : first.account = second.account) (accounted : survey.AccountFor count second) :
    survey.AccountFor count first := by
  have parts : first.entries = second.entries ∧ first.hits = second.hits ∧
      first.misses = second.misses := by
    simpa [Memo.account] using same
  rwa [AccountFor, parts.1, parts.2.1, parts.2.2]

section Charged

variable {survey : Survey σ} {answer : String → Json → Except Transform.Fault String}
  (answers : survey.transformer.Answers answer)
  (passes : Json.passesObjects survey.record.pointer.keys survey.record.value = true)
  (withinLimit : survey.options.strategy = .powerSet →
    (candidates survey.record survey.options).length ≤ min survey.options.maxFlags 63)

include answers passes withinLimit

/-- One file more. -/
theorem accountFor_searchFile
    {count : Nat} {progress : Summary × Memo σ}
    (accounted : survey.AccountFor count progress.2) {path code : String}
    (read : readSource (survey.cached.filesOf progress.2) path = .ok code)
    (succeeds : Succeeds answer code survey.record.value)
    (apart : KeysApart (survey.asks code)) :
    survey.AccountFor (count + 1)
      (searchFile survey.cached.transformer survey.cached.sink survey.cached.filesOf
        survey.cached.record survey.cached.options path progress).2.2 := by
  obtain ⟨isEmpty, hits, misses⟩ := accounted
  obtain ⟨found, after, searched, -, charged⟩ :=
    Search.find_charged answers isEmpty passes apart withinLimit succeeds
  have left := view_searchFile survey.cached survey.sink.behindTable_spares read
  have rests : Search.find survey.cached.transformer code survey.cached.record
      survey.cached.options progress.2 = (.ok found, after) := searched
  rw [rests] at left
  apply accountFor_of_account left
  refine ⟨rfl, ?_, ?_⟩
  · rw [Nat.succ_mul, ← hits]
    exact charged.hits
  · rw [Nat.succ_mul, ← misses]
    exact charged.misses

variable {holds : σ → List UInt8 → Prop} (keeps : survey.sink.Keeps holds)
  (leaves : survey.transformer.Leaves holds)

include keeps leaves

/-- One file after the other, up to any of them. -/
theorem accountFor_search
    {state : σ} (blank : holds state []) {sources : List (String × String)}
    (inTurn : survey.cached.ReadInTurn (.fresh state) sources)
    (areGood : ∀ source ∈ sources,
      Succeeds answer source.2 survey.record.value ∧ KeysApart (survey.asks source.2)) :
    survey.AccountFor sources.length
      (survey.cached.search (.fresh state) (sources.map Prod.fst)).2.2 := by
  have steady := steady_of_cached answers keeps leaves
    (Search.checkCount_of_imp_le withinLimit) ∅
  have blankBehind : holds (Memo.fresh state).inner [] ∧ (Memo.fresh state).Sound answer ∅ :=
    ⟨blank, Memo.sound_of_entries_empty answer ∅ _ rfl⟩
  induction inTurn with
  | none =>
      refine ⟨rfl, ?_, ?_⟩
      · exact (Nat.zero_mul _).symm
      · exact (Nat.zero_mul _).symm
  | @next sources path code earlierInTurn read inductionHypothesis =>
      have earlierGood : ∀ source ∈ sources,
          Succeeds answer source.2 survey.record.value ∧ KeysApart (survey.asks source.2) :=
        fun source isEarlier => areGood source (List.mem_append_left _ isEarlier)
      obtain ⟨succeeds, apart⟩ :=
        areGood (path, code) (List.mem_append_right _ List.mem_cons_self)
      have accounted := inductionHypothesis earlierGood
      obtain ⟨findings, after, searched, -, -⟩ :=
        search_of_readInTurn steady blankBehind earlierInTurn fun source isEarlier => by
          rw [Set.empty_union]
          exact (earlierGood source isEarlier).2
      rw [readAfter, searched] at read
      rw [searched] at accounted
      dsimp only at accounted read
      have oneMore := accountFor_searchFile answers passes withinLimit accounted read succeeds
        apart
      rw [← searchFiles_singleton survey.cached path (countFound findings)] at oneMore
      rw [search] at searched
      rw [search, List.map_append, searchFiles_append, searched, List.length_append]
      exact oneMore

end Charged

/-- A search behind a table asks for each configuration once, for a transformer that
answers by a function, a pointer that leads through objects only, at most
`min maxFlags 63` candidates if all assignments are tried, and a source that has a
baseline.  With an empty table the result is the same as without one.  The search
over all assignments of `n` candidates has `2 ^ n` misses and one hit, which is the
assignment that changes nothing; the linear search has `n + 1` misses and no hit.
The table has an output for every configuration that succeeds.  A survey of files
that can be read has these counts once for each file, and leaves the table empty. -/
theorem cached_search_asks_each_configuration_once
    (survey : Survey σ) {answer : String → Json → Except Transform.Fault String}
    (answers : survey.transformer.Answers answer)
    (passes : Json.passesObjects survey.record.pointer.keys survey.record.value = true)
    (withinLimit : survey.options.strategy = .powerSet →
      (candidates survey.record survey.options).length ≤ min survey.options.maxFlags 63) :
    (∀ (code : String) (state : σ), Succeeds answer code survey.record.value →
      KeysApart (survey.asks code) →
      ∃ found after,
        Search.find (memoized survey.transformer) code survey.record survey.options
            (.fresh state) = (.ok found, after) ∧
          (Search.find survey.transformer code survey.record survey.options state).1 =
            .ok found ∧
          after.hits = repeatedCalls survey.options.strategy ∧
          after.misses = distinctCalls survey.options.strategy
            (candidates survey.record survey.options).length ∧
          after.size = {config | config ∈ Search.asked survey.record survey.options ∧
            Succeeds answer code config}.ncard) ∧
    (∀ holds : σ → List UInt8 → Prop, survey.sink.Keeps holds →
      survey.transformer.Leaves holds →
      ∀ (state : σ) (paths : List String) (sources : List (String × String)) (label : String),
        holds state [] →
        Files.collect (survey.filesOf state) paths = .ok (sources.map Prod.fst) →
        survey.cached.ReadInTurn (.fresh state) sources →
        (∀ source ∈ sources,
          Succeeds answer source.2 survey.record.value ∧ KeysApart (survey.asks source.2)) →
        ∃ response after,
          survey.cached.run label paths (.fresh state) = (.ok response, after) ∧
            after.hits = sources.length * repeatedCalls survey.options.strategy ∧
            after.misses = sources.length * distinctCalls survey.options.strategy
              (candidates survey.record survey.options).length ∧
            after.size = 0) := by
  refine ⟨?_, ?_⟩
  · intro code state succeeds apart
    have isEmpty : (Memo.fresh state).entries = ∅ := rfl
    obtain ⟨found, after, searched, direct, charged⟩ :=
      Search.find_charged answers isEmpty passes apart withinLimit succeeds
    refine ⟨found, after, searched, direct state, ?_, ?_, charged.size⟩
    · simpa [Memo.fresh] using charged.hits
    · simpa [Memo.fresh] using charged.misses
  · intro holds keeps leaves state paths sources label blank gathered inTurn areGood
    have allowed : Search.ensureSearchable survey.record survey.options = .ok () :=
      Search.checkCount_of_imp_le withinLimit
    have steady := steady_of_cached answers keeps leaves allowed ∅
    have blankBehind : holds (Memo.fresh state).inner [] ∧ (Memo.fresh state).Sound answer ∅ :=
      ⟨blank, Memo.sound_of_entries_empty answer ∅ _ rfl⟩
    obtain ⟨findings, after, closed, searched, finished, -, -⟩ :=
      finish_of_readInTurn steady blankBehind inTurn fun source isSource => by
        rw [Set.empty_union]
        exact (areGood source isSource).2
    have accounted :=
      accountFor_search answers passes withinLimit keeps leaves blank inTurn areGood
    have spared : closed.2.account = after.2.account := by
      have kept : (Summary.finish survey.cached.sink after).2.2.account = after.2.account :=
        Summary.view_finish survey.sink.behindTable_spares after
      rwa [finished] at kept
    rw [searched] at accounted
    obtain ⟨isEmpty, hits, misses⟩ := accountFor_of_account spared accounted
    refine ⟨.searched survey.cached.transformer.label label findings.length
      (countFound findings), closed.2, ?_, hits, misses, ?_⟩
    · rw [search] at searched
      rw [run_eq_searchCollected survey.cached (.fresh state) allowed gathered label,
        searchCollected, searched]
      simp only [finished]
    · simp [Memo.size, isEmpty]

/-- Gives the source back if the flag is on, and fails if not. -/
def answerIfOn (code : String) (config : Json) : Except Transform.Fault String :=
  if (config.get? "fold").bind Json.asBool? = some true then .ok code
  else .error (.unusable "fold is off")

/-- A survey over all assignments of one flag. -/
def strict : Survey (Files.Storage × Sink.Memory) where
  transformer :=
    { label := "strict"
      transform := fun code config state => (answerIfOn code config, state)
      reset := id }
  sink := (Sink.memory none).beside
  filesOf := Prod.fst
  record := oneFlag
  options := { strategy := .powerSet }
  batchSize := 1

/-- Two files with the same source, and a sink that holds nothing. -/
def twinFiles : Files.Storage × Sink.Memory :=
  ({ root := .folder [("a.js", .file (Text.octets "x")), ("b.js", .file (Text.octets "x"))] }, {})

theorem strict_keysApart : KeysApart (strict.asks "x") := by
  have probes : Search.asked strict.record strict.options =
      [.object [("fold", .bool true)], .object [("fold", .bool false)],
        .object [("fold", .bool true)]] := by
    rfl
  have swept : Search.asked sweeping.record sweeping.options =
      [.object [("fold", .bool true)], .object [("fold", .bool false)]] := by
    rfl
  have areSwept : strict.asks "x" ⊆ ∅ ∪ sweeping.asks "x" := by
    rintro pair ⟨sameCode, isAsked⟩
    have sameConfigs : Search.asked strict.record strict.options ⊆
        Search.asked sweeping.record sweeping.options := by
      rw [probes, swept]
      simp
    exact Or.inr ⟨sameCode, sameConfigs isAsked⟩
  intro first isFirst second isSecond
  exact sweeping_keysApart first (areSwept isFirst) second (areSwept isSecond)

/-- With a table in front of it the transformer still changes no state of its own. -/
theorem inner_strict (code : String) (config : Json) (memo : Memo (Files.Storage × Sink.Memory)) :
    ((memoized strict.transformer).transform code config memo).2.inner = memo.inner := by
  rcases Transform.memoized_cases strict.transformer code config memo with
    ⟨output, -, served⟩ | ⟨-, ⟨output, after, answered, served⟩ |
      ⟨fault, after, answered, served⟩⟩
  · rw [served]
  · rw [served]
    exact (congrArg Prod.snd answered).symm
  · rw [served]
    exact (congrArg Prod.snd answered).symm

/-- The search of the first file leaves both files alone. -/
theorem strict_readInTurn :
    strict.cached.ReadInTurn (.fresh twinFiles) [("a.js", "x"), ("b.js", "x")] := by
  have decoded : Text.decodeLossy (Text.octets "x") = "x" := by
    decide +kernel
  have firstStands : twinFiles.1.read "a.js" = .ok (Text.octets "x") := by
    decide +kernel
  have secondStands : twinFiles.1.read "b.js" = .ok (Text.octets "x") := by
    decide +kernel
  have firstRead : readSource (strict.cached.filesOf (.fresh twinFiles)) "a.js" = .ok "x" := by
    change readSource twinFiles.1 "a.js" = .ok "x"
    simp only [readSource, firstStands, decoded]
  have spares : strict.cached.sink.Spares strict.cached.filesOf :=
    ⟨fun _ _ => rfl, fun _ => rfl⟩
  have filesStay :
      strict.cached.filesOf (strict.cached.search (.fresh twinFiles) ["a.js"]).2.2 =
        twinFiles.1 := by
    rw [search, searchFiles_singleton, view_searchFile strict.cached spares firstRead]
    apply Search.find_keeps fun memo => strict.cached.filesOf memo = twinFiles.1
    · intro config _ memo filesStand
      exact (congrArg Prod.fst (inner_strict "x" config memo)).trans filesStand
    · rfl
  have secondRead : strict.cached.readAfter (.fresh twinFiles) ["a.js"] "b.js" = .ok "x" := by
    rw [readAfter, filesStay]
    simp only [readSource, secondStands, decoded]
  exact (ReadInTurn.none.next firstRead).next secondRead

/-- Two files with the same source are both searched in full; the probe that turns
the flag off fails, and is made once for each. -/
theorem twin_files_are_charged_twice :
    Succeeds answerIfOn "x" strict.record.value ∧ KeysApart (strict.asks "x") ∧
    (∃ found after,
      Search.find (memoized strict.transformer) "x" strict.record strict.options
          (.fresh twinFiles) = (.ok found, after) ∧
        after.hits = 1 ∧ after.misses = 2) ∧
    ∃ response after,
      strict.cached.run "summary.json" ["a.js", "b.js"] (.fresh twinFiles) =
          (.ok response, after) ∧
        after.hits = 2 ∧ after.misses = 4 ∧ after.size = 0 := by
  have succeeds : Succeeds answerIfOn "x" strict.record.value := ⟨"x", by decide +kernel⟩
  have candidate : candidates strict.record strict.options = [("fold", true)] := by
    decide +kernel
  have answers : strict.transformer.Answers answerIfOn := fun _ _ _ => rfl
  obtain ⟨alone, together⟩ := cached_search_asks_each_configuration_once strict answers
    (by decide +kernel) fun _ => by rw [candidate]; decide
  obtain ⟨found, after, searched, -, hits, misses, -⟩ :=
    alone "x" twinFiles succeeds strict_keysApart
  rw [candidate] at misses together
  obtain ⟨response, final, ran, allHits, allMisses, isEmpty⟩ := together
    (fun state held => Text.octets state.2.written = held) (Sink.beside_keeps Sink.memory_keeps)
    ⟨fun isHeld _ _ => isHeld, fun isHeld => isHeld⟩ twinFiles ["a.js", "b.js"]
    [("a.js", "x"), ("b.js", "x")] "summary.json" rfl (by decide +kernel) strict_readInTurn
    (by simp [succeeds, strict_keysApart])
  exact ⟨succeeds, strict_keysApart, ⟨found, after, searched, hits, misses⟩, response, final,
    ran, allHits, allMisses, isEmpty⟩

end Command.Survey

end ShapeAudit
