import Mathlib.Data.Set.Card
import ShapeAudit.Proofs.Search.Probe
import ShapeAudit.Transform.Memo

/-!
# Remembered outputs

A transformer with a table in front of it is served calls one after the other.
The history of a session says which calls were made and how they were answered;
what the table holds can be read off the history alone, as long as no two of the
sources and configurations that are used share a key.
-/

namespace ShapeAudit

namespace Transformer

/-- A transformer that counts the calls it gets. -/
def counted {σ : Type} (transformer : Transformer σ) : Transformer (σ × Nat) where
  label := transformer.label
  transform code config state :=
    let (result, after) := transformer.transform code config state.1
    (result, (after, state.2 + 1))
  reset state := (transformer.reset state.1, state.2)

end Transformer

namespace Transform

/-! ## Sessions -/

/-- What a transformer with a table can be asked to do. -/
inductive Call where
  /-- Transform a source under a configuration. -/
  | transform (code : String) (config : Json)
  /-- Forget all outputs. -/
  | clear
  /-- Forget all outputs and whatever the transformer itself keeps. -/
  | reset

/-- Whether a call asks for an output. -/
def Call.isTransform : Call → Bool
  | .transform _ _ => true
  | _ => false

/-- A call and its answer, if it asks for one. -/
abbrev Event := Call × Option (Except Fault String)

/-- A table in use, and what has happened so far, last call first. -/
structure Session (σ : Type) where
  memo : Memo σ
  history : List Event := []

/-- The sources and configurations that were transformed with success since the
table was emptied last, with their outputs. -/
def succeeded : List Event → List ((String × Json) × String)
  | [] => []
  | (.transform code config, some (.ok output)) :: earlier =>
      ((code, config), output) :: succeeded earlier
  | (.transform _ _, _) :: earlier => succeeded earlier
  | (.clear, _) :: _ => []
  | (.reset, _) :: _ => []

/-- The sources and configurations that were transformed with success since the
table was emptied last. -/
def succeededPairs (history : List Event) : Set (String × Json) :=
  {pair | ∃ output, (pair, output) ∈ succeeded history}

theorem succeededPairs_finite (history : List Event) :
    (succeededPairs history).Finite := by
  apply (List.finite_toSet ((succeeded history).map Prod.fst)).subset
  rintro pair ⟨output, isStored⟩
  exact List.mem_map.mpr ⟨(pair, output), isStored, rfl⟩

theorem succeededPairs_success
    (code : String) (config : Json) (output : String) (history : List Event) :
    succeededPairs ((.transform code config, some (.ok output)) :: history) =
      insert (code, config) (succeededPairs history) := by
  ext pair
  simp only [succeededPairs, succeeded, List.mem_cons, Prod.mk.injEq, Set.mem_ofPred_eq,
    Set.mem_insert_iff, exists_or, exists_and_left, exists_eq, and_true]

/-- No two different pairs of a source and a configuration have the same key. -/
def KeysApart (used : Set (String × Json)) : Prop :=
  ∀ first ∈ used, ∀ second ∈ used,
    cacheKey first.1 first.2 = cacheKey second.1 second.2 → first = second

/-- The sources and configurations that calls ask about. -/
def askedBy (calls : List Call) : Set (String × Json) :=
  {pair | Call.transform pair.1 pair.2 ∈ calls}

theorem askedBy_append_left (before later : List Call) :
    askedBy before ⊆ askedBy (before ++ later) := by
  intro pair isAsked
  exact List.mem_append_left later isAsked

variable {σ : Type}

/-! ## One call of the table -/

/-- A call whose key is in the table is answered from it. -/
theorem memoized_of_found
    (inner : Transformer σ) {code : String} {config : Json} {memo : Memo σ}
    {output : String} (found : memo.entries[cacheKey code config]? = some output) :
    (memoized inner).transform code config memo =
      (.ok output, { memo with hits := memo.hits + 1 }) := by
  simp [memoized, found]

/-- A call whose key is not in the table goes to the transformer; its output is
put in the table. -/
theorem memoized_of_ok
    {inner : Transformer σ} {code : String} {config : Json} {memo : Memo σ}
    (missing : memo.entries[cacheKey code config]? = none)
    {output : String} {after : σ}
    (answered : inner.transform code config memo.inner = (.ok output, after)) :
    (memoized inner).transform code config memo =
      (.ok output,
        { entries := memo.entries.insert (cacheKey code config) output
          hits := memo.hits
          misses := memo.misses + 1
          inner := after }) := by
  simp [memoized, missing, answered]

/-- A fault of the transformer is handed on and not remembered. -/
theorem memoized_of_error
    {inner : Transformer σ} {code : String} {config : Json} {memo : Memo σ}
    (missing : memo.entries[cacheKey code config]? = none)
    {fault : Fault} {after : σ}
    (answered : inner.transform code config memo.inner = (.error fault, after)) :
    (memoized inner).transform code config memo =
      (.error fault, { memo with misses := memo.misses + 1, inner := after }) := by
  simp [memoized, missing, answered]

/-- One call of the table: it was answered from the table, or the transformer
was called once, with success or without. -/
theorem memoized_cases
    (inner : Transformer σ) (code : String) (config : Json) (memo : Memo σ) :
    (∃ output, memo.entries[cacheKey code config]? = some output ∧
      (memoized inner).transform code config memo =
        (.ok output, { memo with hits := memo.hits + 1 })) ∨
    (memo.entries[cacheKey code config]? = none ∧
      ((∃ output after, inner.transform code config memo.inner = (.ok output, after) ∧
        (memoized inner).transform code config memo =
          (.ok output,
            { entries := memo.entries.insert (cacheKey code config) output
              hits := memo.hits
              misses := memo.misses + 1
              inner := after })) ∨
      (∃ fault after, inner.transform code config memo.inner = (.error fault, after) ∧
        (memoized inner).transform code config memo =
          (.error fault, { memo with misses := memo.misses + 1, inner := after })))) := by
  cases found : memo.entries[cacheKey code config]? with
  | some output =>
      exact Or.inl ⟨output, rfl, memoized_of_found inner found⟩
  | none =>
      refine Or.inr ⟨rfl, ?_⟩
      rcases answered : inner.transform code config memo.inner with ⟨result, after⟩
      cases result with
      | ok output =>
          exact Or.inl ⟨output, after, rfl, memoized_of_ok found answered⟩
      | error fault =>
          exact Or.inr ⟨fault, after, rfl, memoized_of_error found answered⟩

/-! ## Answers by a function -/

/-- Every output in the table is what a function answers for one of some sources
and configurations. -/
def Memo.Sound
    (answer : String → Json → Except Fault String) (used : Set (String × Json))
    (memo : Memo σ) : Prop :=
  ∀ key output, memo.entries[key]? = some output →
    ∃ pair ∈ used, cacheKey pair.1 pair.2 = key ∧ answer pair.1 pair.2 = .ok output

theorem Memo.sound_of_entries_empty
    (answer : String → Json → Except Fault String) (used : Set (String × Json))
    (memo : Memo σ) (isEmpty : memo.entries = ∅) :
    memo.Sound answer used := by
  intro key output found
  simp [isEmpty] at found

/-- Before a transformer that answers by a function a sound table gives the
answers of that function, and stays sound. -/
theorem memoized_of_sound
    {inner : Transformer σ} {answer : String → Json → Except Fault String}
    (answers : inner.Answers answer) {used : Set (String × Json)}
    (apart : KeysApart used) {code : String} {config : Json}
    (isUsed : (code, config) ∈ used) {memo : Memo σ} (sound : memo.Sound answer used) :
    ((memoized inner).transform code config memo).1 = answer code config ∧
      ((memoized inner).transform code config memo).2.Sound answer used := by
  have own := answers code config memo.inner
  rcases memoized_cases inner code config memo with
    ⟨output, found, served⟩ | ⟨-, ⟨output, after, answered, served⟩ |
      ⟨fault, after, answered, served⟩⟩
  · obtain ⟨pair, pairUsed, sameKey, itsAnswer⟩ := sound _ output found
    have samePair := apart pair pairUsed (code, config) isUsed sameKey
    subst samePair
    rw [served]
    exact ⟨itsAnswer.symm, sound⟩
  · rw [answered] at own
    rw [served]
    refine ⟨own, ?_⟩
    intro key stored isStored
    rw [Std.HashMap.getElem?_insert] at isStored
    split at isStored
    · rename_i sameKey
      cases isStored
      exact ⟨(code, config), isUsed, eq_of_beq sameKey, own.symm⟩
    · exact sound key stored isStored
  · rw [answered] at own
    rw [served]
    exact ⟨own, sound⟩

/-! ## Histories -/

namespace Session

/-- Serves one call. -/
def serve (inner : Transformer σ) (session : Session σ) : Call → Session σ
  | .transform code config =>
      let (answer, after) := (memoized inner).transform code config session.memo
      ⟨after, (.transform code config, some answer) :: session.history⟩
  | .clear => ⟨session.memo.clear, (.clear, none) :: session.history⟩
  | .reset => ⟨(memoized inner).reset session.memo, (.reset, none) :: session.history⟩

/-- Serves calls in order, beginning with an empty table. -/
def run (inner : Transformer σ) (start : σ) (calls : List Call) : Session σ :=
  calls.foldl (serve inner) ⟨.fresh start, []⟩

/-- The table holds the outputs that the history asks for and nothing else. -/
structure Tracks (used : Set (String × Json)) (session : Session σ) : Prop where
  /-- Every success since the table was emptied is in the table. -/
  remembered : ∀ pair output, (pair, output) ∈ succeeded session.history →
    session.memo.entries[cacheKey pair.1 pair.2]? = some output
  /-- Whatever is in the table was such a success. -/
  recorded : ∀ key output, session.memo.entries[key]? = some output →
    ∃ pair, (pair, output) ∈ succeeded session.history ∧ cacheKey pair.1 pair.2 = key
  /-- The successes are among the sources and configurations that are used. -/
  within : succeededPairs session.history ⊆ used
  /-- The table has as many outputs as different pairs succeeded. -/
  counted : session.memo.size = (succeededPairs session.history).ncard
  /-- Every call for an output was a hit or a miss. -/
  tallied : session.memo.hits + session.memo.misses =
    session.history.countP fun event => event.1.isTransform

namespace Tracks

theorem fresh (used : Set (String × Json)) (start : σ) :
    (⟨.fresh start, []⟩ : Session σ).Tracks used where
  remembered := by simp [succeeded]
  recorded := by simp [Memo.fresh]
  within := by simp [succeededPairs, succeeded]
  counted := by simp [succeededPairs, succeeded, Memo.fresh, Memo.size]
  tallied := by simp [Memo.fresh]

section Serving

variable {used : Set (String × Json)} {session : Session σ} (tracks : session.Tracks used)
  {code : String} {config : Json}

include tracks

/-- Emptying the table starts its history anew. -/
theorem emptied
    {memo : Memo σ} {event : Event} (notTransform : event.1.isTransform = false)
    (noneSucceeded : succeeded (event :: session.history) = [])
    (isEmpty : memo.entries = ∅)
    (sameHits : memo.hits = session.memo.hits)
    (sameMisses : memo.misses = session.memo.misses) :
    (⟨memo, event :: session.history⟩ : Session σ).Tracks used where
  remembered := by simp [noneSucceeded]
  recorded := by simp [isEmpty]
  within := by simp [succeededPairs, noneSucceeded]
  counted := by simp [succeededPairs, noneSucceeded, Memo.size, isEmpty]
  tallied := by simp [notTransform, sameHits, sameMisses, tracks.tallied]

/-- A pair is in the table exactly when it succeeded since the table was
emptied. -/
theorem found_iff
    (apart : KeysApart used) (isUsed : (code, config) ∈ used) (output : String) :
    session.memo.entries[cacheKey code config]? = some output ↔
      ((code, config), output) ∈ succeeded session.history := by
  constructor
  · intro found
    obtain ⟨pair, pairSucceeded, sameKey⟩ := tracks.recorded _ output found
    have pairUsed := tracks.within ⟨output, pairSucceeded⟩
    have samePair := apart pair pairUsed (code, config) isUsed sameKey
    rwa [samePair] at pairSucceeded
  · exact tracks.remembered (code, config) output

/-- A hit adds nothing to what has succeeded. -/
theorem hit
    (apart : KeysApart used) (isUsed : (code, config) ∈ used)
    {output : String} (found : session.memo.entries[cacheKey code config]? = some output) :
    (⟨{ session.memo with hits := session.memo.hits + 1 },
      (.transform code config, some (.ok output)) :: session.history⟩ :
        Session σ).Tracks used := by
  have before := (tracks.found_iff apart isUsed output).mp found
  have samePairs :
      succeededPairs ((.transform code config, some (.ok output)) :: session.history) =
        succeededPairs session.history := by
    rw [succeededPairs_success]
    exact Set.insert_eq_of_mem ⟨output, before⟩
  constructor
  · intro pair stored isStored
    rcases List.mem_cons.mp isStored with isThis | inHistory
    · cases isThis
      exact found
    · exact tracks.remembered pair stored inHistory
  · intro key stored isStored
    obtain ⟨pair, pairSucceeded, sameKey⟩ := tracks.recorded key stored isStored
    exact ⟨pair, List.mem_cons_of_mem _ pairSucceeded, sameKey⟩
  · rw [samePairs]
    exact tracks.within
  · rw [samePairs]
    exact tracks.counted
  · rw [List.countP_cons_of_pos rfl, ← tracks.tallied]
    exact Nat.add_right_comm _ _ _

/-- A miss that succeeds adds one pair to the table. -/
theorem success
    (apart : KeysApart used) (isUsed : (code, config) ∈ used)
    (missing : session.memo.entries[cacheKey code config]? = none)
    (output : String) (after : σ) :
    (⟨{ entries := session.memo.entries.insert (cacheKey code config) output
        hits := session.memo.hits
        misses := session.memo.misses + 1
        inner := after },
      (.transform code config, some (.ok output)) :: session.history⟩ :
        Session σ).Tracks used := by
  have isNew : (code, config) ∉ succeededPairs session.history := by
    rintro ⟨stored, isStored⟩
    rw [tracks.remembered _ stored isStored] at missing
    cases missing
  constructor
  · intro pair stored isStored
    rw [Std.HashMap.getElem?_insert]
    rcases List.mem_cons.mp isStored with isThis | inHistory
    · cases isThis
      simp
    · have otherKey : cacheKey code config ≠ cacheKey pair.1 pair.2 := by
        intro sameKey
        have pairUsed := tracks.within ⟨stored, inHistory⟩
        have samePair := apart (code, config) isUsed pair pairUsed sameKey
        exact isNew ⟨stored, samePair ▸ inHistory⟩
      simpa [otherKey] using tracks.remembered pair stored inHistory
  · intro key stored isStored
    rw [Std.HashMap.getElem?_insert] at isStored
    split at isStored
    · rename_i sameKey
      cases isStored
      exact ⟨(code, config), List.mem_cons_self, eq_of_beq sameKey⟩
    · obtain ⟨pair, pairSucceeded, itsKey⟩ := tracks.recorded key stored isStored
      exact ⟨pair, List.mem_cons_of_mem _ pairSucceeded, itsKey⟩
  · rw [succeededPairs_success]
    exact Set.insert_subset isUsed tracks.within
  · have notKey : cacheKey code config ∉ session.memo.entries := by
      rw [← Std.HashMap.isSome_getElem?_iff_mem, missing]
      simp
    have sizes := tracks.counted
    rw [Memo.size] at sizes
    rw [succeededPairs_success,
      Set.ncard_insert_of_notMem isNew (succeededPairs_finite session.history), ← sizes,
      Memo.size, Std.HashMap.size_insert, if_neg notKey]
  · rw [List.countP_cons_of_pos rfl, ← tracks.tallied]
    rfl

/-- A miss that fails leaves the table as it was. -/
theorem failure (fault : Fault) (after : σ) :
    (⟨{ session.memo with misses := session.memo.misses + 1, inner := after },
      (.transform code config, some (.error fault)) :: session.history⟩ :
        Session σ).Tracks used where
  remembered := tracks.remembered
  recorded := tracks.recorded
  within := tracks.within
  counted := tracks.counted
  tallied := by
    rw [List.countP_cons_of_pos rfl, ← tracks.tallied]
    rfl

/-- One call keeps the table true to its history. -/
theorem serve
    (inner : Transformer σ) (apart : KeysApart used) {call : Call}
    (isUsed : askedBy [call] ⊆ used) :
    (session.serve inner call).Tracks used := by
  cases call with
  | transform code config =>
      have pairUsed : (code, config) ∈ used := isUsed (List.mem_singleton_self _)
      rcases memoized_cases inner code config session.memo with
        ⟨output, found, served⟩ | ⟨missing, ⟨output, after, -, served⟩ |
          ⟨fault, after, -, served⟩⟩
      · simp only [Session.serve, served]
        exact tracks.hit apart pairUsed found
      · simp only [Session.serve, served]
        exact tracks.success apart pairUsed missing output after
      · simp only [Session.serve, served]
        exact tracks.failure fault after
  | clear =>
      exact tracks.emptied rfl rfl rfl rfl rfl
  | reset =>
      exact tracks.emptied rfl rfl rfl rfl rfl

/-- So do any number of calls. -/
theorem serveAll
    (inner : Transformer σ) (apart : KeysApart used) {calls : List Call}
    (areUsed : askedBy calls ⊆ used) :
    (calls.foldl (Session.serve inner) session).Tracks used := by
  induction calls generalizing session with
  | nil =>
      exact tracks
  | cons call rest inductionHypothesis =>
      have callUsed : askedBy [call] ⊆ used := by
        intro pair isAsked
        exact areUsed (List.mem_cons.mpr (Or.inl (List.mem_singleton.mp isAsked)))
      have restUsed : askedBy rest ⊆ used := by
        intro pair isAsked
        exact areUsed (List.mem_cons_of_mem call isAsked)
      exact inductionHypothesis (tracks.serve inner apart callUsed) restUsed

end Serving

end Tracks

/-! ## Whole runs -/

theorem run_tracks
    (inner : Transformer σ) (start : σ) (calls : List Call) {used : Set (String × Json)}
    (apart : KeysApart used) (areUsed : askedBy calls ⊆ used) :
    (run inner start calls).Tracks used :=
  (Tracks.fresh used start).serveAll inner apart areUsed

/-- The history of a run is its calls. -/
theorem history_calls (inner : Transformer σ) (start : σ) (calls : List Call) :
    (run inner start calls).history.map Prod.fst = calls.reverse := by
  have fromSession : ∀ session : Session σ,
      (calls.foldl (serve inner) session).history.map Prod.fst =
        calls.reverse ++ session.history.map Prod.fst := by
    induction calls with
    | nil =>
        simp
    | cons call rest inductionHypothesis =>
        intro session
        rw [List.foldl_cons, inductionHypothesis]
        cases call <;> simp [serve]
  simpa [run] using fromSession ⟨.fresh start, []⟩

/-- As many events of a run ask for an output as calls do. -/
theorem countP_history (inner : Transformer σ) (start : σ) (calls : List Call) :
    ((run inner start calls).history.countP fun event => event.1.isTransform) =
      calls.countP Call.isTransform := by
  calc
    ((run inner start calls).history.countP fun event => event.1.isTransform) =
        ((run inner start calls).history.map Prod.fst).countP Call.isTransform := by
          rw [List.countP_map]
          rfl
    _ = calls.countP Call.isTransform := by
          rw [history_calls, List.countP_reverse]

/-- A session in which the transformer has counted its calls, and got one for
every miss. -/
def withCount (session : Session σ) : Session (σ × Nat) where
  memo :=
    { entries := session.memo.entries
      hits := session.memo.hits
      misses := session.memo.misses
      inner := (session.memo.inner, session.memo.misses) }
  history := session.history

theorem serve_withCount (inner : Transformer σ) (session : Session σ) (call : Call) :
    session.withCount.serve inner.counted call = (session.serve inner call).withCount := by
  cases call with
  | transform code config =>
      rcases memoized_cases inner code config session.memo with
        ⟨output, found, served⟩ | ⟨missing, ⟨output, after, answered, served⟩ |
          ⟨fault, after, answered, served⟩⟩
      · have countedFound : session.withCount.memo.entries[cacheKey code config]? = some output :=
          found
        simp only [serve, served, memoized_of_found inner.counted countedFound]
        rfl
      · have countedMissing : session.withCount.memo.entries[cacheKey code config]? = none :=
          missing
        have countedAnswer :
            inner.counted.transform code config session.withCount.memo.inner =
              (.ok output, (after, session.memo.misses + 1)) := by
          simp [Transformer.counted, withCount, answered]
        simp only [serve, served, memoized_of_ok countedMissing countedAnswer]
        rfl
      · have countedMissing : session.withCount.memo.entries[cacheKey code config]? = none :=
          missing
        have countedAnswer :
            inner.counted.transform code config session.withCount.memo.inner =
              (.error fault, (after, session.memo.misses + 1)) := by
          simp [Transformer.counted, withCount, answered]
        simp only [serve, served, memoized_of_error countedMissing countedAnswer]
        rfl
  | clear =>
      rfl
  | reset =>
      rfl

/-- A transformer that counts its calls counts the misses. -/
theorem run_withCount (inner : Transformer σ) (start : σ) (calls : List Call) :
    run inner.counted (start, 0) calls = (run inner start calls).withCount := by
  have fromSession : ∀ session : Session σ,
      calls.foldl (serve inner.counted) session.withCount =
        (calls.foldl (serve inner) session).withCount := by
    induction calls with
    | nil =>
        intro session
        rfl
    | cons call rest inductionHypothesis =>
        intro session
        rw [List.foldl_cons, List.foldl_cons, serve_withCount, inductionHypothesis]
  exact fromSession ⟨.fresh start, []⟩

end Session

/-- What a function answers to a call. -/
def Call.answerBy (answer : String → Json → Except Fault String) :
    Call → Option (Except Fault String)
  | .transform code config => some (answer code config)
  | _ => none

namespace Session

/-- Before a transformer that answers by a function every answer of the table is
the function's own. -/
theorem history_of_answers
    {inner : Transformer σ} {answer : String → Json → Except Fault String}
    (answers : inner.Answers answer) (start : σ) {calls : List Call}
    (apart : KeysApart (askedBy calls)) :
    (run inner start calls).history =
      (calls.map fun call => (call, call.answerBy answer)).reverse := by
  have fromSession : ∀ rest : List Call, askedBy rest ⊆ askedBy calls →
      ∀ session : Session σ, session.memo.Sound answer (askedBy calls) →
        (rest.foldl (serve inner) session).history =
          (rest.map fun call => (call, call.answerBy answer)).reverse ++ session.history := by
    intro rest
    induction rest with
    | nil =>
        intro _ session _
        rfl
    | cons call rest inductionHypothesis =>
        intro areUsed session sound
        have restUsed : askedBy rest ⊆ askedBy calls := by
          intro pair isAsked
          exact areUsed (List.mem_cons_of_mem call isAsked)
        rw [List.foldl_cons]
        cases call with
        | transform code config =>
            have isUsed : (code, config) ∈ askedBy calls := areUsed List.mem_cons_self
            obtain ⟨own, stillSound⟩ := memoized_of_sound answers apart isUsed sound
            rw [inductionHypothesis restUsed _ stillSound]
            simp [serve, own, Call.answerBy]
        | clear =>
            have emptied := Memo.sound_of_entries_empty answer (askedBy calls)
              session.memo.clear rfl
            rw [inductionHypothesis restUsed _ emptied]
            simp [serve, Call.answerBy]
        | reset =>
            have emptied := Memo.sound_of_entries_empty answer (askedBy calls)
              ((memoized inner).reset session.memo) rfl
            rw [inductionHypothesis restUsed _ emptied]
            simp [serve, Call.answerBy]
  have sound := Memo.sound_of_entries_empty answer (askedBy calls) (.fresh start) rfl
  simpa [run] using fromSession calls subset_rfl ⟨.fresh start, []⟩ sound

end Session

open Session in
/-- A transformer with a table in front of it is a transparent memo.  A call
whose source and configuration succeeded since the table was emptied is answered
with the output of that time and does not reach the transformer; any other call
is one call of the transformer, whose faults leave the table as it is.  Hits and
misses add up to the calls for an output and survive emptying, misses are the
calls that the transformer got, and the table has one output for each pair that
succeeded since it was emptied. -/
theorem memoized_is_transparent
    (inner : Transformer σ) (start : σ) (calls : List Call)
    (apart : KeysApart (askedBy calls)) :
    (∀ before code config later, calls = before ++ .transform code config :: later →
      (∀ output, ((code, config), output) ∈ succeeded (run inner start before).history →
        (memoized inner).transform code config (run inner start before).memo =
          (.ok output, { (run inner start before).memo with
            hits := (run inner start before).memo.hits + 1 })) ∧
      ((code, config) ∉ succeededPairs (run inner start before).history →
        ∀ answer after,
          inner.transform code config (run inner start before).memo.inner = (answer, after) →
          ∃ entries,
            (memoized inner).transform code config (run inner start before).memo =
              (answer,
                { entries := entries
                  hits := (run inner start before).memo.hits
                  misses := (run inner start before).memo.misses + 1
                  inner := after }) ∧
            ∀ fault, answer = .error fault →
              entries = (run inner start before).memo.entries)) ∧
    (∀ before later, calls = before ++ later →
      (run inner start before).memo.hits + (run inner start before).memo.misses =
        before.countP Call.isTransform ∧
      run inner.counted (start, 0) before = (run inner start before).withCount ∧
      (run inner start before).memo.size =
        (succeededPairs (run inner start before).history).ncard) ∧
    (∀ memo : Memo σ,
      memo.clear.hits = memo.hits ∧ memo.clear.misses = memo.misses ∧
      ((memoized inner).reset memo).hits = memo.hits ∧
      ((memoized inner).reset memo).misses = memo.misses) ∧
    (∀ answer, inner.Answers answer →
      (run inner start calls).history =
        (calls.map fun call => (call, call.answerBy answer)).reverse) := by
  refine ⟨?_, ?_, ?_, ?_⟩
  · rintro before code config later rfl
    have tracks := run_tracks inner start before apart (askedBy_append_left before _)
    have isUsed : (code, config) ∈ askedBy (before ++ .transform code config :: later) :=
      List.mem_append_right before List.mem_cons_self
    refine ⟨?_, ?_⟩
    · intro output isSuccess
      exact memoized_of_found inner ((tracks.found_iff apart isUsed output).mpr isSuccess)
    · intro isNew answer after answered
      have missing : (run inner start before).memo.entries[cacheKey code config]? = none := by
        rw [Option.eq_none_iff_forall_ne_some]
        intro output found
        exact isNew ⟨output, (tracks.found_iff apart isUsed output).mp found⟩
      cases answer with
      | ok output =>
          exact ⟨_, memoized_of_ok missing answered, by simp⟩
      | error fault =>
          exact ⟨_, memoized_of_error missing answered, fun _ _ => rfl⟩
  · rintro before later rfl
    have tracks := run_tracks inner start before apart (askedBy_append_left before _)
    refine ⟨?_, run_withCount inner start before, tracks.counted⟩
    rw [tracks.tallied, countP_history]
  · intro memo
    exact ⟨rfl, rfl, rfl, rfl⟩
  · intro answer answers
    exact history_of_answers answers start apart

/-- A transformer that fails until it has been called once. -/
def lateStarter : Transformer Nat where
  label := "late starter"
  transform code _ calls :=
    (if calls = 0 then .error (.unusable "cold") else .ok (code ++ ";"), calls + 1)
  reset _ := 0

theorem keysApart_of_two_sources :
    KeysApart {("a", .null), ("b", .null)} := by
  have keysDiffer : cacheKey "a" .null ≠ cacheKey "b" .null := by
    decide +kernel
  rintro first (rfl | rfl) second (rfl | rfl) sameKey
  · rfl
  · exact absurd sameKey keysDiffer
  · exact absurd sameKey.symm keysDiffer
  · rfl

/-- The first call fails and is not remembered; the third one repeats the second,
which succeeded. -/
theorem lateStarter_is_remembered :
    KeysApart (askedBy [.transform "a" .null, .transform "a" .null, .transform "a" .null,
      .reset, .transform "b" .null]) ∧
    ((memoized lateStarter).transform "a" .null
        (Session.run lateStarter 0 [.transform "a" .null, .transform "a" .null]).memo).1 =
      .ok "a;" := by
  have apart : KeysApart (askedBy [.transform "a" .null, .transform "a" .null,
      .transform "a" .null, .reset, .transform "b" .null]) := by
    intro first isFirst second isSecond
    apply keysApart_of_two_sources
    · simpa [askedBy, Prod.ext_iff] using isFirst
    · simpa [askedBy, Prod.ext_iff] using isSecond
  have transparent := memoized_is_transparent lateStarter 0 _ apart
  have hit := (transparent.1 [.transform "a" .null, .transform "a" .null] "a" .null
    [.reset, .transform "b" .null] rfl).1 "a;"
  refine ⟨apart, congrArg Prod.fst (hit ?_)⟩
  simp [Session.run, Session.serve, memoized, lateStarter, Memo.fresh, succeeded]

end Transform

end ShapeAudit
