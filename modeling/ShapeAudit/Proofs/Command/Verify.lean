import ShapeAudit.Command.Verify
import ShapeAudit.Proofs.Files.Collect
import ShapeAudit.Transform.Memo

/-!
# Every file is accounted for

A check of many files that comes to its end has taken up every collected file
once and in order.  It has read the file, has asked the transformer once, and has
made it forget at once, whatever the answer was; and what came of the file is in
exactly one of the count of files that passed, the list of changed files and the
list of skipped files.
-/

namespace ShapeAudit

/-! ## What a transformer is asked to do -/

namespace Transformer

/-- What a transformer is asked to do. -/
inductive Event where
  | transforms (code : String) (config : Json)
  | resets

/-- A transformer that notes down what it is asked to do, and does it. -/
def watched {σ : Type} (transformer : Transformer σ) : Transformer (σ × List Event) where
  label := transformer.label
  transform code config state :=
    let (result, after) := transformer.transform code config state.1
    (result, (after, state.2 ++ [.transforms code config]))
  reset state := (transformer.reset state.1, state.2 ++ [.resets])

end Transformer

namespace Command

/-! ## Files taken up -/

/-- A file that a run has taken up: what it held, and what the transformer made
of that. -/
structure Handled where
  path : String
  code : String
  result : Except Transform.Fault String

namespace Handled

variable (options : Source.Options) (file : Handled)

/-- What came of a file. -/
def check : Check :=
  checkOutput options file.code file.result

/-- The entry of a file in the list of changed files. -/
def changed? : Option ChangedFile :=
  match file.check options with
  | .changed divergence => some ⟨file.path, divergence⟩
  | _ => none

/-- The entry of a file in the list of skipped files. -/
def skipped? : Option SkippedFile :=
  match file.check options with
  | .skipped reason => some ⟨file.path, reason⟩
  | _ => none

/-- What the transformer is asked to do for a file. -/
def events (config : Json) : List Transformer.Event :=
  [.transforms file.code config, .resets]

variable {options file}

theorem check_eq_changed_iff {divergence : Option Shape.Divergence} :
    file.check options = .changed divergence ↔
      ∃ output verdict, file.result = .ok output ∧
        compareSources options file.code output = .ok verdict ∧
        verdict.different = true ∧ verdict.divergence = divergence := by
  unfold check checkOutput
  cases file.result with
  | error fault =>
      simp
  | ok output =>
      cases compared : compareSources options file.code output with
      | error fault =>
          simp [compared]
      | ok verdict =>
          cases different : verdict.different <;> simp [compared, different]

theorem check_eq_skipped_iff {reason : String} :
    file.check options = .skipped reason ↔
      (∃ fault, file.result = .error fault ∧ fault.message = reason) ∨
        ∃ output fault, file.result = .ok output ∧
          compareSources options file.code output = .error fault ∧ fault.message = reason := by
  unfold check checkOutput
  cases file.result with
  | error fault =>
      simp
  | ok output =>
      cases compared : compareSources options file.code output with
      | error fault =>
          simp [compared]
      | ok verdict =>
          cases different : verdict.different <;> simp [compared, different]

theorem changed?_eq_some_iff {entry : ChangedFile} :
    file.changed? options = some entry ↔
      file.check options = .changed entry.divergence ∧ file.path = entry.path := by
  obtain ⟨path, divergence⟩ := entry
  unfold changed?
  cases file.check options <;> simp [and_comm]

theorem skipped?_eq_some_iff {entry : SkippedFile} :
    file.skipped? options = some entry ↔
      file.check options = .skipped entry.reason ∧ file.path = entry.path := by
  obtain ⟨path, reason⟩ := entry
  unfold skipped?
  cases file.check options <;> simp [and_comm]

end Handled

/-- Adds what came of files, one after the other. -/
def Tally.addAll (options : Source.Options) (tally : Tally) (handled : List Handled) : Tally :=
  handled.foldl (fun sum file => sum.add file.path (file.check options)) tally

section Runs

variable {σ : Type} (transformer : Transformer σ) (filesOf : σ → Files.Storage) (config : Json)

/-- A run that takes up files one after the other, each in the state that the one
before has left: it reads the file, asks the transformer once, and resets it. -/
inductive Handles : σ → List Handled → σ → Prop where
  | done (state : σ) : Handles state [] state
  | next {state last : σ} {file : Handled} {rest : List Handled}
      (read : readSource (filesOf state) file.path = .ok file.code)
      (answered : (transformer.transform file.code config state).1 = file.result)
      (later :
        Handles (transformer.reset (transformer.transform file.code config state).2) rest last) :
      Handles state (file :: rest) last

variable {transformer filesOf config}

/-- One file is read, transformed once, and forgotten. -/
theorem checkFile_eq_ok_iff
    {options : Source.Options} {path : String} {state after : σ} {check : Check} :
    checkFile transformer filesOf config options path state = (.ok check, after) ↔
      ∃ code, readSource (filesOf state) path = .ok code ∧
        checkOutput options code (transformer.transform code config state).1 = check ∧
        transformer.reset (transformer.transform code config state).2 = after := by
  unfold checkFile
  cases readSource (filesOf state) path <;> simp

/-- A whole run takes up the files in turn and adds up what came of each. -/
theorem checkFiles_eq_ok_iff
    {options : Source.Options} {paths : List String} {tally result : Tally} {state after : σ} :
    checkFiles transformer filesOf config options paths tally state = (.ok result, after) ↔
      ∃ handled, handled.map Handled.path = paths ∧
        Handles transformer filesOf config state handled after ∧
        tally.addAll options handled = result := by
  induction paths generalizing tally state with
  | nil =>
      simp only [checkFiles, Prod.mk.injEq, Except.ok.injEq, List.map_eq_nil_iff]
      constructor
      · rintro ⟨rfl, rfl⟩
        exact ⟨[], rfl, .done _, rfl⟩
      · rintro ⟨_, rfl, run, same⟩
        cases run
        exact ⟨same, rfl⟩
  | cons path rest inductionHypothesis =>
      constructor
      · intro checked
        rw [checkFiles] at checked
        split at checked
        · cases checked
        · rename_i check between here
          obtain ⟨code, read, isCheck, rfl⟩ := checkFile_eq_ok_iff.mp here
          obtain ⟨handled, rfl, run, added⟩ := inductionHypothesis.mp checked
          subst isCheck
          exact ⟨⟨path, code, (transformer.transform code config state).1⟩ :: handled, rfl,
            .next read rfl run, added⟩
      · rintro ⟨handled, inTurn, run, added⟩
        cases run with
        | done => cases inTurn
        | next read answered later =>
            rename_i file others
            obtain ⟨rfl, rfl⟩ := List.cons.inj inTurn
            have here : checkFile transformer filesOf config options file.path state =
                (.ok (file.check options), _) :=
              checkFile_eq_ok_iff.mpr ⟨file.code, read, by rw [answered, Handled.check], rfl⟩
            rw [checkFiles, here]
            exact inductionHypothesis.mpr ⟨others, rfl, later, added⟩

end Runs

/-! ## The sum of a run -/

section Sums

variable (options : Source.Options)

/-- A run adds up the files that passed and lists the others in turn. -/
theorem sum_of_handled (handled : List Handled) (tally : Tally) :
    (tally.addAll options handled).passed =
        tally.passed + handled.countP (fun file => file.check options = .passed) ∧
      (tally.addAll options handled).changed.reverse =
        tally.changed.reverse ++ handled.filterMap (Handled.changed? options) ∧
      (tally.addAll options handled).skipped.reverse =
        tally.skipped.reverse ++ handled.filterMap (Handled.skipped? options) := by
  induction handled generalizing tally with
  | nil =>
      simp [Tally.addAll]
  | cons file rest inductionHypothesis =>
      obtain ⟨passed, changed, skipped⟩ :=
        inductionHypothesis (tally.add file.path (file.check options))
      have first : tally.addAll options (file :: rest) =
          (tally.add file.path (file.check options)).addAll options rest := rfl
      simp only [first, List.countP_cons, List.filterMap_cons, passed, changed, skipped,
        Handled.changed?, Handled.skipped?]
      cases file.check options with
      | passed =>
          simp only [Tally.add, decide_true, if_true, and_true]
          omega
      | changed divergence =>
          simp [Tally.add]
      | skipped reason =>
          simp [Tally.add]

variable {options} {handled : List Handled}

/-- What came of files that were taken up is in the count or in one of the lists. -/
structure Accounted (options : Source.Options) (handled : List Handled)
    (passed : Nat) (changed : List ChangedFile) (skipped : List SkippedFile) : Prop where
  /-- No file is lost and none is counted twice. -/
  total : passed + changed.length + skipped.length = handled.length
  /-- Changed files are listed in the order of the files. -/
  changedInOrder : (changed.map ChangedFile.path).Sublist (handled.map Handled.path)
  /-- Skipped files are listed in the order of the files. -/
  skippedInOrder : (skipped.map SkippedFile.path).Sublist (handled.map Handled.path)
  /-- No file is in both lists. -/
  apart : ∀ path ∈ changed.map ChangedFile.path, path ∉ skipped.map SkippedFile.path
  /-- A file is listed as changed when the transformer gave an output that differs. -/
  changes : ∀ file ∈ handled, ∀ divergence, ⟨file.path, divergence⟩ ∈ changed ↔
    ∃ output verdict, file.result = .ok output ∧
      compareSources options file.code output = .ok verdict ∧
      verdict.different = true ∧ verdict.divergence = divergence
  /-- A file is listed as skipped when the transformer failed, or one of the two
  sources does not parse. -/
  skips : ∀ file ∈ handled, ∀ reason, ⟨file.path, reason⟩ ∈ skipped ↔
    (∃ fault, file.result = .error fault ∧ fault.message = reason) ∨
      ∃ output fault, file.result = .ok output ∧
        compareSources options file.code output = .error fault ∧ fault.message = reason
  /-- All other files have passed. -/
  passes : passed = (handled.map Handled.path).countP fun path =>
    path ∉ changed.map ChangedFile.path ∧ path ∉ skipped.map SkippedFile.path

section Entries

variable {α : Type} {listed? : Handled → Option α} {pathOf : α → String}
  (named : ∀ file entry, listed? file = some entry → pathOf entry = file.path)

include named

theorem entries_in_order :
    ((handled.filterMap listed?).map pathOf).Sublist (handled.map Handled.path) := by
  induction handled with
  | nil =>
      exact .slnil
  | cons file rest inductionHypothesis =>
      cases isEntry : listed? file with
      | none =>
          rw [List.filterMap_cons_none isEntry]
          exact inductionHypothesis.cons _
      | some entry =>
          rw [List.filterMap_cons_some isEntry, List.map_cons, named file entry isEntry]
          exact inductionHypothesis.cons_cons _

/-- An entry with the path of a file is the entry of this file. -/
theorem mem_entries_iff
    (distinct : (handled.map Handled.path).Nodup) {file : Handled} (isHandled : file ∈ handled)
    {entry : α} (ofFile : pathOf entry = file.path) :
    entry ∈ handled.filterMap listed? ↔ listed? file = some entry := by
  constructor
  · intro isListed
    obtain ⟨other, isOther, isEntry⟩ := List.mem_filterMap.mp isListed
    have samePath : other.path = file.path := (named other entry isEntry).symm.trans ofFile
    rwa [List.inj_on_of_nodup_map distinct isOther isHandled samePath] at isEntry
  · intro isEntry
    exact List.mem_filterMap.mpr ⟨file, isHandled, isEntry⟩

theorem path_mem_entries_iff
    (distinct : (handled.map Handled.path).Nodup) {file : Handled} (isHandled : file ∈ handled) :
    file.path ∈ (handled.filterMap listed?).map pathOf ↔ ∃ entry, listed? file = some entry := by
  constructor
  · intro isListed
    obtain ⟨entry, isEntry, ofFile⟩ := List.mem_map.mp isListed
    exact ⟨entry, (mem_entries_iff named distinct isHandled ofFile).mp isEntry⟩
  · rintro ⟨entry, isEntry⟩
    have ofFile := named file entry isEntry
    exact List.mem_map.mpr
      ⟨entry, (mem_entries_iff named distinct isHandled ofFile).mpr isEntry, ofFile⟩

end Entries

theorem path_of_changed? (file : Handled) (entry : ChangedFile)
    (isEntry : file.changed? options = some entry) : entry.path = file.path :=
  (Handled.changed?_eq_some_iff.mp isEntry).2.symm

theorem path_of_skipped? (file : Handled) (entry : SkippedFile)
    (isEntry : file.skipped? options = some entry) : entry.path = file.path :=
  (Handled.skipped?_eq_some_iff.mp isEntry).2.symm

variable (options) in
theorem total_of_handled (handled : List Handled) :
    handled.countP (fun file => file.check options = .passed) +
        (handled.filterMap (Handled.changed? options)).length +
        (handled.filterMap (Handled.skipped? options)).length =
      handled.length := by
  induction handled with
  | nil =>
      rfl
  | cons file rest inductionHypothesis =>
      simp only [List.countP_cons, List.filterMap_cons, List.length_cons, Handled.changed?,
        Handled.skipped?] at inductionHypothesis ⊢
      cases file.check options <;> simp <;> omega

/-- Files with different paths are accounted for. -/
theorem accounted_of_nodup (distinct : (handled.map Handled.path).Nodup) :
    Accounted options handled (handled.countP fun file => file.check options = .passed)
      (handled.filterMap (Handled.changed? options))
      (handled.filterMap (Handled.skipped? options)) where
  total := total_of_handled options handled
  changedInOrder := entries_in_order path_of_changed?
  skippedInOrder := entries_in_order path_of_skipped?
  apart := by
    intro path isChanged isSkipped
    obtain ⟨file, isHandled, rfl⟩ :=
      List.mem_map.mp ((entries_in_order path_of_changed?).subset isChanged)
    obtain ⟨changed, isChangedEntry⟩ :=
      (path_mem_entries_iff path_of_changed? distinct isHandled).mp isChanged
    obtain ⟨skipped, isSkippedEntry⟩ :=
      (path_mem_entries_iff path_of_skipped? distinct isHandled).mp isSkipped
    have checkChanged := (Handled.changed?_eq_some_iff.mp isChangedEntry).1
    have checkSkipped := (Handled.skipped?_eq_some_iff.mp isSkippedEntry).1
    rw [checkChanged] at checkSkipped
    cases checkSkipped
  changes := by
    intro file isHandled divergence
    rw [mem_entries_iff path_of_changed? distinct isHandled rfl, Handled.changed?_eq_some_iff,
      ← Handled.check_eq_changed_iff]
    exact and_iff_left rfl
  skips := by
    intro file isHandled reason
    rw [mem_entries_iff path_of_skipped? distinct isHandled rfl, Handled.skipped?_eq_some_iff,
      ← Handled.check_eq_skipped_iff]
    exact and_iff_left rfl
  passes := by
    rw [List.countP_map]
    apply List.countP_congr
    intro file isHandled
    simp only [Function.comp, decide_eq_true_eq,
      path_mem_entries_iff path_of_changed? distinct isHandled,
      path_mem_entries_iff path_of_skipped? distinct isHandled, Handled.changed?,
      Handled.skipped?]
    cases file.check options <;> simp

end Sums

/-! ## Whole runs -/

section Verify

variable {σ : Type} {transformer : Transformer σ} {filesOf : σ → Files.Storage}

/-- Watching a run changes nothing and shows, for each file, one call and one
reset behind it. -/
theorem Handles.watched
    {config : Json} {state after : σ} {handled : List Handled}
    (run : Handles transformer filesOf config state handled after)
    (events : List Transformer.Event) :
    Handles transformer.watched (fun state => filesOf state.1) config (state, events) handled
      (after, events ++ handled.flatMap fun file => file.events config) := by
  induction run generalizing events with
  | done state =>
      rw [List.flatMap_nil, List.append_nil]
      exact .done _
  | @next state last file rest read answered later inductionHypothesis =>
      have goesOn := inductionHypothesis (events ++ file.events config)
      rw [List.append_assoc] at goesOn
      refine .next read answered ?_
      simpa [Transformer.watched, Handled.events] using goesOn

/-- The last thing that a run does is a reset. -/
theorem Handles.ends_with_reset
    {config : Json} {state after : σ} {handled : List Handled}
    (run : Handles transformer filesOf config state handled after) (some : handled ≠ []) :
    ∃ before, after = transformer.reset before := by
  induction run with
  | done state =>
      exact (some rfl).elim
  | @next state last file rest read answered later inductionHypothesis =>
      cases rest with
      | nil =>
          cases later
          exact ⟨_, rfl⟩
      | cons other others =>
          exact inductionHypothesis (List.cons_ne_nil _ _)

/-- Files that can be read and that nothing changes are all taken up. -/
theorem exists_handles
    {files : Files.Storage} {paths : List String}
    (readable : ∀ path ∈ paths, (readSource files path).isOk = true) (config : Json) (state : σ) :
    ∃ handled after, handled.map Handled.path = paths ∧
      Handles transformer (fun _ => files) config state handled after := by
  induction paths generalizing state with
  | nil =>
      exact ⟨[], state, rfl, .done state⟩
  | cons path rest inductionHypothesis =>
      have isRead := readable path List.mem_cons_self
      cases read : readSource files path with
      | error failure =>
          rw [read] at isRead
          cases isRead
      | ok code =>
          obtain ⟨handled, after, rfl, run⟩ := inductionHypothesis
            (fun other isOther => readable other (List.mem_cons_of_mem path isOther))
            (transformer.reset (transformer.transform code config state).2)
          exact ⟨⟨path, code, (transformer.transform code config state).1⟩ :: handled, after,
            rfl, .next read rfl run⟩

/-- A check of many files comes to its end exactly when all files that were
collected can be taken up in turn. -/
theorem verify_eq_ok_iff
    {record : Config.Record} {options : Source.Options} {paths : List String}
    {state after : σ} {response : Response} :
    verify transformer filesOf record options paths state = (.ok response, after) ↔
      ∃ handled, Files.collect (filesOf state) paths = .ok (handled.map Handled.path) ∧
        Handles transformer filesOf record.value state handled after ∧
        response = .verified transformer.label
          (handled.countP fun file => file.check options = .passed)
          (handled.filterMap (Handled.changed? options))
          (handled.filterMap (Handled.skipped? options)) := by
  have sums : ∀ handled : List Handled, Response.verified transformer.label
      (Tally.addAll options {} handled).passed (Tally.addAll options {} handled).changed.reverse
        (Tally.addAll options {} handled).skipped.reverse =
      .verified transformer.label (handled.countP fun file => file.check options = .passed)
        (handled.filterMap (Handled.changed? options))
        (handled.filterMap (Handled.skipped? options)) := by
    intro handled
    obtain ⟨passed, changed, skipped⟩ := sum_of_handled options handled {}
    simp only [passed, changed, skipped, List.reverse_nil, List.nil_append, Nat.zero_add]
  unfold verify
  cases Files.collect (filesOf state) paths with
  | error fault =>
      simp
  | ok collected =>
      dsimp only
      constructor
      · intro verified
        split at verified
        · cases verified
        · rename_i tally last checked
          obtain ⟨handled, rfl, run, rfl⟩ := checkFiles_eq_ok_iff.mp checked
          cases verified
          exact ⟨handled, rfl, run, sums handled⟩
      · rintro ⟨handled, inTurn, run, rfl⟩
        cases inTurn
        have checked : checkFiles transformer filesOf record.value options
            (handled.map Handled.path) {} state = (.ok (Tally.addAll options {} handled), after) :=
          checkFiles_eq_ok_iff.mpr ⟨handled, rfl, run, rfl⟩
        rw [checked]
        dsimp only
        rw [sums handled]

/-- A check of files that nothing changes comes to its end if all of them can be
read, whatever the transformer does. -/
theorem exists_verify_of_readable
    (transformer : Transformer σ) {files : Files.Storage} {paths collected : List String}
    (gathered : Files.collect files paths = .ok collected)
    (readable : ∀ path ∈ collected, (readSource files path).isOk = true)
    (record : Config.Record) (options : Source.Options) (state : σ) :
    ∃ response after,
      verify transformer (fun _ => files) record options paths state = (.ok response, after) := by
  obtain ⟨handled, after, rfl, run⟩ := exists_handles readable record.value state
  exact ⟨_, after, verify_eq_ok_iff.mpr ⟨handled, gathered, run, rfl⟩⟩

/-- A check of many files that comes to its end accounts for every file that was
collected.  The transformer is asked once for each file and is reset at once, so a
table of outputs is empty at the end of a run that had a file. -/
theorem verify_accounts_for_every_file
    (record : Config.Record) (options : Source.Options) (paths : List String) :
    (∀ {σ : Type} (transformer : Transformer σ) (filesOf : σ → Files.Storage) (state after : σ)
        (response : Response),
      verify transformer filesOf record options paths state = (.ok response, after) →
      ∃ (handled : List Handled) (passed : Nat) (changed : List ChangedFile)
          (skipped : List SkippedFile),
        Files.collect (filesOf state) paths = .ok (handled.map Handled.path) ∧
        (handled.map Handled.path).Nodup ∧
        Handles transformer filesOf record.value state handled after ∧
        Accounted options handled passed changed skipped ∧
        response = .verified transformer.label passed changed skipped ∧
        response.toJson.get? "passed" = some (.ofNat passed) ∧
        response.toJson.get? "failed" = some (.ofNat changed.length) ∧
        response.toJson.get? "skipped" = some (.ofNat skipped.length) ∧
        (response.status = "failed" ↔ changed ≠ []) ∧
        verify transformer.watched (fun state => filesOf state.1) record options paths
            (state, []) =
          (.ok response, after, handled.flatMap fun file => file.events record.value)) ∧
      ∀ {τ : Type} (inner : Transformer τ) (filesOf : Transform.Memo τ → Files.Storage)
        (memo after : Transform.Memo τ) (response : Response),
        verify (Transform.memoized inner) filesOf record options paths memo =
            (.ok response, after) →
          Files.collect (filesOf memo) paths ≠ .ok [] → after.size = 0 := by
  constructor
  · intro σ transformer filesOf state after response verified
    obtain ⟨handled, collected, run, isResponse⟩ := verify_eq_ok_iff.mp verified
    have distinct := Files.nodup_of_collect collected
    refine ⟨handled, _, _, _, collected, distinct, run, accounted_of_nodup distinct, isResponse,
      ?_, ?_, ?_, ?_, ?_⟩
    · rw [isResponse]
      rfl
    · rw [isResponse]
      rfl
    · rw [isResponse]
      rfl
    · rw [isResponse, Response.status]
      split <;> simp_all
    · exact verify_eq_ok_iff.mpr ⟨handled, collected, run.watched [], isResponse⟩
  · intro τ inner filesOf memo after response verified hasFile
    obtain ⟨handled, collected, run, -⟩ := verify_eq_ok_iff.mp verified
    have isTaken : handled ≠ [] := by
      rintro rfl
      exact hasFile collected
    obtain ⟨before, rfl⟩ := run.ends_with_reset isTaken
    simp [Transform.memoized, Transform.Memo.clear, Transform.Memo.size]

/-- A transformer that answers only twice, and adds an argument the second
time. -/
def tiring : Transformer Nat where
  label := "tiring"
  transform code _ calls :=
    match calls with
    | 0 => (.ok code, 1)
    | 1 => (.ok "f(1);", 2)
    | _ => (.error (.timedOut "tiring" 1000000000), calls)
  reset := id

/-- Three files with the same source. -/
def threeFiles : Files.Storage where
  root := .folder [("a.js", .file (Text.octets "f();")), ("b.js", .file (Text.octets "f();")),
    ("c.js", .file (Text.octets "f();"))]

/-- A configuration without flags. -/
def noFlags : Config.Record where
  value := (Json.object []).arrange
  pointer := ⟨"/compress", rfl⟩
  ordered := Json.ordered_arrange _

theorem verify_accounts_for_three_files :
    (∃ response after handled passed changed skipped,
      verify tiring (fun _ => threeFiles) noFlags {} ["."] 0 = (.ok response, after) ∧
        Accounted {} handled passed changed skipped ∧ handled.length = 3) ∧
    ∃ response after,
      verify (Transform.memoized tiring) (fun _ => threeFiles) noFlags {} ["."] (.fresh 0) =
        (.ok response, after) ∧ after.size = 0 := by
  have gathered : Files.collect threeFiles ["."] = .ok ["./a.js", "./b.js", "./c.js"] := by
    decide +kernel
  have readable : ∀ path ∈ ["./a.js", "./b.js", "./c.js"],
      (readSource threeFiles path).isOk = true := by
    decide +kernel
  constructor
  · obtain ⟨response, after, verified⟩ :=
      exists_verify_of_readable tiring gathered readable noFlags {} 0
    obtain ⟨handled, passed, changed, skipped, collected, -, -, accounted, -⟩ :=
      (verify_accounts_for_every_file noFlags {} ["."]).1 _ _ _ _ _ verified
    have inTurn := Except.ok.inj (gathered.symm.trans collected)
    refine ⟨response, after, handled, passed, changed, skipped, verified, accounted, ?_⟩
    rw [← List.length_map Handled.path, ← inTurn]
    rfl
  · obtain ⟨response, after, verified⟩ :=
      exists_verify_of_readable (Transform.memoized tiring) gathered readable noFlags {} (.fresh 0)
    refine ⟨response, after, verified,
      (verify_accounts_for_every_file noFlags {} ["."]).2 _ _ _ _ _ verified ?_⟩
    rw [gathered]
    rintro ⟨⟩

end Verify

end Command

end ShapeAudit
