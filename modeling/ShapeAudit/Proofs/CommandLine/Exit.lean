import ShapeAudit.CommandLine.Execute
import ShapeAudit.Proofs.Alignment
import ShapeAudit.Proofs.Command.Verify
import ShapeAudit.Proofs.Response

/-!
# How a command ends

Whatever the transformer does to its own state and to the files, a command whose
arguments fit prints one response, and ends with the number that the response
tells.  The transformers that the program starts are one case of that.
-/

namespace ShapeAudit

namespace CommandLine

/-! ## Failures of the parts -/

section Failures

variable {α β : Type}

/-- What a failed part adds to its message is flat. -/
def FailsFlat (result : Except Failure α) : Prop :=
  ∀ failure, result = .error failure → failure.Flat

theorem failsFlat_ok (value : α) : FailsFlat (.ok value : Except Failure α) := by
  rintro _ ⟨⟩

theorem failsFlat_error {failure : Failure} (flat : failure.Flat) :
    FailsFlat (.error failure : Except Failure α) := by
  rintro _ ⟨⟩
  exact flat

theorem failsFlat_bind
    {first : Except Failure α} {next : α → Except Failure β} (firstFlat : FailsFlat first)
    (nextFlat : ∀ value, FailsFlat (next value)) :
    FailsFlat (first >>= next) := by
  cases first with
  | error failure =>
      exact failsFlat_error (firstFlat failure rfl)
  | ok value =>
      exact nextFlat value

theorem failsFlat_mapError
    {ε : Type} {become : ε → Failure} (flat : ∀ fault, (become fault).Flat) (result : Except ε α) :
    FailsFlat (result.mapError become) := by
  cases result with
  | error fault =>
      exact failsFlat_error (flat fault)
  | ok value =>
      exact failsFlat_ok value

theorem failsFlat_mapM
    {part : α → Except Failure β} (flat : ∀ value, FailsFlat (part value)) (value : Option α) :
    FailsFlat (value.mapM part) := by
  cases value with
  | none =>
      exact failsFlat_ok none
  | some value =>
      exact failsFlat_bind (flat value) fun _ => failsFlat_ok _

theorem flat_atPath (path : String) (fault : Files.Fault) : (Failure.atPath path fault).Flat := by
  apply Failure.flat_of_none
  unfold Failure.atPath
  split <;> rfl

theorem flat_ofConfig (fault : Config.Fault) : (Failure.ofConfig fault).Flat := by
  apply Failure.flat_of_none
  unfold Failure.ofConfig
  split
  · split <;> rfl
  · rfl

theorem flat_ofSource (file : String) (fault : Source.Fault) :
    (Failure.ofSource file fault).Flat := by
  apply Failure.flat_of_none
  unfold Failure.ofSource
  split <;> rfl

theorem flat_ofTransform (fault : Transform.Fault) : (Failure.ofTransform fault).Flat := by
  apply Failure.flat_of_none
  unfold Failure.ofTransform
  split <;> rfl

theorem flat_ofCollect (fault : Files.CollectFault) : (Failure.ofCollect fault).Flat := by
  apply Failure.flat_of_none
  cases fault <;> rfl

theorem flat_ofSummary (fault : SummaryFault) : (Failure.ofSummary fault).Flat := by
  apply Failure.flat_of_none
  cases fault <;> rfl

theorem failsFlat_readSource (files : Files.Storage) (path : String) :
    FailsFlat (Command.readSource files path) := by
  unfold Command.readSource
  split
  · exact failsFlat_ok _
  · exact failsFlat_error (flat_atPath _ _)

theorem failsFlat_settingsFor
    (situation : Situation) (request : Request) (choice : Choice) (batchSize : Option Nat) :
    FailsFlat (settingsFor situation request choice batchSize) := by
  apply failsFlat_bind
  · apply failsFlat_mapM
    intro text
    exact failsFlat_mapError (fun _ => Failure.flat_of_none rfl) _
  · intro engine
    exact failsFlat_mapError Failure.flat_ofSettings _

theorem failsFlat_parseTemplate (text : String) : FailsFlat (Command.parseTemplate text) := by
  unfold Command.parseTemplate
  split
  · exact failsFlat_error (Failure.flat_of_none rfl)
  · exact failsFlat_error (Failure.flat_of_none rfl)
  · exact failsFlat_ok _

theorem failsFlat_equip
    {τ : Type} (workshop : Workshop τ) (situation : Situation) (request : Request)
    (choice : Choice) (batchSize : Option Nat) :
    FailsFlat (workshop.equip situation request choice batchSize) := by
  apply failsFlat_bind (failsFlat_settingsFor situation request choice batchSize)
  intro settings
  apply failsFlat_bind (failsFlat_mapM failsFlat_parseTemplate choice.template)
  intro template
  apply failsFlat_bind (failsFlat_mapError flat_ofConfig _)
  intro record
  exact failsFlat_ok _

theorem failsFlat_compare
    (files : Files.Storage) (options : Source.Options) (source transformed : String) :
    FailsFlat (Command.compare files options source transformed) := by
  apply failsFlat_bind (failsFlat_readSource files source)
  intro sourceCode
  apply failsFlat_bind (failsFlat_readSource files transformed)
  intro transformedCode
  apply failsFlat_bind (failsFlat_mapError (flat_ofSource source) _)
  intro first
  apply failsFlat_bind (failsFlat_mapError (flat_ofSource transformed) _)
  intro second
  exact failsFlat_ok _

section Stateful

variable {σ : Type} (transformer : Transformer σ) (filesOf : σ → Files.Storage)

theorem failsFlat_run (code : String) (config : Json) (state : σ) :
    FailsFlat (Command.run transformer code config state).1 := by
  unfold Command.run
  split
  · exact failsFlat_ok _
  · exact failsFlat_error (flat_ofTransform _)

theorem failsFlat_checkFiles
    (config : Json) (options : Source.Options) (paths : List String) (tally : Command.Tally)
    (state : σ) :
    FailsFlat (Command.checkFiles transformer filesOf config options paths tally state).1 := by
  induction paths generalizing tally state with
  | nil =>
      exact failsFlat_ok _
  | cons path rest inductionHypothesis =>
      rw [Command.checkFiles, Command.checkFile]
      cases read : Command.readSource (filesOf state) path with
      | error failure =>
          exact failsFlat_error (failsFlat_readSource _ _ failure read)
      | ok code =>
          exact inductionHypothesis _ _

theorem failsFlat_verify
    (record : Config.Record) (options : Source.Options) (paths : List String) (state : σ) :
    FailsFlat (Command.verify transformer filesOf record options paths state).1 := by
  unfold Command.verify
  split
  · exact failsFlat_error (flat_ofCollect _)
  · rename_i collected gathered
    have flat := failsFlat_checkFiles transformer filesOf record.value options collected {} state
    split
    · rename_i failure after checked
      rw [checked] at flat
      exact failsFlat_error (flat failure rfl)
    · exact failsFlat_ok _

variable (sink : Sink σ)

theorem failsFlat_searchFiles
    (record : Config.Record) (options : Search.Options) (paths : List String) (triggered : Nat)
    (state : Summary × σ) :
    FailsFlat (Command.searchFiles transformer sink filesOf record options paths triggered
      state).1 := by
  induction paths generalizing triggered state with
  | nil =>
      exact failsFlat_ok _
  | cons path rest inductionHypothesis =>
      have fileFlat :
          FailsFlat (Command.searchFile transformer sink filesOf record options path state).1 := by
        unfold Command.searchFile
        split
        · rename_i failure read
          exact failsFlat_error (failsFlat_readSource _ _ failure read)
        · dsimp only
          split
          · exact failsFlat_error (Failure.flat_ofRefusal _)
          · split
            · exact failsFlat_error (flat_ofSummary _)
            · exact failsFlat_ok _
      rw [Command.searchFiles]
      split
      · rename_i failure after searched
        rw [searched] at fileFlat
        exact failsFlat_error (fileFlat failure rfl)
      · exact inductionHypothesis _ _

theorem failsFlat_find
    (record : Config.Record) (options : Search.Options) (batchSize : Nat) (label : String)
    (paths : List String) (state : σ) :
    FailsFlat (Command.find transformer sink filesOf record options batchSize label paths
      state).1 := by
  unfold Command.find
  split
  · exact failsFlat_error (Failure.flat_ofRefusal _)
  · split
    · exact failsFlat_error (flat_ofCollect _)
    · rename_i collected gathered
      have flat := failsFlat_searchFiles transformer filesOf sink record options collected 0
        (Summary.start batchSize, state)
      unfold Command.searchCollected
      split
      · rename_i failure after searched
        rw [searched] at flat
        exact failsFlat_error (flat failure rfl)
      · split
        · exact failsFlat_error (flat_ofSummary _)
        · exact failsFlat_ok _

end Stateful

theorem failsFlat_perform
    {τ : Type} (workshop : Workshop τ) (situation : Situation) (request : Request) :
    FailsFlat (workshop.perform situation request).1 := by
  unfold Workshop.perform
  cases request.task with
  | run choice isFile input =>
      dsimp only
      split
      · rename_i failure equipped
        exact failsFlat_error (failsFlat_equip _ _ _ _ _ failure equipped)
      · split
        · rename_i failure sought
          apply failsFlat_error
          unfold sourceOf at sought
          split at sought
          · exact failsFlat_mapError (flat_atPath input) _ failure sought
          · cases sought
        · exact failsFlat_run _ _ _ _
  | compare options source transformed =>
      exact failsFlat_compare _ _ _ _
  | verify choice options paths =>
      dsimp only
      split
      · rename_i failure equipped
        exact failsFlat_error (failsFlat_equip _ _ _ _ _ failure equipped)
      · exact failsFlat_verify _ _ _ _ _ _
  | find choice options batchSize output paths =>
      dsimp only
      split
      · rename_i failure equipped
        exact failsFlat_error (failsFlat_equip _ _ _ _ _ failure equipped)
      · unfold Workshop.searchInto
        split
        · exact failsFlat_error (Failure.flat_ofRefusal _)
        · split
          · exact failsFlat_error (flat_atPath _ _)
          · exact failsFlat_find _ _ _ _ _ _ _ _ _

end Failures

/-! ## Successful commands -/

/-- The responses that a task can give when it succeeds. -/
def Task.Gives : Task → Response → Prop
  | .run _ _ _, .ran _ _ => True
  | .compare _ _ _, .compared _ _ _ => True
  | .verify _ _ _, .verified _ _ _ _ => True
  | .find _ _ _ _ _, .searched _ _ _ _ => True
  | _, _ => False

theorem Task.compare_of_gives
    {task : Task} {response : Response} (gives : task.Gives response)
    (different : response.status = "different") :
    ∃ options source transformed, task = .compare options source transformed := by
  cases response with
  | compared source transformed divergence =>
      cases task with
      | compare options first second =>
          exact ⟨options, first, second, rfl⟩
      | _ =>
          cases gives
  | verified engine passed changed skipped =>
      cases changed <;> simp [Response.status] at different
  | _ =>
      simp [Response.status] at different

theorem Task.verify_of_gives
    {task : Task} {response : Response} (gives : task.Gives response)
    (failed : response.status = "failed") :
    ∃ choice options paths, task = .verify choice options paths := by
  cases response with
  | compared source transformed divergence =>
      cases divergence <;> simp [Response.status] at failed
  | verified engine passed changed skipped =>
      cases task with
      | verify choice options paths =>
          exact ⟨choice, options, paths, rfl⟩
      | _ =>
          cases gives
  | _ =>
      simp [Response.status] at failed

theorem exitNumber_failed_ne_five (failure : Failure) :
    (Response.failed failure).exitNumber ≠ 5 := by
  cases failure <;> simp [Response.exitNumber, Failure.code, ExitCode.number]

/-- Comparing ends with the number for a difference exactly when the check of the
two sources says that they differ. -/
theorem exitNumber_compare
    (files : Files.Storage) (options : Source.Options) (source transformed : String) :
    (responseTo (Command.compare files options source transformed)).exitNumber = 5 ↔
      ∃ first second verdict,
        Command.readSource files source = .ok first ∧
        Command.readSource files transformed = .ok second ∧
        compareSources options first second = .ok verdict ∧ verdict.different = true := by
  have failing : ∀ failure,
      (responseTo (.error failure : Except Failure Response)).exitNumber ≠ 5 :=
    exitNumber_failed_ne_five
  unfold Command.compare
  cases Command.readSource files source with
  | error failure =>
      simpa [bind, Except.bind] using failing failure
  | ok first =>
      cases Command.readSource files transformed with
      | error failure =>
          simpa [bind, Except.bind] using failing failure
      | ok second =>
          simp only [compareSources_eq_ok_iff, Except.ok.injEq, Command.parseIn]
          cases readsFirst : Source.parse options (alignStrict first second).1 with
          | error fault =>
              simpa [readsFirst, bind, Except.bind, Except.mapError] using
                failing (.ofSource source fault)
          | ok firstNode =>
              cases readsSecond : Source.parse options (alignStrict first second).2 with
              | error fault =>
                  simpa [readsFirst, readsSecond, bind, Except.bind, Except.mapError] using
                    failing (.ofSource transformed fault)
              | ok secondNode =>
                  have ends : (Response.compared source transformed
                      (firstNode.firstDivergence? secondNode)).exitNumber = 5 ↔
                        (Verdict.ofNodes firstNode secondNode).different = true := by
                    unfold Verdict.ofNodes
                    cases firstNode.firstDivergence? secondNode <;>
                      simp [Response.exitNumber, ExitCode.number]
                  simpa [readsFirst, readsSecond, bind, Except.bind, Except.mapError, responseTo]
                    using ends

/-- Checking files ends with the number for a difference exactly when the run
comes to its end and the structure of some file was changed. -/
theorem exitNumber_verify
    {σ : Type} (transformer : Transformer σ) (filesOf : σ → Files.Storage) (record : Config.Record)
    (options : Source.Options) (paths : List String) (state : σ) :
    (responseTo (Command.verify transformer filesOf record options paths state).1).exitNumber =
        5 ↔
      ∃ handled after,
        Files.collect (filesOf state) paths = .ok (handled.map Command.Handled.path) ∧
        Command.Handles transformer filesOf record.value state handled after ∧
        ∃ file ∈ handled, ∃ output verdict, file.result = .ok output ∧
          compareSources options file.code output = .ok verdict ∧ verdict.different = true := by
  have someChanged : ∀ handled : List Command.Handled,
      handled.filterMap (Command.Handled.changed? options) ≠ [] ↔
        ∃ file ∈ handled, ∃ output verdict, file.result = .ok output ∧
          compareSources options file.code output = .ok verdict ∧ verdict.different = true := by
    intro handled
    constructor
    · intro someListed
      obtain ⟨entry, isListed⟩ := List.exists_mem_of_ne_nil _ someListed
      obtain ⟨file, isHandled, isEntry⟩ := List.mem_filterMap.mp isListed
      obtain ⟨isChanged, -⟩ := Command.Handled.changed?_eq_some_iff.mp isEntry
      obtain ⟨output, verdict, answered, compared, different, -⟩ :=
        Command.Handled.check_eq_changed_iff.mp isChanged
      exact ⟨file, isHandled, output, verdict, answered, compared, different⟩
    · rintro ⟨file, isHandled, output, verdict, answered, compared, different⟩
      have isChanged : file.check options = .changed verdict.divergence :=
        Command.Handled.check_eq_changed_iff.mpr
          ⟨output, verdict, answered, compared, different, rfl⟩
      have isEntry : file.changed? options = some ⟨file.path, verdict.divergence⟩ :=
        Command.Handled.changed?_eq_some_iff.mpr ⟨isChanged, rfl⟩
      exact List.ne_nil_of_mem (List.mem_filterMap.mpr ⟨file, isHandled, isEntry⟩)
  have endsWith : ∀ engine passed changed skipped,
      (Response.verified engine passed changed skipped).exitNumber = 5 ↔ changed ≠ [] := by
    intro engine passed changed skipped
    cases changed <;> simp [Response.exitNumber, ExitCode.number]
  constructor
  · intro ends
    rcases verified : Command.verify transformer filesOf record options paths state with
      ⟨result, after⟩
    rw [verified] at ends
    cases result with
    | error failure =>
        exact absurd ends (exitNumber_failed_ne_five failure)
    | ok response =>
        obtain ⟨handled, collected, run, rfl⟩ := Command.verify_eq_ok_iff.mp verified
        exact ⟨handled, after, collected, run,
          (someChanged handled).mp ((endsWith _ _ _ _).mp ends)⟩
  · rintro ⟨handled, after, collected, run, changed⟩
    have verified : Command.verify transformer filesOf record options paths state =
        (.ok (.verified transformer.label _ _ _), after) :=
      Command.verify_eq_ok_iff.mpr ⟨handled, collected, run, rfl⟩
    rw [verified]
    exact (endsWith _ _ _ _).mpr ((someChanged handled).mpr changed)

theorem compared_of_compare
    {files : Files.Storage} {options : Source.Options} {source transformed : String}
    {response : Response}
    (compared : Command.compare files options source transformed = .ok response) :
    ∃ divergence, response = .compared source transformed divergence := by
  simp only [Command.compare, bind, Except.bind] at compared
  split at compared
  · cases compared
  split at compared
  · cases compared
  split at compared
  · cases compared
  split at compared
  · cases compared
  cases compared
  exact ⟨_, rfl⟩

theorem searched_of_find
    {σ : Type} {transformer : Transformer σ} {sink : Sink σ} {filesOf : σ → Files.Storage}
    {record : Config.Record} {options : Search.Options} {batchSize : Nat} {label : String}
    {paths : List String} {state : σ} {response : Response}
    (found : (Command.find transformer sink filesOf record options batchSize label paths
      state).1 = .ok response) :
    ∃ engine files triggered, response = .searched engine label files triggered := by
  unfold Command.find Command.searchCollected at found
  split at found
  · cases found
  split at found
  · cases found
  split at found
  · cases found
  split at found
  · cases found
  cases found
  exact ⟨_, _, _, rfl⟩

theorem gives_of_perform
    {τ : Type} {workshop : Workshop τ} {situation : Situation} {request : Request}
    {response : Response} (succeeded : (workshop.perform situation request).1 = .ok response) :
    request.task.Gives response := by
  unfold Workshop.perform at succeeded
  cases task : request.task with
  | run choice isFile input =>
      simp only [task] at succeeded
      split at succeeded
      · cases succeeded
      split at succeeded
      · cases succeeded
      unfold Command.run at succeeded
      split at succeeded
      · cases succeeded
        trivial
      · cases succeeded
  | compare options source transformed =>
      simp only [task] at succeeded
      obtain ⟨divergence, rfl⟩ := compared_of_compare succeeded
      trivial
  | verify choice options paths =>
      simp only [task] at succeeded
      split at succeeded
      · cases succeeded
      obtain ⟨-, -, -, rfl⟩ := Command.verify_eq_ok_iff.mp (Prod.ext succeeded rfl)
      trivial
  | find choice options batchSize output paths =>
      simp only [task] at succeeded
      split at succeeded
      · cases succeeded
      unfold Workshop.searchInto at succeeded
      split at succeeded
      · cases succeeded
      split at succeeded
      · cases succeeded
      obtain ⟨_, _, _, rfl⟩ := searched_of_find succeeded
      trivial

/-! ## Whole commands -/

section Executed

variable {τ : Type} (workshop : Workshop τ) (situation : Situation) {arguments : List String}
  {request : Request}

theorem execute_of_request (asked : Request.ofArguments arguments = .ok request) :
    (workshop.execute situation arguments).output =
        (responseTo (workshop.perform situation request).1).text ∧
      (workshop.execute situation arguments).exit =
        (responseTo (workshop.perform situation request).1).exitNumber := by
  simp [Workshop.execute, asked]

theorem flat_responseTo : (responseTo (workshop.perform situation request).1).Flat := by
  cases performed : (workshop.perform situation request).1 with
  | error failure =>
      exact failsFlat_perform workshop situation request failure performed
  | ok response =>
      have gives := gives_of_perform performed
      cases response with
      | failed failure =>
          cases task : request.task <;> simp [task, Task.Gives] at gives
      | _ =>
          trivial

/-- A response is the one of a task that succeeded, or that of a failure. -/
theorem gives_or_failed :
    request.task.Gives (responseTo (workshop.perform situation request).1) ∨
      (responseTo (workshop.perform situation request).1).status = "error" := by
  cases performed : (workshop.perform situation request).1 with
  | error failure =>
      exact .inr rfl
  | ok response =>
      exact .inl (gives_of_perform performed)

end Executed

/-- Arguments that fit make a command print one response, from which the number
that it ends with can be told, whatever the transformer does.  Comparing ends with
5 exactly when the check of the two sources says that they differ, and checking
files exactly when some file was changed. -/
theorem exit_told_by_response
    {arguments : List String} {request : Request}
    (asked : Request.ofArguments arguments = .ok request) (situation : Situation) :
    execute situation arguments = (Workshop.standard situation).execute situation arguments ∧
    ∀ {τ : Type} (workshop : Workshop τ), ∃ response : Response,
      (workshop.execute situation arguments).output = response.text ∧
      ((∀ n ∈ response.toJson.naturals, n ≤ Json.greatest) →
        Json.read (workshop.execute situation arguments).output =
          .ok response.toJson.arrange) ∧
      Response.Tells response.toJson.arrange (workshop.execute situation arguments).exit ∧
      (response.status = "different" →
        ∃ options source transformed, request.task = .compare options source transformed) ∧
      (response.status = "failed" →
        ∃ choice options paths, request.task = .verify choice options paths) ∧
      (∀ options source transformed, request.task = .compare options source transformed →
        ((workshop.execute situation arguments).exit = 5 ↔
          ∃ first second verdict,
            Command.readSource situation.files source = .ok first ∧
            Command.readSource situation.files transformed = .ok second ∧
            compareSources options first second = .ok verdict ∧ verdict.different = true)) ∧
      ∀ choice options paths, request.task = .verify choice options paths →
        ((workshop.execute situation arguments).exit = 5 ↔
          ∃ kit handled after,
            workshop.equip situation request choice none = .ok kit ∧
            Files.collect situation.files paths = .ok (handled.map Command.Handled.path) ∧
            Command.Handles kit.transformer Prod.snd kit.record.value
              (workshop.blank, situation.files) handled after ∧
            ∃ file ∈ handled, ∃ output verdict, file.result = .ok output ∧
              compareSources options file.code output = .ok verdict ∧
              verdict.different = true) := by
  refine ⟨rfl, ?_⟩
  intro τ workshop
  obtain ⟨prints, ends⟩ := execute_of_request workshop situation asked
  refine ⟨responseTo (workshop.perform situation request).1, prints, ?_, ?_, ?_, ?_, ?_, ?_⟩
  · intro small
    rw [prints]
    exact Response.read_text (flat_responseTo workshop situation) small
  · rw [ends]
    exact Response.tells_exitNumber _
  · intro isDifferent
    rcases gives_or_failed workshop situation with gives | isError
    · exact Task.compare_of_gives gives isDifferent
    · simp [isError] at isDifferent
  · intro hasFailed
    rcases gives_or_failed workshop situation with gives | isError
    · exact Task.verify_of_gives gives hasFailed
    · simp [isError] at hasFailed
  · intro options source transformed task
    have performed : (workshop.perform situation request).1 =
        Command.compare situation.files options source transformed := by
      simp [Workshop.perform, task]
    rw [ends, performed]
    exact exitNumber_compare situation.files options source transformed
  · intro choice options paths task
    rw [ends]
    cases equipped : workshop.equip situation request choice none with
    | error failure =>
        have performed : (workshop.perform situation request).1 = .error failure := by
          simp [Workshop.perform, task, equipped]
        rw [performed]
        simpa [responseTo] using exitNumber_failed_ne_five failure
    | ok kit =>
        have performed : (workshop.perform situation request).1 =
            (Command.verify kit.transformer Prod.snd kit.record options paths
              (workshop.blank, situation.files)).1 := by
          simp [Workshop.perform, task, equipped]
        rw [performed, exitNumber_verify]
        simp

/-- Two files that hold different programs. -/
def differingFiles : Situation where
  files := { root := .folder [("a.js", .file (Text.octets "f();")),
    ("b.js", .file (Text.octets "f(1);"))] }
  bindings := []

/-- Arguments that compare the two. -/
def compareArguments : List String :=
  ["compare", "a.js", "b.js"]

/-- The request that those arguments make. -/
def compareRequest : Request where
  cacheFolder := none
  timeoutSeconds := none
  task := .compare {} "a.js" "b.js"

theorem compare_tells_difference :
    Request.ofArguments compareArguments = .ok compareRequest ∧
    ∃ response : Response,
      (execute differingFiles compareArguments).output = response.text ∧
      (execute differingFiles compareArguments).exit = 5 ∧
      (Response.textOf? "status" response.toJson.arrange = some "different" ∨
        Response.textOf? "status" response.toJson.arrange = some "failed") := by
  have asked : Request.ofArguments compareArguments = .ok compareRequest := by
    rfl
  have ends : (execute differingFiles compareArguments).exit = 5 := by
    decide +kernel
  obtain ⟨isStandard, told⟩ := exit_told_by_response asked differingFiles
  obtain ⟨response, prints, -, tells, -⟩ := told (Workshop.standard differingFiles)
  rw [← isStandard] at prints tells
  exact ⟨asked, response, prints, ends, tells.changed.mpr ends⟩

end CommandLine

end ShapeAudit
