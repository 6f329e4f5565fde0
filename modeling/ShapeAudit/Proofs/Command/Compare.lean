import ShapeAudit.Proofs.Alignment
import ShapeAudit.Proofs.Command.Verify
import ShapeAudit.Proofs.Source.Faults
import ShapeAudit.Proofs.Source.Prefixed
import ShapeAudit.Proofs.Text.Octets

/-!
# Checking a file and comparing it with its output

Comparing two files does not call the comparison of two sources; it goes through
the same parts by itself, so that it can tell which of the files does not parse.
A check of one file and a comparison of this file with one that holds the output
of the transformer come to the same result in all cases.  The comparison in
addition names a file: the first one if its aligned source does not parse, and
else the second one.
-/

namespace ShapeAudit

theorem Text.decodeLossy_octets (text : String) : decodeLossy (octets text) = text := by
  rw [decodeLossy, octets, decodeFrom_octets, List.map_map]
  have kept : (fun c : Option Char => c.getD (Char.ofNat 0xFFFD)) ∘ some = id := rfl
  rw [kept, List.map_id, String.ofList_toList]

namespace Command

theorem readSource_eq_ok_iff {files : Files.Storage} {path code : String} :
    readSource files path = .ok code ↔
      ∃ content, files.read path = .ok content ∧ Text.decodeLossy content = code := by
  unfold readSource
  cases files.read path <;> simp

/-! ## Comparing two files -/

/-- The file that a failed comparison is blamed on. -/
def blamed (options : Source.Options) (source transformed code output : String) : String :=
  if (Source.parse options (alignStrict code output).1).isOk then transformed else source

section Compare

variable {files : Files.Storage} {options : Source.Options} {source transformed : String}
  {code output : String}

theorem parseIn_eq_error {file text : String} {fault : Source.Fault}
    (fails : Source.parse options text = .error fault) :
    parseIn options file text = .error (.unparsable file fault.message) := by
  have placed := Source.placed_parse options text fault fails
  rw [parseIn, fails]
  cases fault with
  | malformed | unsupported | moduleOnly =>
      rfl
  | grammarUnavailable | aborted =>
      cases placed

theorem different_of_compareSources
    {verdict : Verdict} (compared : compareSources options code output = .ok verdict) :
    verdict.different = verdict.divergence.isSome := by
  obtain ⟨first, second, -, -, rfl⟩ := compareSources_eq_ok_iff.mp compared
  rfl

variable (options) (readsSource : readSource files source = .ok code)
  (readsTransformed : readSource files transformed = .ok output)

include readsSource readsTransformed

/-- A comparison of two files is one of their sources. -/
theorem compare_eq :
    compare files options source transformed =
      match compareSources options code output with
      | .ok verdict => .ok (.compared source transformed verdict.divergence)
      | .error fault =>
        .error (.unparsable (blamed options source transformed code output) fault.message) := by
  unfold compare compareSources blamed
  rw [readsSource, readsTransformed]
  cases readsFirst : Source.parse options (alignStrict code output).1 with
  | error fault =>
      simp [parseIn_eq_error readsFirst, readsFirst, bind, Except.bind, Except.isOk, Except.toBool]
  | ok first =>
      have firstIn : parseIn options source (alignStrict code output).1 = .ok first := by
        rw [parseIn, readsFirst]
        rfl
      cases readsSecond : Source.parse options (alignStrict code output).2 with
      | error fault =>
          simp [firstIn, readsFirst, parseIn_eq_error readsSecond, readsSecond, bind, Except.bind,
            Except.isOk, Except.toBool]
      | ok second =>
          have secondIn :
              parseIn options transformed (alignStrict code output).2 = .ok second := by
            rw [parseIn, readsSecond]
            rfl
          simp [firstIn, secondIn, readsFirst, readsSecond, bind, Except.bind, pure, Except.pure,
            Verdict.ofNodes]

/-- What comes of a source with its output, told by a comparison of two files
that hold them. -/
theorem checkOutput_iff_compare :
    (∀ divergence, checkOutput options code (.ok output) = .changed divergence ↔
      divergence.isSome = true ∧
        compare files options source transformed = .ok (.compared source transformed divergence)) ∧
    (checkOutput options code (.ok output) = .passed ↔
      compare files options source transformed = .ok (.compared source transformed none)) ∧
    ∀ reason, checkOutput options code (.ok output) = .skipped reason ↔
      ∃ file, compare files options source transformed = .error (.unparsable file reason) := by
  have consistent : ∀ verdict, compareSources options code output = .ok verdict →
      verdict.different = verdict.divergence.isSome :=
    fun _ compared => different_of_compareSources compared
  rw [compare_eq options readsSource readsTransformed]
  unfold checkOutput
  dsimp only
  generalize compareSources options code output = outcome at consistent ⊢
  cases outcome with
  | error fault =>
      simp
  | ok verdict =>
      obtain ⟨different, divergence⟩ := verdict
      obtain rfl : different = divergence.isSome := consistent _ rfl
      cases divergence with
      | none =>
          refine ⟨?_, by simp, by simp⟩
          rintro (_ | found) <;> simp
      | some first =>
          refine ⟨?_, by simp, by simp⟩
          rintro (_ | found) <;> simp

/-- A failed comparison names the first file exactly if its source does not
parse once it is aligned, and the second file otherwise. -/
theorem blamed_of_compare
    {file reason : String}
    (failed : compare files options source transformed = .error (.unparsable file reason)) :
    (file = source ↔ (Source.parse options (alignStrict code output).1).isOk = false) ∧
      ((Source.parse options (alignStrict code output).1).isOk = true → file = transformed) := by
  rw [compare_eq options readsSource readsTransformed] at failed
  cases compared : compareSources options code output with
  | ok verdict =>
      rw [compared] at failed
      cases failed
  | error fault =>
      rw [compared] at failed
      obtain ⟨rfl, -⟩ : blamed options source transformed code output = file ∧ _ := by
        simpa using failed
      cases readsFirst : Source.parse options (alignStrict code output).1 with
      | error other =>
          simp [blamed, readsFirst, Except.isOk, Except.toBool]
      | ok first =>
          -- one file compared with itself parses on both sides or on neither
          have apart : transformed ≠ source := by
            rintro rfl
            obtain rfl : code = output := Except.ok.inj (readsSource.symm.trans readsTransformed)
            rw [alignStrict_of_agree rfl] at readsFirst
            rw [compareSources_of_agree readsFirst readsFirst rfl] at compared
            cases compared
          simp [blamed, readsFirst, apart, Except.isOk, Except.toBool]

end Compare

/-! ## Checking one file -/

/-- A check of one script, whose content a transformer turns into an output, and
a comparison of this script with a file that holds this output.  The check lists
the script as changed, with a divergence, exactly if the comparison finds this
divergence; it counts the script as passed exactly if the comparison finds none;
and it skips the script for a reason exactly if the comparison fails to parse
for this reason. -/
theorem verify_agrees_with_compare
    {σ : Type} (transformer : Transformer σ) (filesOf : σ → Files.Storage)
    (record : Config.Record) (options : Source.Options) (state : σ)
    {path code output : String} (script : Files.isScript path = true)
    (readable : readSource (filesOf state) path = .ok code)
    (answered : (transformer.transform code record.value state).1 = .ok output)
    {files : Files.Storage} {other : String} (readsSource : readSource files path = .ok code)
    (holdsOutput : files.read other = .ok (Text.octets output)) :
    ∃ passed changed skipped after,
      verify transformer filesOf record options [path] state =
        (.ok (.verified transformer.label passed changed skipped), after) ∧
      passed + changed.length + skipped.length = 1 ∧
      (∀ divergence, ⟨path, divergence⟩ ∈ changed ↔
        divergence.isSome = true ∧
          compare files options path other = .ok (.compared path other divergence)) ∧
      (passed = 1 ↔ compare files options path other = .ok (.compared path other none)) ∧
      (∀ reason, ⟨path, reason⟩ ∈ skipped ↔
        ∃ file, compare files options path other = .error (.unparsable file reason)) ∧
      ∀ file reason, compare files options path other = .error (.unparsable file reason) →
        (file = path ↔ (Source.parse options (alignStrict code output).1).isOk = false) ∧
        ((Source.parse options (alignStrict code output).1).isOk = true → file = other) := by
  have readsTransformed : readSource files other = .ok output :=
    readSource_eq_ok_iff.mpr ⟨_, holdsOutput, Text.decodeLossy_octets output⟩
  obtain ⟨content, held, -⟩ := readSource_eq_ok_iff.mp readable
  have gathered : Files.collect (filesOf state) [path] = .ok [path] :=
    Files.collect_script script held
  obtain ⟨changedIff, passedIff, skippedIff⟩ :=
    checkOutput_iff_compare options readsSource readsTransformed
  have checked : (Handled.mk path code (.ok output)).check options =
      checkOutput options code (.ok output) := rfl
  have run : Handles transformer filesOf record.value state [⟨path, code, .ok output⟩]
      (transformer.reset (transformer.transform code record.value state).2) :=
    .next readable answered (.done _)
  refine ⟨_, _, _, _, verify_eq_ok_iff.mpr ⟨[⟨path, code, .ok output⟩], gathered, run, rfl⟩,
    total_of_handled options _, ?_, ?_, ?_, ?_⟩
  · intro divergence
    rw [← changedIff, ← checked, List.mem_filterMap]
    simp [Handled.changed?_eq_some_iff]
  · rw [← passedIff, ← checked, List.countP_singleton]
    simp
  · intro reason
    rw [← skippedIff, ← checked, List.mem_filterMap]
    simp [Handled.skipped?_eq_some_iff]
  · intro file reason failed
    exact blamed_of_compare options readsSource readsTransformed failed

/-- A source, and what `tiring` makes of it the second time. -/
def callAndOutput : Files.Storage where
  root := .folder [("a.js", .file (Text.octets "f();")), ("b.js", .file (Text.octets "f(1);"))]

/-- The added argument is found by the check and by the comparison. -/
theorem verify_agrees_with_compare_on_call :
    ∃ divergence passed changed skipped after,
      compare callAndOutput {} "a.js" "b.js" =
        .ok (.compared "a.js" "b.js" (some divergence)) ∧
      verify tiring (fun _ => callAndOutput) noFlags {} ["a.js"] 1 =
        (.ok (.verified "tiring" passed changed skipped), after) ∧
      ⟨"a.js", some divergence⟩ ∈ changed := by
  have holdsSource : callAndOutput.read "a.js" = .ok (Text.octets "f();") := by
    decide +kernel
  have holdsOutput : callAndOutput.read "b.js" = .ok (Text.octets "f(1);") := by
    decide +kernel
  have readsSource : readSource callAndOutput "a.js" = .ok "f();" :=
    readSource_eq_ok_iff.mpr ⟨_, holdsSource, Text.decodeLossy_octets "f();"⟩
  have readsOutput : readSource callAndOutput "b.js" = .ok "f(1);" :=
    readSource_eq_ok_iff.mpr ⟨_, holdsOutput, Text.decodeLossy_octets "f(1);"⟩
  have differs : compareSources {} "f();" "f(1);" = .ok ⟨true, some
      ⟨"Program.children[0].ExpressionStatement.children[0].CallExpression.arguments[0].Arguments",
        .fieldMismatch⟩⟩ :=
    Source.eq_ok_of_toOption (by decide +kernel)
  have compared := compare_eq {} readsSource readsOutput
  rw [differs] at compared
  obtain ⟨passed, changed, skipped, after, verified, -, changedIff, -⟩ :=
    verify_agrees_with_compare tiring (fun _ => callAndOutput) noFlags {} 1 (by decide +kernel)
      readsSource rfl readsSource holdsOutput
  exact ⟨_, passed, changed, skipped, after, compared, verified,
    (changedIff _).mpr ⟨rfl, compared⟩⟩

end Command

end ShapeAudit
