import ShapeAudit.Command.Basic
import ShapeAudit.Files.Collect

/-!
Transforming many files and checking that the structure of each is kept. A file that the transformer
refuses, or that does not parse before or after, is skipped. A file that cannot be read ends the run.
-/

namespace ShapeAudit.Command

open Config (Record)

/-- What came of one file. -/
inductive Check where
  | passed
  | changed (divergence : Option Shape.Divergence)
  | skipped (reason : String)
  deriving DecidableEq

/-- What comes of a source, given what the transformer made of it. -/
def checkOutput (options : Source.Options) (code : String) :
    Except Transform.Fault String → Check
  | .error fault => .skipped fault.message
  | .ok output =>
    match compareSources options code output with
    | .ok verdict => if verdict.different then .changed verdict.divergence else .passed
    | .error fault => .skipped fault.message

/-- Checks one file. The transformer forgets what it kept for the file. -/
def checkFile {σ : Type} (transformer : Transformer σ) (filesOf : σ → Files.Storage)
    (config : Json) (options : Source.Options) (path : String) (state : σ) :
    Except Failure Check × σ :=
  match readSource (filesOf state) path with
  | .error failure => (.error failure, state)
  | .ok code =>
    let (result, after) := transformer.transform code config state
    (.ok (checkOutput options code result), transformer.reset after)

/-- The counts and lists that a run has gathered, lists last one first. -/
structure Tally where
  passed : Nat := 0
  changed : List ChangedFile := []
  skipped : List SkippedFile := []

/-- Adds what came of a file. -/
def Tally.add (tally : Tally) (path : String) : Check → Tally
  | .passed => { tally with passed := tally.passed + 1 }
  | .changed divergence => { tally with changed := ⟨path, divergence⟩ :: tally.changed }
  | .skipped reason => { tally with skipped := ⟨path, reason⟩ :: tally.skipped }

/-- Checks files one after the other. -/
def checkFiles {σ : Type} (transformer : Transformer σ) (filesOf : σ → Files.Storage)
    (config : Json) (options : Source.Options) :
    List String → Tally → σ → Except Failure Tally × σ
  | [], tally, state => (.ok tally, state)
  | path :: rest, tally, state =>
    match checkFile transformer filesOf config options path state with
    | (.error failure, after) => (.error failure, after)
    | (.ok check, after) =>
      checkFiles transformer filesOf config options rest (tally.add path check) after

/-- Transforms every file that paths stand for and checks that its structure is kept. -/
def verify {σ : Type} (transformer : Transformer σ) (filesOf : σ → Files.Storage)
    (record : Record) (options : Source.Options) (paths : List String) (state : σ) :
    Except Failure Response × σ :=
  match Files.collect (filesOf state) paths with
  | .error fault => (.error (.ofCollect fault), state)
  | .ok collected =>
    match checkFiles transformer filesOf record.value options collected {} state with
    | (.error failure, after) => (.error failure, after)
    | (.ok tally, after) =>
      (.ok (.verified transformer.label tally.passed tally.changed.reverse
        tally.skipped.reverse), after)

end ShapeAudit.Command
