import ShapeAudit.Command.Basic
import ShapeAudit.Files.Collect

/-!
Searching many files for the flags that change their output, and writing the summary. If a file
cannot be read, or the summary cannot be written, the summary is closed before the run ends.
-/

namespace ShapeAudit.Command

open Config (Record)

/-- Searches one file and pushes its entry; whether anything was found. -/
def searchFile {σ : Type} (transformer : Transformer σ) (sink : Sink σ)
    (filesOf : σ → Files.Storage) (record : Record) (options : Search.Options) (path : String)
    (before : Summary × σ) : Except Failure Bool × (Summary × σ) :=
  match readSource (filesOf before.2) path with
  | .error failure => (.error failure, before)
  | .ok code =>
    let (result, after) := Search.find transformer code record options before.2
    let rested := transformer.reset after
    match result with
    | .error refusal => (.error (.ofRefusal refusal), (before.1, rested))
    | .ok found =>
      match Summary.push sink path found (before.1, rested) with
      | (.error fault, final) => (.error (.ofSummary fault), final)
      | (.ok (), final) => (.ok (!found.isEmpty), final)

/-- Searches files one after the other; in how many anything was found. -/
def searchFiles {σ : Type} (transformer : Transformer σ) (sink : Sink σ)
    (filesOf : σ → Files.Storage) (record : Record) (options : Search.Options) :
    List String → Nat → Summary × σ → Except Failure Nat × (Summary × σ)
  | [], triggered, state => (.ok triggered, state)
  | path :: rest, triggered, state =>
    match searchFile transformer sink filesOf record options path state with
    | (.error failure, after) => (.error failure, after)
    | (.ok found, after) =>
      searchFiles transformer sink filesOf record options rest
        (if found then triggered + 1 else triggered) after

/-- Searches collected files and writes the summary. -/
def searchCollected {σ : Type} (transformer : Transformer σ) (sink : Sink σ)
    (filesOf : σ → Files.Storage) (record : Record) (options : Search.Options) (batchSize : Nat)
    (label : String) (collected : List String) (state : σ) : Except Failure Response × σ :=
  match searchFiles transformer sink filesOf record options collected 0
      (Summary.start batchSize, state) with
  | (.error failure, after) =>
    let (_, closed) := Summary.finish sink after
    (.error failure, closed.2)
  | (.ok triggered, after) =>
    match Summary.finish sink after with
    | (.error fault, closed) => (.error (.ofSummary fault), closed.2)
    | (.ok count, closed) =>
      (.ok (.searched transformer.label label count triggered), closed.2)

/-- Searches every file that paths stand for and writes the summary. A search with too many flags is
refused before anything else happens. -/
def find {σ : Type} (transformer : Transformer σ) (sink : Sink σ) (filesOf : σ → Files.Storage)
    (record : Record) (options : Search.Options) (batchSize : Nat) (label : String)
    (paths : List String) (state : σ) : Except Failure Response × σ :=
  match Search.ensureSearchable record options with
  | .error refusal => (.error (.ofRefusal refusal), state)
  | .ok () =>
    match Files.collect (filesOf state) paths with
    | .error fault => (.error (.ofCollect fault), state)
    | .ok collected =>
      searchCollected transformer sink filesOf record options batchSize label collected state

end ShapeAudit.Command
