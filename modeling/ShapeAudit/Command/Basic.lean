import ShapeAudit.Response
import ShapeAudit.Transform.Basic

/-!
Transforming one source, and comparing two files.
-/

namespace ShapeAudit.Command

/-- The source in a file. What is not UTF-8 is replaced, not refused. -/
def readSource (files : Files.Storage) (path : String) : Except Failure String :=
  match files.read path with
  | .ok content => .ok (Text.decodeLossy content)
  | .error fault => .error (.atPath path fault)

/-- Transforms a source once and answers with the output, without the blanks at both ends. -/
def run {σ : Type} (transformer : Transformer σ) (code : String) (config : Json) (state : σ) :
    Except Failure Response × σ :=
  match transformer.transform code config state with
  | (.ok output, after) => (.ok (.ran transformer.label (Text.trim output)), after)
  | (.error fault, after) => (.error (.ofTransform fault), after)

/-- Parses the source of a file. -/
def parseIn (options : Source.Options) (file code : String) : Except Failure Shape.Node :=
  (Source.parse options code).mapError (Failure.ofSource file)

/-- Compares two files. -/
def compare (files : Files.Storage) (options : Source.Options) (source transformed : String) :
    Except Failure Response := do
  let sourceCode ← readSource files source
  let transformedCode ← readSource files transformed
  let aligned := alignStrict sourceCode transformedCode
  let first ← parseIn options source aligned.1
  let second ← parseIn options transformed aligned.2
  .ok (.compared source transformed (first.firstDivergence? second))

end ShapeAudit.Command
