import ShapeAudit.Comparison
import ShapeAudit.Failure

/-!
The responses of the commands and their text. Every response says its status first, then the
version of the form it has.
-/

namespace ShapeAudit

/-- A file whose structure a transformer changed. -/
structure ChangedFile where
  path : String
  divergence : Option Shape.Divergence
  deriving DecidableEq

/-- A file that could not be checked. -/
structure SkippedFile where
  path : String
  reason : String
  deriving DecidableEq

/-- What a command answers. -/
inductive Response where
  /-- The output of one transformation. -/
  | ran (engine output : String)
  /-- The comparison of two files. -/
  | compared (source transformed : String) (divergence : Option Shape.Divergence)
  /-- The check of many files. -/
  | verified (engine : String) (passed : Nat) (changed : List ChangedFile)
    (skipped : List SkippedFile)
  /-- The search over many files. -/
  | searched (engine summary : String) (files triggered : Nat)
  /-- A failure. -/
  | failed (failure : Failure)

namespace Response

/-- The version of the form of responses. -/
def schemaVersion : String := "1"

/-- The status of a response. -/
def status : Response → String
  | ran _ _ => "ok"
  | compared _ _ divergence => if divergence.isSome then "different" else "ok"
  | verified _ _ changed _ => if changed.isEmpty then "ok" else "failed"
  | searched _ _ _ _ => "ok"
  | failed _ => "error"

/-- The number that a command with this response ends with. -/
def exitNumber : Response → Nat
  | ran _ _ => 0
  | compared _ _ divergence => if divergence.isSome then ExitCode.verificationFailed.number else 0
  | verified _ _ changed _ =>
    if changed.isEmpty then 0 else ExitCode.verificationFailed.number
  | searched _ _ _ _ => 0
  | failed failure => failure.code.number

/-! ## JSON -/

/-- A member that is left out when there is nothing to say. -/
def optional (name : String) : Option Json → List (String × Json)
  | some value => [(name, value)]
  | none => []

/-- A changed file as a JSON value. -/
def ofChanged (file : ChangedFile) : Json :=
  .object (("path", .text file.path) ::
    optional "divergence" (file.divergence.map Shape.Divergence.toJson))

/-- A skipped file as a JSON value. -/
def ofSkipped (file : SkippedFile) : Json :=
  .object [("path", .text file.path), ("reason", .text file.reason)]

/-- A failure as a JSON value. -/
def ofFailure (failure : Failure) : Json :=
  .object ([("code", .ofNat failure.code.number), ("message", .text failure.message)] ++
    optional "details" failure.details? ++ optional "file" (failure.file?.map Json.text))

/-- The members of a response that depend on the command. -/
def members : Response → List (String × Json)
  | ran engine output => [("engine", .text engine), ("output", .text output)]
  | compared source transformed divergence =>
    [("original", .text source), ("transformed", .text transformed),
      ("different", .bool divergence.isSome)] ++
      optional "divergence" (divergence.map Shape.Divergence.toJson)
  | verified engine passed changed skipped =>
    [("engine", .text engine), ("passed", .ofNat passed), ("failed", .ofNat changed.length),
      ("skipped", .ofNat skipped.length), ("failures", .array (changed.map ofChanged)),
      ("skipped_files", .array (skipped.map ofSkipped))]
  | searched engine summary files triggered =>
    [("engine", .text engine), ("summary", .text summary), ("files", .ofNat files),
      ("triggered", .ofNat triggered)]
  | failed failure => [("error", ofFailure failure)]

/-- A response as a JSON value. -/
def toJson (response : Response) : Json :=
  .object ([("status", .text response.status), ("schema_version", .text schemaVersion)] ++
    response.members)

/-- The text of a response, with the line break at its end. -/
def text (response : Response) : String :=
  response.toJson.pretty ++ "\n"

/-! ## Reading responses back -/

/-- The text of a member. -/
def textOf? (name : String) (value : Json) : Option String :=
  (value.get? name).bind Json.asText?

/-- The number of a member. -/
def numberOf? (name : String) (value : Json) : Option Nat :=
  (value.get? name).bind Json.asNatural?

/-- The divergence of a member, which may be missing. -/
def divergenceOf? (value : Json) : Option (Option Shape.Divergence) :=
  match value.get? "divergence" with
  | none => some none
  | some inner =>
    match Shape.Divergence.ofJson inner with
    | .ok divergence => some (some divergence)
    | .error _ => none

/-- The changed file that a JSON value holds. -/
def changedOf? (value : Json) : Option ChangedFile := do
  some ⟨← textOf? "path" value, ← divergenceOf? value⟩

/-- The skipped file that a JSON value holds. -/
def skippedOf? (value : Json) : Option SkippedFile := do
  some ⟨← textOf? "path" value, ← textOf? "reason" value⟩

/-- The response of a successful command that a JSON value holds. -/
def ofJson? (value : Json) : Option Response :=
  if (value.get? "output").isSome then do
    some (ran (← textOf? "engine" value) (← textOf? "output" value))
  else if (value.get? "different").isSome then do
    some (compared (← textOf? "original" value) (← textOf? "transformed" value)
      (← divergenceOf? value))
  else if (value.get? "passed").isSome then do
    let changed ← (value.get? "failures").bind Json.asArray?
    let skipped ← (value.get? "skipped_files").bind Json.asArray?
    some (verified (← textOf? "engine" value) (← numberOf? "passed" value)
      (← changed.mapM changedOf?) (← skipped.mapM skippedOf?))
  else if (value.get? "summary").isSome then do
    some (searched (← textOf? "engine" value) (← textOf? "summary" value)
      (← numberOf? "files" value) (← numberOf? "triggered" value))
  else none

/-- The response of a successful command that a text holds. -/
def read? (source : String) : Option Response :=
  (Json.read source).toOption.bind ofJson?

end Response

end ShapeAudit
