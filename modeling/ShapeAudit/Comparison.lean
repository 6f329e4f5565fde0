import ShapeAudit.Shape.Divergence
import ShapeAudit.Source.Parse

/-!
Comparing a source with a transformed one. A transformer may add or drop the directive
`"use strict"`, so if only one of the two sources begins with it, the other gets it first.
-/

namespace ShapeAudit

/-! ## The strict directive -/

/-- The line that is put before a source that lacks the directive. -/
def strictLine : String := "\"use strict\";\n"

/-- Whether a source begins with the text of the directive, blanks aside. -/
def startsStrict (text : String) : Bool :=
  let trimmed := Text.trim text
  Text.startsWith trimmed "\"use strict\"" || Text.startsWith trimmed "'use strict'"

/-- Gives both sources the directive if exactly one of them begins with it. -/
def alignStrict (source transformed : String) : String × String :=
  match startsStrict source, startsStrict transformed with
  | true, false => (source, strictLine ++ transformed)
  | false, true => (strictLine ++ source, transformed)
  | _, _ => (source, transformed)

/-! ## Verdicts -/

/-- The outcome of a comparison. -/
structure Verdict where
  /-- Whether the two programs can be told apart. -/
  different : Bool
  /-- Where they first differ. -/
  divergence : Option Shape.Divergence
  deriving DecidableEq

namespace Verdict

/-- The verdict on two shape trees. -/
def ofNodes (source transformed : Shape.Node) : Verdict :=
  let divergence := source.firstDivergence? transformed
  ⟨divergence.isSome, divergence⟩

/-- A verdict as a JSON value. -/
def toJson (verdict : Verdict) : Json :=
  .object (("different", .bool verdict.different) ::
    match verdict.divergence with
    | some divergence => [("divergence", divergence.toJson)]
    | none => [])

end Verdict

/-- Compares two sources after aligning them. The first source is parsed first, so its fault is the
one that is reported. -/
def compareSources (options : Source.Options) (source transformed : String) :
    Except Source.Fault Verdict := do
  let aligned := alignStrict source transformed
  let first ← Source.parse options aligned.1
  let second ← Source.parse options aligned.2
  return Verdict.ofNodes first second

end ShapeAudit
