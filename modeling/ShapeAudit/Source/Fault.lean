import ShapeAudit.Source.Tree

/-!
Why a source has no shape tree, with the wording of each cause, and the options that decide what is
accepted.
-/

namespace ShapeAudit.Source

/-- What a source may hold. -/
structure Options where
  /-- Whether imports and exports are accepted. -/
  asModule : Bool := false
  /-- Whether a first line that begins with `#!` is accepted. -/
  hashBang : Bool := true
  /-- Whether JSX is accepted. -/
  jsx : Bool := false
  deriving DecidableEq

/-- Why a source has no shape tree. -/
inductive Fault where
  /-- The source is malformed. -/
  | malformed (place : Place) (explanation : String)
  /-- The source is well formed, but no shape stands for a construct or the options refuse it. -/
  | unsupported (kind : String) (place : Place)
  /-- An import or export stands in a script. -/
  | moduleOnly (place : Place)
  /-- The grammar could not be loaded. -/
  | grammarUnavailable (explanation : String)
  /-- Reading ended without a tree. -/
  | aborted
  deriving DecidableEq

namespace Fault

/-- The wording of a fault. -/
def message : Fault → String
  | .malformed place explanation => "syntax error at " ++ place.text ++ ": " ++ explanation
  | .unsupported kind place => "unsupported syntax \x60" ++ kind ++ "\x60 at " ++ place.text
  | .moduleOnly place =>
    "import/export declarations are only valid in module code (" ++ place.text ++ ")"
  | .grammarUnavailable explanation => "failed to load the JavaScript grammar: " ++ explanation
  | .aborted => "parser produced no syntax tree"

end Fault

end ShapeAudit.Source
