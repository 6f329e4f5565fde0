import ShapeAudit.Files.Storage
import ShapeAudit.Json.Pointer
import ShapeAudit.Json.Writer
import ShapeAudit.Transform.Basic

/-!
Scripted transformers. A script is a list of rules; every rule whose conditions hold acts on the
output in turn, beginning with the source itself. Calls are counted from one.
-/

namespace ShapeAudit.Transform

/-- What is asked of a configuration: that a value stands at a place. -/
structure Demand where
  place : String
  value : Json

/-- Whether a configuration meets a demand. -/
def Demand.isMet (demand : Demand) (config : Json) : Bool :=
  match (Json.Pointer.ofText? demand.place).bind fun pointer => config.follow? pointer.keys with
  | some found => found.agree demand.value
  | none => false

/-- A rule: conditions, then actions in the order of the fields. -/
structure Rule where
  /-- What the configuration must hold. -/
  demand : Option Demand := none
  /-- What the source must contain. -/
  contains : Option String := none
  /-- The least call that the rule is for. -/
  leastCall : Option Nat := none
  /-- The greatest call that the rule is for. -/
  greatestCall : Option Nat := none
  /-- A file to drop. -/
  delete : Option String := none
  /-- A fault to end the call with. -/
  fail : Option Fault := none
  /-- A text to put in place of the output. -/
  set : Option String := none
  /-- A piece to replace in the output, and its replacement. -/
  replace : Option (String × String) := none
  /-- A text to put before the output. -/
  prepend : Option String := none
  /-- A text to put after the output. -/
  append : Option String := none
  /-- Whether the text of the configuration is put after the output. -/
  appendConfig : Bool := false

namespace Rule

/-- Whether all conditions of a rule hold. -/
def applies (rule : Rule) (call : Nat) (code : String) (config : Json) : Bool :=
  rule.demand.all (fun demand => demand.isMet config) &&
    rule.contains.all (fun piece => Text.contains code piece) &&
    rule.leastCall.all (fun least => decide (least ≤ call)) &&
    rule.greatestCall.all (fun greatest => decide (call ≤ greatest))

/-- What a rule makes of the files. -/
def onFiles (rule : Rule) (files : Files.Storage) : Files.Storage :=
  match rule.delete with
  | some path =>
    match files.remove path with
    | .ok remaining => remaining
    | .error _ => files
  | none => files

/-- What a rule makes of the output. -/
def onOutput (rule : Rule) (config : Json) (output : String) : String :=
  let chosen := rule.set.getD output
  let replaced := match rule.replace with
    | some (piece, replacement) => Text.replace chosen piece replacement
    | none => chosen
  let framed := rule.prepend.getD "" ++ replaced ++ rule.append.getD ""
  if rule.appendConfig then framed ++ config.compact else framed

end Rule

/-- What a script keeps from call to call. -/
structure ScriptState where
  /-- How many calls there were. -/
  calls : Nat := 0
  /-- The configurations of the calls, last one first. -/
  configs : List Json := []
  /-- The files that rules may drop. -/
  files : Files.Storage := .empty

/-- Applies rules in turn to an output so far. -/
def applyRules (call : Nat) (code : String) (config : Json) :
    List Rule → Files.Storage → String → Except Fault String × Files.Storage
  | [], files, output => (.ok output, files)
  | rule :: rest, files, output =>
    if rule.applies call code config then
      let remaining := rule.onFiles files
      match rule.fail with
      | some fault => (.error fault, remaining)
      | none => applyRules call code config rest remaining (rule.onOutput config output)
    else applyRules call code config rest files output

/-- The transformer of a script. -/
def script (rules : List Rule) : Transformer ScriptState where
  label := "custom transformer"
  transform code config state :=
    let call := state.calls + 1
    let (result, files) := applyRules call code config rules state.files code
    (result, ⟨call, config :: state.configs, files⟩)
  reset := id

end ShapeAudit.Transform
