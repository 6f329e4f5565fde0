import ShapeAudit.Response
import ShapeAudit.Settings
import ShapeAudit.Transform.External
import ShapeAudit.Transform.Memo

/-!
What a command needs before it runs: the command template, the transformer and the configuration.
-/

namespace ShapeAudit.Command

open Config (Record)

/-- Reads a command template: a JSON array of texts that is not empty. -/
def parseTemplate (text : String) : Except Failure (List String) :=
  match Json.readTexts text with
  | .error error =>
    .error (.badArguments ("transform command must be a JSON array of strings: " ++ error.message))
  | .ok [] => .error (.badArguments "transform command array cannot be empty")
  | .ok arguments => .ok arguments

/-- The command that settings and a template of one's own ask for. -/
def externalOf (settings : Settings) (template : Option (List String)) : Transform.External :=
  let base := match template with
    | some arguments => Transform.External.custom "custom command" arguments
    | none => Transform.External.forEngine settings.engine.value
  { base with
    timeout := settings.timeoutSeconds.value * 1000000000
    cacheFolder := some settings.cacheFolder.value }

/-- The transformer of a command, with a table of outputs in front of it. -/
def transformerOf (external : Transform.External) (surroundings : Transform.Surroundings) :
    Transformer (Transform.Memo Unit) :=
  Transform.memoized (external.transformer surroundings)

/-- The configuration for an engine: the one in a file, or the engine's own. -/
def loadConfig (files : Files.Storage) (engine : Transform.Engine) (path pointer : Option String) :
    Except Failure Record :=
  let place := pointer.getD engine.flagsPointer
  let loaded := match path with
    | some file => Record.load files file place
    | none => Record.make engine.defaultConfig place
  loaded.mapError .ofConfig

end ShapeAudit.Command
