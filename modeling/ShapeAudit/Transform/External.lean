import ShapeAudit.Json.Writer
import ShapeAudit.Process.Shell
import ShapeAudit.Transform.Basic
import ShapeAudit.Transform.Engine

/-!
Transformers that are commands. A template gives the program and its arguments, with placeholders
for the configuration file, the input file, the version and the name of the input. Every call runs in
a scratch folder of its own. Unless some argument names the input file, the source is the standard
input of the program.
-/

namespace ShapeAudit.Transform

/-- A transformer that is a command. -/
structure External where
  label : String
  /-- The program and its arguments, with placeholders. -/
  template : List String
  version : String := ""
  /-- The name that the input goes by. -/
  filename : String := "input.js"
  /-- The nanoseconds that one call may take. -/
  timeout : Nat := 60000000000
  /-- The folder in which programs keep their packages. -/
  cacheFolder : Option String := none

/-- Where a call takes place: the variables that programs see and the path of the scratch folder. -/
structure Surroundings where
  bindings : List (String × String)
  scratch : String := "/tmp/.tmp0scratch"

namespace External

/-- The command that runs an engine. -/
def forEngine (spec : EngineSpec) : External where
  label := spec.text
  template := spec.engine.commandTemplate
  version := spec.version

/-- A command of one's own. -/
def custom (label : String) (template : List String) : External where
  label := label
  template := template

/-- The placeholder for the path of the configuration file. -/
def configMark : String := "\x7bconfig\x7d"

/-- The placeholder for the path of the input file. -/
def inputMark : String := "\x7binput\x7d"

/-- The placeholder for the version. -/
def versionMark : String := "\x7bversion\x7d"

/-- The placeholder for the name of the input. -/
def filenameMark : String := "\x7bfilename\x7d"

/-- The name of the configuration file. -/
def configName : String := "config.json"

/-- Whether the source is handed over in a file. -/
def readsFile (command : External) : Bool :=
  command.template.any fun argument => Text.contains argument inputMark

/-- An argument with its placeholders filled in, one after the other. -/
def expandArgument (command : External) (config input argument : String) : String :=
  Text.replace (Text.replace (Text.replace (Text.replace argument configMark config) inputMark input)
    versionMark command.version) filenameMark command.filename

/-- The arguments with their placeholders filled in. -/
def expand (command : External) (config input : String) : List String :=
  command.template.map (command.expandArgument config input)

/-- The path of a name in a folder; an absolute name is its own path. -/
def joined (folder name : String) : String :=
  if Files.isAbsolute name then name else Files.child folder name

/-- A text that holds no zero octet. -/
def isClean (text : String) : Bool :=
  !text.toList.contains '\x00'

/-- The scratch folder of a call: the configuration, and the source if it is handed over in a
file. -/
def prepare (command : External) (code : String) (config : Json) :
    Except Files.Fault Files.Storage := do
  let (_, holding) ← Files.Storage.empty.write configName (Text.octets config.pretty)
  if command.readsFile then
    if !isClean command.filename then
      .error ⟨.other, "file name contained an unexpected NUL byte"⟩
    else
      let (_, full) ← holding.write ("./" ++ command.filename) (Text.octets code)
      .ok full
  else .ok holding

/-- The nanoseconds that starting a program takes. -/
def startTime : Nat := 1

/-- What a program that left off in time gives. -/
def conclude (command : External) : Process.Flow × Process.Machine → Except Fault String
  | (.killed, machine) =>
    .error (.rejected command.label none (Text.trim (Text.decodeLossy machine.errors)))
  | (.done 0, machine) | (.ended 0, machine) =>
    .ok (Text.trim (Text.decodeLossy machine.output))
  | (.done status, machine) | (.ended status, machine) =>
    .error (.rejected command.label (some status) (Text.trim (Text.decodeLossy machine.errors)))

/-- Runs the program of a template on a scratch folder. -/
def launch (command : External) (surroundings : Surroundings) (program code : String)
    (files : Files.Storage) : Except Fault String :=
  let arguments := (command.expand (joined surroundings.scratch configName)
    (joined surroundings.scratch command.filename)).drop 1
  let bindings := match command.cacheFolder with
    | some folder => ("npm_config_cache", folder) :: surroundings.bindings
    | none => surroundings.bindings
  let machine : Process.Machine := {
    files := files
    folder := surroundings.scratch
    bindings := bindings
    input := if command.readsFile then [] else Text.octets code
    elapsed := startTime }
  match Process.Shell.resolve? machine program with
  | none => .error (.notStarted program ⟨.notFound, "cannot find binary path"⟩)
  | some path =>
    if !arguments.all isClean then
      .error (.notStarted program ⟨.other, "nul byte found in provided data"⟩)
    else
      let ended := Process.Shell.runProgram path arguments machine
      if command.timeout ≤ ended.2.elapsed then .error (.timedOut command.label command.timeout)
      else command.conclude ended

/-- Transforms a source under a configuration. -/
def transform (command : External) (surroundings : Surroundings) (code : String) (config : Json) :
    Except Fault String :=
  match command.template with
  | [] => .error (.unusable "command template is empty")
  | program :: _ =>
    match command.prepare code config with
    | .error fault => .error (.io fault)
    | .ok files => command.launch surroundings program code files

/-- The command as a transformer. -/
def transformer (command : External) (surroundings : Surroundings) : Transformer Unit :=
  .ofFunction command.label (command.transform surroundings)

end External

end ShapeAudit.Transform
