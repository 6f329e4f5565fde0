import ShapeAudit.Command.Find
import ShapeAudit.Command.Setup
import ShapeAudit.Command.Verify
import ShapeAudit.CommandLine.Request

/-!
Carrying out what the command line asks for. Settings come first, then the command template, then
the configuration, and only then the input. A search that is refused leaves an old summary alone.
-/

namespace ShapeAudit.CommandLine

/-- What a command finds when it starts. -/
structure Situation where
  files : Files.Storage
  /-- The variables of the environment. -/
  bindings : List (String × String)

/-- What a command leaves. -/
structure Outcome where
  exit : Nat
  /-- What it prints. -/
  output : String
  /-- The files after it. -/
  files : Files.Storage

namespace Situation

/-- The value of a variable. -/
def lookup (situation : Situation) (name : String) : Option String :=
  (situation.bindings.find? fun entry => entry.1 == name).map Prod.snd

/-- The home folder of the one who calls if no variable names one. -/
def fallbackHome : String := "/root"

/-- The home folder. -/
def home (situation : Situation) : String :=
  ((situation.lookup "HOME").filter (· != "")).getD fallbackHome

/-- What transformers see. -/
def surroundings (situation : Situation) : Transform.Surroundings :=
  { bindings := situation.bindings }

end Situation

/-- What is around a command: what the transformers that it starts do, to a state of their own and
to the files, and what comes of handing text over to the system. -/
structure Workshop (τ : Type) where
  transformerFor : Transform.External → Transformer (τ × Files.Storage)
  /-- Whether the system takes a text for an open file, as a whole or not at all. -/
  takes : String → τ × Files.Storage → Except Files.Fault Unit × τ
  /-- The state at the start. -/
  blank : τ

/-- What a task works with. -/
structure Equipment (τ : Type) where
  transformer : Transformer (τ × Files.Storage)
  record : Config.Record
  batchSize : Nat

/-- The settings for a choice of a transformer. -/
def settingsFor (situation : Situation) (request : Request) (choice : Choice)
    (batchSize : Option Nat) : Except Failure Settings := do
  let engine ← choice.engine.mapM fun text =>
    (Transform.EngineSpec.parse text).mapError Failure.ofSpec
  let overrides : Overrides := {
    engine := engine
    cacheFolder := request.cacheFolder
    timeoutSeconds := request.timeoutSeconds
    batchSize := batchSize }
  (Settings.resolve situation.home situation.lookup overrides).mapError Failure.ofSettings

/-- The source to transform: the input itself, or the text of the file that it names. -/
def sourceOf (files : Files.Storage) (isFile : Bool) (input : String) : Except Failure String :=
  if isFile then (files.readText input).mapError (Failure.atPath input) else .ok input

/-- The response to a result. -/
def responseTo : Except Failure Response → Response
  | .ok response => response
  | .error failure => .failed failure

/-- The line that names the program and its version. -/
def versionLine : String := "minicheck 0.1.0\n"

/-- The exit code for arguments that do not fit. -/
def malformedExit : Nat := ExitCode.invalidArguments.number

namespace Workshop

variable {τ : Type}

/-- What a choice of a transformer makes available. -/
def equip (workshop : Workshop τ) (situation : Situation) (request : Request) (choice : Choice)
    (batchSize : Option Nat) : Except Failure (Equipment τ) := do
  let settings ← settingsFor situation request choice batchSize
  let template ← choice.template.mapM Command.parseTemplate
  let record ← Command.loadConfig situation.files settings.engine.value.engine choice.config
    choice.pointer
  .ok {
    transformer := workshop.transformerFor (Command.externalOf settings template)
    record := record
    batchSize := settings.batchSize.value }

/-- Hands a text over for the open file at the end of a list of names. -/
def deliver (workshop : Workshop τ) (names : List String) (text : String) :
    τ × Files.Storage → Except Files.Fault Unit × (τ × Files.Storage) := fun (own, files) =>
  match workshop.takes text (own, files) with
  | (.ok (), after) => (.ok (), (after, files.append names text))
  | (.error fault, after) => (.error fault, (after, files))

/-- Searches files and writes the summary to a file. The file is opened before anything is
collected. In the end what is left in the buffer is handed over once more, and what comes of that is
not looked at. -/
def searchInto (workshop : Workshop τ) (equipment : Equipment τ) (options : Search.Options)
    (output : String) (paths : List String) (files : Files.Storage) :
    Except Failure Response × Files.Storage :=
  match Search.ensureSearchable equipment.record options with
  | .error refusal => (.error (.ofRefusal refusal), files)
  | .ok () =>
    match files.write output [] with
    | .error fault => (.error (.atPath output fault), files)
    | .ok (names, opened) =>
      let deliver := workshop.deliver names
      let (result, after) := Command.find equipment.transformer.beside (.buffered deliver)
        (fun state => state.1.2) equipment.record options equipment.batchSize output paths
        ((workshop.blank, opened), "")
      (result, (Sink.release deliver after).2.1.2)

/-- Carries out a request. -/
def perform (workshop : Workshop τ) (situation : Situation) (request : Request) :
    Except Failure Response × Files.Storage :=
  let files := situation.files
  match request.task with
  | .run choice isFile input =>
    match workshop.equip situation request choice none with
    | .error failure => (.error failure, files)
    | .ok equipment =>
      match sourceOf files isFile input with
      | .error failure => (.error failure, files)
      | .ok code =>
        let (result, after) :=
          Command.run equipment.transformer code equipment.record.value (workshop.blank, files)
        (result, after.2)
  | .compare options source transformed =>
    (Command.compare files options source transformed, files)
  | .verify choice options paths =>
    match workshop.equip situation request choice none with
    | .error failure => (.error failure, files)
    | .ok equipment =>
      let (result, after) := Command.verify equipment.transformer Prod.snd equipment.record
        options paths (workshop.blank, files)
      (result, after.2)
  | .find choice options batchSize output paths =>
    match workshop.equip situation request choice batchSize with
    | .error failure => (.error failure, files)
    | .ok equipment => workshop.searchInto equipment options output paths files

/-- Runs the program on arguments. -/
def execute (workshop : Workshop τ) (situation : Situation) (arguments : List String) : Outcome :=
  match Request.ofArguments arguments with
  | .error .help => ⟨0, "", situation.files⟩
  | .error .version => ⟨0, versionLine, situation.files⟩
  | .error .malformed => ⟨malformedExit, "", situation.files⟩
  | .ok request =>
    let (result, files) := workshop.perform situation request
    let response := responseTo result
    ⟨response.exitNumber, response.text, files⟩

/-- The transformers that the program knows, each with a table of outputs in front of it. They
leave the files alone, and the system takes every text. -/
def standard (situation : Situation) : Workshop (Transform.Memo Unit) where
  transformerFor external := (Command.transformerOf external situation.surroundings).beside
  takes _ state := (.ok (), state.1)
  blank := .fresh ()

end Workshop

/-- Runs the program on arguments, with the transformers that it knows. -/
def execute (situation : Situation) (arguments : List String) : Outcome :=
  (Workshop.standard situation).execute situation arguments

end ShapeAudit.CommandLine
