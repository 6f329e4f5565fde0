import ShapeAudit.CommandLine.Argument
import ShapeAudit.Search.Basic
import ShapeAudit.Source.Parse

/-!
What the command line asks for: one of four commands, and what holds for all of them.
-/

namespace ShapeAudit.CommandLine

/-! ## Requests -/

/-- Which transformer is used and how it is configured. -/
structure Choice where
  /-- The specification of an engine. -/
  engine : Option String := none
  /-- The path of a configuration file. -/
  config : Option String := none
  /-- Where the configuration holds its flags. -/
  pointer : Option String := none
  /-- A command template of one's own. -/
  template : Option String := none

/-- What a command is to do. -/
inductive Task where
  /-- Transform a source once; the input may be the path of a file. -/
  | run (choice : Choice) (isFile : Bool) (input : String)
  /-- Compare two files. -/
  | compare (options : Source.Options) (source transformed : String)
  /-- Transform files and check that their structure is kept. -/
  | verify (choice : Choice) (options : Source.Options) (paths : List String)
  /-- Find the flags that change the output of files. -/
  | find (choice : Choice) (options : Search.Options) (batchSize : Option Nat) (output : String)
    (paths : List String)

/-- A task with what holds for all tasks. -/
structure Request where
  cacheFolder : Option String
  timeoutSeconds : Option Nat
  task : Task

/-! ## The arguments of each command -/

/-- The options that every command takes. -/
def commonOptions : List Declaration := [
  { name := "log-level", form := some (.choice ["trace", "debug", "info", "warn", "error"]) },
  { name := "cache-dir", form := some .path },
  { name := "timeout", form := some .count }]

/-- The options that choose a transformer. -/
def choiceOptions : List Declaration := [
  { name := "engine", form := some .text },
  { name := "config", form := some .path },
  { name := "flags-pointer", form := some .text },
  { name := "transform-command", form := some .text }]

/-- The options for reading sources. -/
def sourceOptions : List Declaration := [{ name := "module" }, { name := "jsx" }]

/-- The options of a search. -/
def searchOptions : List Declaration := [
  { name := "output", letter := some 'o', form := some .path },
  { name := "unsafe", letter := some 'u' },
  { name := "bruteforce", letter := some 'b' },
  { name := "max-flags", form := some .count },
  { name := "batch-size", form := some .count }]

/-- What stands before the name of a command. -/
def leadingUsage : Usage where
  options := commonOptions
  operand := .text
  least := 0
  most := some 0
  leading := true
  versioned := true

/-- The arguments for transforming once. -/
def runUsage : Usage where
  options := commonOptions ++ choiceOptions ++ [{ name := "file" }]
  operand := .text
  least := 1
  most := some 1

/-- The arguments for comparing. -/
def compareUsage : Usage where
  options := commonOptions ++ sourceOptions
  operand := .path
  least := 2
  most := some 2

/-- The arguments for verifying. -/
def verifyUsage : Usage where
  options := commonOptions ++ choiceOptions ++ sourceOptions
  operand := .path
  least := 1
  most := none

/-- The arguments for searching. -/
def findUsage : Usage where
  options := commonOptions ++ choiceOptions ++ searchOptions
  operand := .path
  least := 1
  most := none

/-! ## From arguments to requests -/

/-- The transformer that was chosen. -/
def choiceOf (given : Given) : Choice where
  engine := given.value? "engine"
  config := given.value? "config"
  pointer := given.value? "flags-pointer"
  template := given.value? "transform-command"

/-- How sources are to be read. -/
def sourceOptionsOf (given : Given) : Source.Options :=
  { asModule := given.has "module", jsx := given.has "jsx" }

/-- How a search is to be made. -/
def searchOptionsOf (given : Given) : Search.Options :=
  let base : Search.Options := {}
  { includeUnsafe := given.has "unsafe"
    strategy := if given.has "bruteforce" then .powerSet else .linear
    maxFlags := (given.number? "max-flags").getD base.maxFlags }

/-- Where a summary goes if nothing is said. -/
def defaultSummary : String := "summary.json"

/-- The task of transforming once. -/
def runTask (given : Given) : Task :=
  .run (choiceOf given) (given.has "file") (given.operands.headD "")

/-- The task of comparing. -/
def compareTask (given : Given) : Task :=
  .compare (sourceOptionsOf given) (given.operands.headD "") (given.operands.getLastD "")

/-- The task of verifying. -/
def verifyTask (given : Given) : Task :=
  .verify (choiceOf given) (sourceOptionsOf given) given.operands

/-- The task of searching. -/
def findTask (given : Given) : Task :=
  .find (choiceOf given) (searchOptionsOf given) (given.number? "batch-size")
    ((given.value? "output").getD defaultSummary) given.operands

/-- A command: its name, its arguments, and the task that they make. -/
structure Entry where
  name : String
  usage : Usage
  task : Given → Task

/-- All commands. -/
def entries : List Entry := [
  ⟨"run", runUsage, runTask⟩, ⟨"compare", compareUsage, compareTask⟩,
  ⟨"verify", verifyUsage, verifyTask⟩, ⟨"find-triggered-options", findUsage, findTask⟩]

/-- The command of a name. -/
def entryOf? (name : String) : Option Entry :=
  entries.find? fun entry => entry.name == name

/-- Whether help can be had on what stands after the word for it. -/
def isHelpTopic : List String → Bool
  | [] => true
  | [name] => name == "help" || (entryOf? name).isSome
  | _ => false

/-- The request that arguments make. What stands behind the name of the command wins over what
stands before it. -/
def Request.ofArguments (arguments : List String) : Except Halt Request := do
  match ← leadingUsage.read arguments with
  | (_, []) => .error .malformed
  | (before, name :: rest) =>
    match entryOf? name with
    | some entry =>
      let (given, _) ← entry.usage.read rest
      .ok {
        cacheFolder := (given.value? "cache-dir").or (before.value? "cache-dir")
        timeoutSeconds := (given.number? "timeout").or (before.number? "timeout")
        task := entry.task given }
    | none =>
      if name == "help" then .error (if isHelpTopic rest then .help else .malformed)
      else .error .malformed

end ShapeAudit.CommandLine
