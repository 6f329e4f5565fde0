import ShapeAudit.Process.Script
import ShapeAudit.Process.Utility

/-!
Running shell scripts. A script runs by recursion on its shape. The scripts that stand as text inside
it, whose output is put in their place, are run by a function that is passed in; nesting is bounded.
-/

namespace ShapeAudit.Process

/-- Runs the text of a script. -/
abbrev Interpreter := String → Machine → Flow × Machine

namespace Shell

/-! ## Finding programs -/

/-- The folders that hold programs. -/
def programFolders : List String :=
  ["/usr/bin", "/bin"]

/-- The name of the shell itself. -/
def shellName : String := "sh"

/-- Whether a program of a name is installed. -/
def isInstalled (name : String) : Bool :=
  name == shellName || (Utility.find? name).isSome

/-- The path of a program: the first folder on the search path that holds it, or the path itself if
it names one. -/
def resolve? (machine : Machine) (name : String) : Option String :=
  if Text.contains name "/" then
    let last := Utility.lastName name
    if programFolders.any (fun folder => name == folder ++ "/" ++ last) && isInstalled last
    then some name else none
  else if !isInstalled name then none
  else ((Text.splitAt ':' ((machine.value? "PATH").getD "")).find? programFolders.contains).map
    fun folder => folder ++ "/" ++ name

/-! ## Words -/

/-- The fields that words give: those that are complete, and one that has begun. -/
structure Fields where
  complete : List String := []
  begun : Option (List Char) := none

namespace Fields

/-- Adds characters to the field that has begun. -/
def extend (fields : Fields) (chars : List Char) : Fields :=
  { fields with begun := some (fields.begun.getD [] ++ chars) }

/-- Completes the field that has begun. -/
def close (fields : Fields) : Fields :=
  match fields.begun with
  | some chars => ⟨fields.complete ++ [String.ofList chars], none⟩
  | none => fields

/-- Adds characters that blanks divide into fields. -/
def divide (fields : Fields) (chars : List Char) : Fields :=
  chars.foldl (fun current c =>
    if Word.isGap c || c == '\n' then current.close else current.extend [c]) fields

/-- Adds what a piece stands for. -/
def add (fields : Fields) (quoted : Bool) (content : String) : Fields :=
  if quoted then fields.extend content.toList else fields.divide content.toList

end Fields

/-- A text without the ends of lines at its end. -/
def withoutLastLines (text : String) : String :=
  String.ofList (text.toList.reverse.dropWhile (· == '\n')).reverse

/-- What a script writes, and the machine after it. -/
def captured (interpret : Interpreter) (script : String) (machine : Machine) : String × Machine :=
  let (_, after) := interpret script { machine with output := [] }
  (withoutLastLines (Text.decodeLossy after.output),
    { after with output := machine.output, bindings := machine.bindings })

/-- The value of a variable or of a special name. -/
def value (machine : Machine) (name : String) : String :=
  if name == "?" then Text.decimal machine.status else (machine.value? name).getD ""

/-- The fields of a word. -/
def expandInto (interpret : Interpreter) (fields : Fields) :
    Word → Machine → Fields × Machine
  | [], machine => (fields, machine)
  | .text content _ :: rest, machine =>
    expandInto interpret (fields.extend content.toList) rest machine
  | .variable name quoted :: rest, machine =>
    expandInto interpret (fields.add quoted (value machine name)) rest machine
  | .output script quoted :: rest, machine =>
    let (content, after) := captured interpret script machine
    expandInto interpret (fields.add quoted content) rest after

/-- The fields of words. -/
def expand (interpret : Interpreter) : List Word → Machine → List String × Machine
  | [], machine => ([], machine)
  | word :: rest, machine =>
    let (fields, after) := expandInto interpret {} word machine
    let (others, final) := expand interpret rest after
    (fields.close.complete ++ others, final)

/-- The text of a word that is not split. -/
def expandWhole (interpret : Interpreter) (word : Word) (machine : Machine) : String × Machine :=
  let (fields, after) := expandInto interpret {} word machine
  (Text.join " " fields.close.complete, after)

/-! ## Redirections -/

/-- Where a channel leads. -/
inductive Target where
  | output
  | errors
  | file (path : String)
  deriving DecidableEq, Repr

/-- Where the channels lead, and what stands for the input. -/
structure Channels where
  output : Target := .output
  errors : Target := .errors
  input : Option (List UInt8) := none

/-- Sends octets to where a channel leads. -/
def send (target : Target) (octets : List UInt8) (machine : Machine) : Machine :=
  match target with
  | .output => machine.print octets
  | .errors => { machine with errors := machine.errors ++ octets }
  | .file path => ((machine.writeFile path true octets).toOption).getD machine

/-- Opens one redirection; the explanation of a failure comes with the machine. -/
def redirect (interpret : Interpreter) (channels : Channels) (machine : Machine) :
    Redirect → Except (String × Machine) (Channels × Machine)
  | .from word =>
    let (path, after) := expandWhole interpret word machine
    match after.readFile path with
    | .ok octets => .ok ({ channels with input := some octets }, after)
    | .error _ => .error ("cannot open " ++ path ++ ": No such file", after)
  | .into channel append word =>
    let (path, after) := expandWhole interpret word machine
    match after.writeFile path append [] with
    | .ok opened =>
      if channel = 2 then .ok ({ channels with errors := .file path }, opened)
      else .ok ({ channels with output := .file path }, opened)
    | .error fault => .error ("cannot create " ++ path ++ ": " ++ Utility.reason fault, after)
  | .along channel other =>
    let target := if other = 2 then channels.errors else channels.output
    if channel = 2 then .ok ({ channels with errors := target }, machine)
    else .ok ({ channels with output := target }, machine)

/-- Opens redirections from left to right. -/
def redirectAll (interpret : Interpreter) :
    Channels → Machine → List Redirect → Except (String × Machine) (Channels × Machine)
  | channels, machine, [] => .ok (channels, machine)
  | channels, machine, first :: rest => do
    let (opened, after) ← redirect interpret channels machine first
    redirectAll interpret opened after rest

/-- The name that complaints of the shell begin with, with the number of the line. -/
def complaint (machine : Machine) (text : String) : String :=
  (machine.value? "0").getD shellName ++ ": 1: " ++ text

/-- Runs something under redirections. -/
def redirected (interpret : Interpreter) (redirects : List Redirect)
    (run : Machine → Flow × Machine) (machine : Machine) : Flow × Machine :=
  if redirects.isEmpty then run machine
  else match redirectAll interpret {} machine redirects with
    | .error (explanation, after) =>
      (.done 2, after.complain (complaint after explanation))
    | .ok (channels, opened) =>
      let (flow, after) := run
        { opened with output := [], errors := [], input := channels.input.getD opened.input }
      let input := if channels.input.isSome then opened.input else after.input
      let ready := { after with output := opened.output, errors := opened.errors, input := input }
      (flow, send channels.errors after.errors (send channels.output after.output ready))

/-! ## Commands of the shell itself -/

/-- Ends the script with a status. -/
def exit : Program := fun _ arguments machine =>
  match arguments with
  | [] => (.ended machine.status, machine)
  | text :: _ =>
    match Text.count text with
    | .ok status => (.ended (status % 256), machine)
    | .error _ => (.ended 2, machine.complain (complaint machine ("exit: Illegal number: " ++ text)))

/-- Sends a signal to the shell. -/
def kill : Program := fun _ arguments machine =>
  let (options, processes) := Utility.splitOptions arguments
  if options.contains "-0" then (.done 0, machine)
  else if processes.contains (value machine "$") then (.killed, machine)
  else (.done 1, machine.complain (complaint machine "kill: No such process"))

/-- Gives variables values. -/
def assignAll : Program := fun _ arguments machine =>
  (.done 0, arguments.foldl (fun current text =>
    match Text.splitOnce? '=' text with
    | some (name, content) => current.assign name content
    | none => current) machine)

/-- The commands that the shell runs itself, by their names. -/
def ownCommands : List (String × Program) := [
  (":", Utility.succeed), ("true", Utility.succeed), ("false", Utility.fail), ("exit", exit),
  ("kill", kill), ("export", assignAll), ("echo", Utility.echoEscaped), ("printf", Utility.printf),
  ("test", Utility.test), ("[", Utility.bracket), ("pwd", Utility.pwd)]

/-- The status that a process of its own leaves. -/
def statusOf : Flow → Nat
  | .done status => status
  | .ended status => status
  | .killed => 137

/-- The machine of a shell that is called by a name with arguments. -/
def begin (name : String) (arguments : List String) (machine : Machine) : Machine :=
  let numbered := (arguments.zipIdx 1).map fun (argument, place) => (Text.decimal place, argument)
  (("0", name) :: ("$", "4242") :: numbered).foldl (fun current (key, content) =>
    current.assign key content) machine

/-- The shell as a program: a script is its argument, a file, or the input. -/
def shell (interpret : Interpreter) : Program := fun name arguments machine =>
  match arguments with
  | "-c" :: text :: [] => interpret text (begin name [] machine)
  | "-c" :: text :: called :: rest => interpret text (begin called rest machine)
  | [] =>
    let (octets, after) := machine.takeInput
    interpret (Text.decodeLossy octets) (begin name [] after)
  | path :: rest =>
    match machine.readFile path with
    | .ok octets => interpret (Text.decodeLossy octets) (begin path rest machine)
    | .error _ =>
      (.done 2, machine.complain (name ++ ": 0: cannot open " ++ path ++ ": No such file"))

/-- Runs a program that is no part of the shell. -/
def runExternal (interpret : Interpreter) (name : String) (arguments : List String)
    (machine : Machine) : Flow × Machine :=
  match resolve? machine name with
  | none => (.done 127, machine.complain (complaint machine (name ++ ": not found")))
  | some path =>
    match Utility.find? (Utility.lastName path) with
    | some program => program name arguments machine
    | none =>
      let (flow, after) := shell interpret name arguments machine
      (.done (statusOf flow), { after with bindings := machine.bindings })

/-- Runs a command. -/
def runCommand (interpret : Interpreter) (fields : List String) (machine : Machine) :
    Flow × Machine :=
  match fields with
  | [] => (.done 0, machine)
  | name :: arguments =>
    match ownCommands.find? fun entry => entry.1 == name with
    | some (_, program) => program name arguments machine
    | none => runExternal interpret name arguments machine

/-- Gives variables the values of words. -/
def settle (interpret : Interpreter) : List (String × Word) → Machine → Machine
  | [], machine => machine
  | (name, word) :: rest, machine =>
    let (content, after) := expandWhole interpret word machine
    settle interpret rest (after.assign name content)

/-- Notes the status with which something was done. -/
def noted : Flow × Machine → Flow × Machine
  | (.done status, machine) => (.done status, { machine with status := status })
  | other => other

end Shell

/-- Runs a script. -/
def Script.run (interpret : Interpreter) : Script → Machine → Flow × Machine
  | nothing, machine => (.done machine.status, machine)
  | call settings words redirects, machine =>
    Shell.noted (
      let (fields, ready) := Shell.expand interpret words machine
      let (flow, after) := Shell.redirected interpret redirects
        (fun inner => Shell.runCommand interpret fields (Shell.settle interpret settings inner))
        ready
      (flow, if fields.isEmpty then after else
        { after with bindings :=
            if settings.isEmpty then after.bindings else machine.bindings }))
  | negation script, machine =>
    match script.run interpret machine with
    | (.done status, after) => Shell.noted (.done (if status = 0 then 1 else 0), after)
    | other => other
  | both first second, machine =>
    match first.run interpret machine with
    | (.done 0, after) => second.run interpret after
    | other => other
  | either first second, machine =>
    match first.run interpret machine with
    | (.done (_ + 1), after) => second.run interpret after
    | other => other
  | sequence first second, machine =>
    match first.run interpret machine with
    | (.done _, after) => second.run interpret after
    | other => other
  | pipe first second, machine =>
    let (_, middle) := first.run interpret { machine with output := [] }
    let (flow, after) := second.run interpret
      { middle with input := middle.output, output := machine.output,
                    bindings := machine.bindings }
    Shell.noted (.done (Shell.statusOf flow),
      { after with input := middle.input, bindings := machine.bindings })
  | group false script redirects, machine =>
    Shell.redirected interpret redirects (script.run interpret) machine
  | group true script redirects, machine =>
    let (flow, after) := Shell.redirected interpret redirects (script.run interpret) machine
    Shell.noted (.done (Shell.statusOf flow), { after with bindings := machine.bindings })
  | branch condition yes no, machine =>
    match condition.run interpret machine with
    | (.done 0, after) => yes.run interpret after
    | (.done _, after) => no.run interpret { after with status := 0 }
    | other => other

namespace Shell

/-- Runs the text of a script in which texts are nested at most so deep. -/
def interpret : Nat → Interpreter
  | 0, _, machine => (.done 2, machine)
  | depth + 1, text, machine =>
    match Script.parse? text with
    | none => (.ended 2, machine.complain (complaint machine "Syntax error"))
    | some script => script.run (interpret depth) machine

/-- How deep texts may be nested. -/
def depthLimit : Nat := 64

/-- Runs a program that is installed at a path. -/
def runProgram (path : String) (arguments : List String) (machine : Machine) : Flow × Machine :=
  match Utility.find? (Utility.lastName path) with
  | some program => program path arguments machine
  | none => shell (interpret depthLimit) path arguments machine

end Shell

end ShapeAudit.Process
