import ShapeAudit.Files.Storage

/-!
What a program works on: a scratch folder, variables, an input, two outputs and a clock. Programs
are pure functions on it.
-/

namespace ShapeAudit.Process

/-- What a program works on. -/
structure Machine where
  /-- The scratch folder, in which programs run. -/
  files : Files.Storage := .empty
  /-- The absolute path of the scratch folder. -/
  folder : String
  /-- The variables of the environment. -/
  bindings : List (String × String) := []
  /-- What is left of the input. -/
  input : List UInt8 := []
  /-- What was written so far. -/
  output : List UInt8 := []
  /-- What was complained about so far. -/
  errors : List UInt8 := []
  /-- The status of the last program. -/
  status : Nat := 0
  /-- The nanoseconds that have passed. -/
  elapsed : Nat := 0

namespace Machine

/-- The value of a variable. -/
def value? (machine : Machine) (name : String) : Option String :=
  (machine.bindings.find? fun entry => entry.1 == name).map Prod.snd

/-- Gives a variable a value. -/
def assign (machine : Machine) (name value : String) : Machine :=
  { machine with
    bindings := (name, value) :: machine.bindings.filter fun entry => entry.1 != name }

/-- Writes octets to the output. -/
def print (machine : Machine) (octets : List UInt8) : Machine :=
  { machine with output := machine.output ++ octets }

/-- Writes a text to the output. -/
def say (machine : Machine) (text : String) : Machine :=
  machine.print (Text.octets text)

/-- Writes a line to the complaints. -/
def complain (machine : Machine) (text : String) : Machine :=
  { machine with errors := machine.errors ++ Text.octets (text ++ "\n") }

/-- Takes the whole input. -/
def takeInput (machine : Machine) : List UInt8 × Machine :=
  (machine.input, { machine with input := [] })

/-- A path as seen from the scratch folder, unless it leads elsewhere. -/
def inside? (machine : Machine) (path : String) : Option String :=
  if !Files.isAbsolute path then some path
  else if path == machine.folder then some "."
  else (Text.afterPrefix? (machine.folder ++ "/").toList path.toList).map String.ofList

/-- The file that swallows everything and holds nothing. -/
def nullDevice : String := "/dev/null"

/-- The octets of a file. -/
def readFile (machine : Machine) (path : String) : Except Files.Fault (List UInt8) :=
  if path == nullDevice then .ok []
  else match machine.inside? path with
    | some inner => machine.files.read inner
    | none => .error .noEntry

/-- Writes a file, or adds to it. -/
def writeFile (machine : Machine) (path : String) (append : Bool) (octets : List UInt8) :
    Except Files.Fault Machine := do
  if path == nullDevice then .ok machine
  else match machine.inside? path with
    | none => .error .noEntry
    | some inner =>
      let before := if append then ((machine.files.read inner).toOption).getD [] else []
      let (_, files) ← machine.files.write inner (before ++ octets)
      .ok { machine with files := files }

/-- Lets time pass. -/
def wait (machine : Machine) (nanos : Nat) : Machine :=
  { machine with elapsed := machine.elapsed + nanos }

end Machine

/-- How a program or a script leaves off. -/
inductive Flow where
  /-- It is done, with a status, and what comes next may run. -/
  | done (status : Nat)
  /-- The whole script ends with a status. -/
  | ended (status : Nat)
  /-- The process was killed. -/
  | killed
  deriving DecidableEq, Repr

/-- A program: the name by which it is called, its arguments and a machine give the way it leaves
off and the machine after it. -/
abbrev Program := String → List String → Machine → Flow × Machine

end ShapeAudit.Process
