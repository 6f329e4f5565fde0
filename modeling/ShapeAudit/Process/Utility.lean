import ShapeAudit.Process.Escape
import ShapeAudit.Process.Machine
import ShapeAudit.Process.Pattern

/-!
The small programs that command templates call.
-/

namespace ShapeAudit.Process.Utility

/-! ## Shared parts -/

/-- Leaves off with a status. -/
def leave (status : Nat) (machine : Machine) : Flow × Machine :=
  (.done status, machine)

/-- The wording of a fault without the number of the system. -/
def reason (fault : Files.Fault) : String :=
  match fault.cause with
  | .notFound => "No such file or directory"
  | _ => Text.trim (String.ofList (fault.message.toList.takeWhile (· != '(')))

/-- The lines of octets, without their ends; a last line may lack one. -/
def lines : List UInt8 → List (List UInt8)
  | [] => []
  | octet :: rest =>
    if octet = 10 then [] :: lines rest
    else match lines rest with
      | [] => [[octet]]
      | first :: others => (octet :: first) :: others

/-- Whether an argument asks for the input instead of a file. -/
def isInput (path : String) : Bool :=
  path == "-"

/-- The octets of the files that are named, or of the input if none is; a file that cannot be read
is complained about and counts as empty. -/
def gather (name : String) (paths : List String) (machine : Machine) :
    List (String × List UInt8) × Bool × Machine :=
  (if paths.isEmpty then ["-"] else paths).foldl (fun (found, failed, current) path =>
    if isInput path then
      let (octets, after) := current.takeInput
      (found ++ [(path, octets)], failed, after)
    else match current.readFile path with
      | .ok octets => (found ++ [(path, octets)], failed, current)
      | .error fault =>
        (found, true, current.complain (name ++ ": " ++ path ++ ": " ++ reason fault)))
    ([], false, machine)

/-- Splits leading options from the other arguments; two dashes end the options. -/
def splitOptions : List String → List String × List String
  | [] => ([], [])
  | "--" :: rest => ([], rest)
  | argument :: rest =>
    if Text.startsWith argument "-" && argument != "-" then
      let (options, others) := splitOptions rest
      (argument :: options, others)
    else ([], argument :: rest)

/-! ## Programs that only give a status -/

/-- Always succeeds. -/
def succeed : Program := fun _ _ machine => leave 0 machine

/-- Always fails. -/
def fail : Program := fun _ _ machine => leave 1 machine

/-- The nanoseconds that a text gives in seconds, with a fraction and a unit. -/
def nanoseconds? (text : String) : Option Nat :=
  let whole := text.toList.takeWhile Text.isAsciiDigit
  let after := text.toList.dropWhile Text.isAsciiDigit
  let (fraction, ending) := match after with
    | '.' :: rest => (rest.takeWhile Text.isAsciiDigit, rest.dropWhile Text.isAsciiDigit)
    | rest => ([], rest)
  let scale := match ending with
    | [] => some 1
    | ['s'] => some 1
    | ['m'] => some 60
    | ['h'] => some 3600
    | ['d'] => some 86400
    | _ => none
  let value (digits : List Char) : Nat :=
    digits.foldl (fun total c => total * 10 + (c.toNat - 48)) 0
  if whole.isEmpty && fraction.isEmpty then none
  else scale.map fun factor =>
    factor * (value whole * 1000000000 + value fraction * 1000000000 / Nat.pow 10 fraction.length)

/-- Lets the time pass that its arguments give. -/
def sleep : Program := fun name arguments machine =>
  match arguments.mapM nanoseconds? with
  | some [] => leave 1 (machine.complain (name ++ ": missing operand"))
  | some times => leave 0 (machine.wait (times.foldl (· + ·) 0))
  | none => leave 1 (machine.complain (name ++ ": invalid time interval"))

/-- Compares two numbers that texts give. -/
def compareNumbers (left right : String) (holds : Nat → Nat → Bool) : Option Bool := do
  let first ← (Text.count left).toOption
  let second ← (Text.count right).toOption
  some (holds first second)

/-- The value of a condition, if it is one. -/
def condition (machine : Machine) : List String → Option Bool
  | [] => some false
  | [text] => some (text != "")
  | "!" :: rest => (condition machine rest).map not
  | ["-n", text] => some (text != "")
  | ["-z", text] => some (text == "")
  | ["-e", path] => some ((machine.inside? path).any machine.files.exists?)
  | ["-f", path] => some (machine.readFile path).toOption.isSome
  | ["-d", path] =>
    some ((machine.inside? path).any fun inner =>
      ((machine.files.status inner).toOption).any Files.Entry.isFolder)
  | ["-s", path] => some (((machine.readFile path).toOption).any fun octets => !octets.isEmpty)
  | [left, "=", right] => some (left == right)
  | [left, "!=", right] => some (left != right)
  | [left, "-eq", right] => compareNumbers left right (· == ·)
  | [left, "-ne", right] => compareNumbers left right (· != ·)
  | [left, "-lt", right] => compareNumbers left right fun a b => decide (a < b)
  | [left, "-le", right] => compareNumbers left right fun a b => decide (a ≤ b)
  | [left, "-gt", right] => compareNumbers left right fun a b => decide (b < a)
  | [left, "-ge", right] => compareNumbers left right fun a b => decide (b ≤ a)
  | _ => none

/-- Tests a condition. -/
def test : Program := fun _ arguments machine =>
  match condition machine arguments with
  | some true => leave 0 machine
  | some false => leave 1 machine
  | none => leave 2 machine

/-- Tests a condition that a bracket closes. -/
def bracket : Program := fun name arguments machine =>
  if arguments.getLast? == some "]" then test name arguments.dropLast machine else leave 2 machine

/-! ## Programs that write -/

/-- Writes its arguments with blanks between them; a backslash stands for itself. -/
def echo : Program := fun _ arguments machine =>
  match arguments with
  | "-n" :: rest => leave 0 (machine.say (Text.join " " rest))
  | "-e" :: rest => leave 0 (machine.print ((unescaped (Text.join " " rest)).1 ++ [10]))
  | all => leave 0 (machine.say (Text.join " " all ++ "\n"))

/-- Writes its arguments with blanks between them; a backslash begins an escape. -/
def echoEscaped : Program := fun _ arguments machine =>
  let (texts, ending) : List String × List UInt8 := match arguments with
    | "-n" :: rest => (rest, [])
    | all => (all, [10])
  let (octets, ended) := unescaped (Text.join " " texts)
  leave 0 (machine.print (if ended then octets else octets ++ ending))

/-- Writes a format filled in from arguments. -/
def printf : Program := fun name arguments machine =>
  match arguments with
  | [] => leave 1 (machine.complain (name ++ ": missing operand"))
  | "--" :: format :: rest => leave 0 (machine.print (fill format rest))
  | format :: rest => leave 0 (machine.print (fill format rest))

/-- Writes the path of the folder. -/
def pwd : Program := fun _ _ machine =>
  leave 0 (machine.say (machine.folder ++ "\n"))

/-- The last name of a path. -/
def lastName (path : String) : String :=
  match (Text.splitAt '/' path).filter (fun part => part != "") |>.getLast? with
  | some name => name
  | none => if path == "" then "" else "/"

/-- Writes the last name of a path, without an ending that is given. -/
def basename : Program := fun name arguments machine =>
  match (splitOptions arguments).2 with
  | [path] => leave 0 (machine.say (lastName path ++ "\n"))
  | [path, ending] =>
    let last := (lastName path).toList
    let kept := match Text.afterPrefix? ending.toList.reverse last.reverse with
      | some [] => last
      | some rest => rest.reverse
      | none => last
    leave 0 (machine.say (String.ofList kept ++ "\n"))
  | _ => leave 1 (machine.complain (name ++ ": missing operand"))

/-- A path without its last name. -/
def parent (path : String) : String :=
  let trimmed := (path.toList.reverse.dropWhile (· == '/'))
  let before := (trimmed.dropWhile (· != '/')).dropWhile (· == '/')
  if path != "" && trimmed.isEmpty then "/"
  else if !trimmed.contains '/' then "."
  else if before.isEmpty then "/"
  else String.ofList before.reverse

/-- Writes paths without their last names. -/
def dirname : Program := fun name arguments machine =>
  match (splitOptions arguments).2 with
  | [] => leave 1 (machine.complain (name ++ ": missing operand"))
  | paths => leave 0 (machine.say (String.join (paths.map fun path => parent path ++ "\n")))

/-- The names in a folder that are listed. -/
def listed (hidden : Bool) (entries : List (String × Files.Entry)) : List String :=
  (entries.map Prod.fst).filter fun name => hidden || !Text.startsWith name "."

/-- Lists the names in folders. -/
def ls : Program := fun name arguments machine =>
  let (options, paths) := splitOptions arguments
  let hidden := options.any fun option => Text.contains option "a" || Text.contains option "A"
  (if paths.isEmpty then ["."] else paths).foldl (fun (flow, current) path =>
    match (current.inside? path).map current.files.status with
    | some (.ok (.folder entries)) =>
      (flow, current.say (String.join ((listed hidden entries).map fun entry => entry ++ "\n")))
    | some (.ok _) => (flow, current.say (path ++ "\n"))
    | _ =>
      (.done 2, current.complain
        (name ++ ": cannot access \x27" ++ path ++ "\x27: No such file or directory")))
    (.done 0, machine)

/-- Writes the values of variables. -/
def printenv : Program := fun _ arguments machine =>
  match arguments with
  | [] => leave 0 (machine.say (String.join (machine.bindings.map fun (key, value) =>
      key ++ "=" ++ value ++ "\n")))
  | names => names.foldl (fun (flow, current) name =>
      match current.value? name with
      | some value => (flow, current.say (value ++ "\n"))
      | none => (.done 1, current)) (.done 0, machine)

/-! ## Programs that read -/

/-- Copies files or the input. -/
def cat : Program := fun name arguments machine =>
  let (contents, failed, after) := gather name (splitOptions arguments).2 machine
  leave (if failed then 1 else 0) (after.print (contents.flatMap Prod.snd))

/-- How much of its input a program keeps. -/
inductive Amount where
  | octets (count : Nat)
  | lines (count : Nat)
  deriving DecidableEq, Repr

/-- Reads how much to keep, and the arguments after it. -/
def amount? : List String → Option (Amount × List String)
  | "-c" :: count :: rest => (Text.count count).toOption.map fun n => (.octets n, rest)
  | "-n" :: count :: rest => (Text.count count).toOption.map fun n => (.lines n, rest)
  | argument :: rest =>
    match argument.toList with
    | '-' :: 'c' :: digits =>
      (Text.count (String.ofList digits)).toOption.map fun n => (.octets n, rest)
    | '-' :: 'n' :: digits =>
      (Text.count (String.ofList digits)).toOption.map fun n => (.lines n, rest)
    | '-' :: digit :: digits =>
      (Text.count (String.ofList (digit :: digits))).toOption.map fun n => (.lines n, rest)
    | _ => some (.lines 10, argument :: rest)
  | [] => some (.lines 10, [])

/-- The first so many lines, with their ends. -/
def firstLines : Nat → List UInt8 → List UInt8
  | 0, _ => []
  | _, [] => []
  | count + 1, octet :: rest =>
    octet :: firstLines (if octet = 10 then count else count + 1) rest

/-- Copies the beginning of files or of the input. -/
def head : Program := fun name arguments machine =>
  match amount? arguments with
  | none => leave 1 (machine.complain (name ++ ": invalid number"))
  | some (.octets count, []) =>
    leave 0 { machine.print (machine.input.take count) with input := machine.input.drop count }
  | some (amount, paths) =>
    let (contents, failed, after) := gather name paths machine
    let kept := contents.flatMap fun (_, octets) =>
      match amount with
      | .octets count => octets.take count
      | .lines count => firstLines count octets
    leave (if failed then 1 else 0) (after.print kept)

/-- Copies the end of files or of the input. -/
def tail : Program := fun name arguments machine =>
  match amount? arguments with
  | none => leave 1 (machine.complain (name ++ ": invalid number"))
  | some (amount, paths) =>
    let (contents, failed, after) := gather name paths machine
    let kept := contents.flatMap fun (_, octets) =>
      match amount with
      | .octets count => octets.drop (octets.length - count)
      | .lines count =>
        octets.drop (firstLines ((lines octets).length - count) octets).length
    leave (if failed then 1 else 0) (after.print kept)

/-- The lines that hold a pattern, or those that do not. -/
def selected (pattern : Pattern) (inverted : Bool) (content : List UInt8) : List (List UInt8) :=
  (lines content).filter fun line => pattern.occursIn (Text.decodeLossy line).toList != inverted

/-- Writes the lines of files or of the input that hold a pattern. -/
def grep : Program := fun name arguments machine =>
  let (options, others) := splitOptions arguments
  let letters := options.flatMap fun option => option.toList.drop 1
  match others with
  | [] => leave 2 (machine.complain ("Usage: " ++ name ++ " [OPTION]... PATTERNS [FILE]..."))
  | text :: paths =>
    let pattern := if letters.contains 'F' then Pattern.literal text else Pattern.parse text
    let (contents, failed, after) := gather name paths machine
    let found := contents.map fun (path, octets) =>
      (path, selected pattern (letters.contains 'v') octets)
    let label (path : String) : String := if paths.length ≤ 1 then "" else path ++ ":"
    let written := if letters.contains 'q' then []
      else if letters.contains 'c' then found.flatMap fun (path, kept) =>
        Text.octets (label path ++ Text.decimal kept.length ++ "\n")
      else found.flatMap fun (path, kept) =>
        kept.flatMap fun line => Text.octets (label path) ++ line ++ [10]
    let hit := found.any fun (_, kept) => !kept.isEmpty
    let status := if failed && !(hit && letters.contains 'q') then 2 else if hit then 0 else 1
    leave status (after.print written)

/-- Counts the octets or the lines of files or of the input. -/
def wc : Program := fun name arguments machine =>
  let (options, paths) := splitOptions arguments
  let letters := options.flatMap fun option => option.toList.drop 1
  let (contents, failed, after) := gather name paths machine
  let written := contents.map fun (path, octets) =>
    let count := if letters.contains 'l' then octets.count 10 else octets.length
    Text.decimal count ++ (if isInput path then "" else " " ++ path) ++ "\n"
  leave (if failed then 1 else 0) (after.say (String.join written))

/-- The characters that a set of them spells out, with ranges. -/
def charset : List Char → List Char
  | first :: '-' :: last :: rest =>
    (List.range (last.toNat + 1 - first.toNat)).map (fun k => Char.ofNat (first.toNat + k)) ++
      charset rest
  | c :: rest => c :: charset rest
  | [] => []

/-- Exchanges or deletes characters of the input. -/
def tr : Program := fun _ arguments machine =>
  let (octets, after) := machine.takeInput
  let chars := (Text.decodeLossy octets).toList
  match arguments with
  | ["-d", drop] =>
    let dropped := charset drop.toList
    leave 0 (after.say (String.ofList (chars.filter fun c => !dropped.contains c)))
  | [before, wanted] =>
    let table := charset before.toList
    let target := charset wanted.toList
    let exchange (c : Char) : Char := match table.idxOf? c with
      | some place => (target[place]?).getD (target.getLastD c)
      | none => c
    leave 0 (after.say (String.ofList (chars.map exchange)))
  | _ => leave 1 after

/-! ## All of them -/

/-- The programs by their names. -/
def all : List (String × Program) := [
  ("true", succeed), ("false", fail), ("sleep", sleep), ("test", test), ("[", bracket),
  ("echo", echo), ("printf", printf), ("pwd", pwd), ("basename", basename), ("dirname", dirname),
  ("ls", ls), ("printenv", printenv), ("env", printenv), ("cat", cat), ("head", head),
  ("tail", tail), ("grep", grep), ("wc", wc), ("tr", tr)]

/-- The program of a name. -/
def find? (name : String) : Option Program :=
  (all.find? fun entry => entry.1 == name).map Prod.snd

end ShapeAudit.Process.Utility
