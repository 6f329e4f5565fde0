import ShapeAudit.Text.Count

/-!
Reading the arguments of a command: options by a long name or a letter, flags, and operands. Every
option may be given once. Two dashes end the options.
-/

namespace ShapeAudit.CommandLine

/-- What a value may be. -/
inductive Form where
  /-- Any text. -/
  | text
  /-- A text that is not empty. -/
  | path
  /-- A natural number of 64 bits. -/
  | count
  /-- One of some words. -/
  | choice (words : List String)
  deriving DecidableEq, Repr

/-- Whether a text has a form. -/
def Form.accepts : Form → String → Bool
  | text, _ => true
  | path, value => value != ""
  | count, value => (Text.count value).toOption.isSome
  | choice words, value => words.contains value

/-- An option of a command. An option without a form is a flag. -/
structure Declaration where
  name : String
  letter : Option Char := none
  form : Option Form := none
  deriving DecidableEq, Repr

/-- What a command takes. -/
structure Usage where
  options : List Declaration
  /-- The form of the operands. -/
  operand : Form
  /-- How many operands there must be. -/
  least : Nat
  /-- How many operands there may be, if that is bounded. -/
  most : Option Nat
  /-- Whether the first operand is left with all that follows it. -/
  leading : Bool := false
  /-- Whether the version may be asked for. -/
  versioned : Bool := false

/-- Why arguments were not read to their end. -/
inductive Halt where
  /-- Help was asked for. -/
  | help
  /-- The version was asked for. -/
  | version
  /-- The arguments do not fit. -/
  | malformed
  deriving DecidableEq, Repr

/-- What was given so far. -/
structure Given where
  /-- The values of options by name; flags have an empty one. -/
  options : List (String × String) := []
  operands : List String := []
  deriving DecidableEq, Repr

namespace Given

/-- The value of an option. -/
def value? (given : Given) (name : String) : Option String :=
  (given.options.find? fun entry => entry.1 == name).map Prod.snd

/-- Whether a flag was given. -/
def has (given : Given) (name : String) : Bool :=
  (given.value? name).isSome

/-- The number that an option has as its value. -/
def number? (given : Given) (name : String) : Option Nat :=
  (given.value? name).bind fun value => (Text.count value).toOption

/-- Notes the value of an option, once and of the right form. -/
def note (given : Given) (option : Declaration) (value : String) : Except Halt Given :=
  if given.has option.name || !(option.form.getD .text).accepts value then .error .malformed
  else .ok { given with options := (option.name, value) :: given.options }

/-- Adds an operand, if there is room for it. -/
def addOperand (usage : Usage) (given : Given) (value : String) : Except Halt Given :=
  if usage.most.any (fun most => decide (most ≤ given.operands.length)) ||
      !usage.operand.accepts value then .error .malformed
  else .ok { given with operands := given.operands ++ [value] }

end Given

namespace Usage

/-- The option of a long name. -/
def byName? (usage : Usage) (name : String) : Option Declaration :=
  usage.options.find? fun option => option.name == name

/-- The option of a letter. -/
def byLetter? (usage : Usage) (letter : Char) : Option Declaration :=
  usage.options.find? fun option => option.letter == some letter

/-- Reads an option by its long name; an option that waits for its value comes with what was
given. -/
def readLong (usage : Usage) (given : Given) (name : String) (value : Option String) :
    Except Halt (Given × Option Declaration) :=
  match usage.byName? name with
  | some option =>
    match option.form, value with
    | none, none => (given.note option "").map fun after => (after, none)
    | none, some _ => .error .malformed
    | some _, some attached => (given.note option attached).map fun after => (after, none)
    | some _, none => if given.has option.name then .error .malformed else .ok (given, some option)
  | none =>
    if value.isSome then .error .malformed
    else if name == "help" then .error .help
    else if name == "version" && usage.versioned then .error .version
    else .error .malformed

/-- A value that stands right after a letter, without an equals sign before it. -/
def attached : List Char → String
  | '=' :: rest => String.ofList rest
  | chars => String.ofList chars

/-- Reads options by their letters. -/
def readLetters (usage : Usage) : List Char → Given → Except Halt (Given × Option Declaration)
  | [], given => .ok (given, none)
  | letter :: rest, given =>
    match usage.byLetter? letter with
    | some option =>
      if option.form.isSome then
        if rest.isEmpty then
          if given.has option.name then .error .malformed else .ok (given, some option)
        else (given.note option (attached rest)).map fun after => (after, none)
      else do
        let after ← given.note option ""
        usage.readLetters rest after
    | none =>
      if letter == 'h' then .error .help
      else if letter == 'V' && usage.versioned then .error .version
      else .error .malformed

/-- A text after two dashes: a name, and a value after an equals sign. -/
def splitLong (chars : List Char) : String × Option String :=
  match Text.splitOnce? '=' (String.ofList chars) with
  | some (name, value) => (name, some value)
  | none => (String.ofList chars, none)

/-- Reads arguments; an option may wait for its value. What is left comes with what was given. -/
def readFrom (usage : Usage) : Option Declaration → List String → Given →
    Except Halt (Given × List String)
  | some _, [], _ => .error .malformed
  | none, [], given => .ok (given, [])
  | waiting, argument :: rest, given =>
    match argument.toList, waiting with
    | ['-', '-'], some _ => .error .malformed
    | ['-', '-'], none => do
      let after ← rest.foldlM (Given.addOperand usage) given
      .ok (after, [])
    | '-' :: '-' :: chars, none => do
      let (name, value) := splitLong chars
      let (after, pending) ← usage.readLong given name value
      usage.readFrom pending rest after
    | '-' :: letter :: chars, none => do
      let (after, pending) ← usage.readLetters (letter :: chars) given
      usage.readFrom pending rest after
    | '-' :: _ :: _, some _ => .error .malformed
    | _, some option => do
      let after ← given.note option argument
      usage.readFrom none rest after
    | _, none =>
      if usage.leading then .ok (given, argument :: rest)
      else do
        let after ← given.addOperand usage argument
        usage.readFrom none rest after

/-- Reads all arguments of a command. -/
def read (usage : Usage) (arguments : List String) : Except Halt (Given × List String) := do
  let (given, left) ← usage.readFrom none arguments {}
  if given.operands.length < usage.least then .error .malformed else .ok (given, left)

end Usage

end ShapeAudit.CommandLine
