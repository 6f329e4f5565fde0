import ShapeAudit.Files.Storage
import ShapeAudit.Json.Order
import ShapeAudit.Json.Pointer
import ShapeAudit.Json.Reader

/-!
A transformer's configuration: a JSON value together with a pointer to the object that holds its
boolean flags. Flags are listed, looked up and overridden; overriding makes a new value.
-/

namespace ShapeAudit.Config

/-! ## Faults -/

/-- Why there is no configuration. -/
inductive Fault where
  /-- The file could not be read. -/
  | unreadable (path : String) (fault : Files.Fault)
  /-- The file does not hold JSON. -/
  | malformed (path : String) (error : Json.ReadError)
  /-- The text that should point to the flags is no pointer. -/
  | invalidPointer (text : String)
  deriving DecidableEq, Repr

/-- The wording of a fault. -/
def Fault.message : Fault → String
  | unreadable path fault => "failed to read config " ++ path ++ ": " ++ fault.message
  | malformed path error => "failed to parse config " ++ path ++ ": " ++ error.message
  | invalidPointer text =>
    "invalid flags pointer \x60" ++ text ++ "\x60: must be empty or start with '/'"

/-! ## Records -/

/-- A flag and its value. -/
abbrev Flag := String × Bool

/-- A configuration and the place of its flags. -/
structure Record where
  value : Json
  pointer : Json.Pointer
  /-- Objects hold their members in increasing order of their names. -/
  ordered : value.Ordered

namespace Record

/-- The record of a value, arranged, and the text of a pointer. -/
def make (value : Json) (pointer : String) : Except Fault Record :=
  match Json.Pointer.ofText? pointer with
  | some place => .ok ⟨value.arrange, place, value.ordered_arrange⟩
  | none => .error (.invalidPointer pointer)

/-- Reads a record from a file. -/
def load (files : Files.Storage) (path pointer : String) : Except Fault Record :=
  match files.readText path with
  | .error fault => .error (.unreadable path fault)
  | .ok text =>
    match Json.read text with
    | .error error => .error (.malformed path error)
    | .ok value => make value pointer

/-- What stands at the place of the flags. -/
def holder? (record : Record) : Option Json :=
  record.value.follow? record.pointer.keys

/-- A member that is a flag. -/
def asFlag? (entry : String × Json) : Option Flag :=
  entry.2.asBool?.map fun value => (entry.1, value)

/-- The boolean members at the place of the flags, in order of their names. -/
def flags (record : Record) : List Flag :=
  ((record.holder?.bind Json.asObject?).getD []).filterMap asFlag?

/-- The value of one flag. -/
def flag? (record : Record) (name : String) : Option Bool :=
  (record.holder?.bind (Json.get? name)).bind Json.asBool?

/-- Members with flags put among them, a later one over an earlier one of the same name. -/
def override (overrides : List Flag) (members : List (String × Json)) : List (String × Json) :=
  overrides.foldl (fun kept flag => Json.insert flag.1 (.bool flag.2) kept) members

/-- The configuration with some flags overridden. It stays as it is if there are none, or if the
place of the flags cannot hold them. -/
def withFlags (record : Record) (overrides : List Flag) : Json :=
  if overrides.isEmpty then record.value
  else (record.value.update? (override overrides) record.pointer.keys).getD record.value

/-- The configuration with one flag overridden. -/
def withFlag (record : Record) (name : String) (value : Bool) : Json :=
  record.withFlags [(name, value)]

end Record

end ShapeAudit.Config
