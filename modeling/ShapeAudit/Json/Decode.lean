import ShapeAudit.Json.Reader

/-!
Reading values of the domain out of JSON: names of alternatives, records of named members, and lists
of texts. A value of the wrong form is described in the message.
-/

namespace ShapeAudit.Json

/-! ## Descriptions -/

/-- Whether a character is written as a number when a text is described: it cannot be seen, or it
joins the character before it. -/
def isUnseen (c : Char) : Bool :=
  let n := c.toNat
  n < 0x20 || (0x7F ≤ n && n ≤ 0xA0) || n == 0xAD || (0x300 ≤ n && n ≤ 0x36F) ||
    (0x483 ≤ n && n ≤ 0x489) || (0x591 ≤ n && n ≤ 0x5BD) || (0x600 ≤ n && n ≤ 0x605) ||
    (0x610 ≤ n && n ≤ 0x61A) || n == 0x61C || (0x64B ≤ n && n ≤ 0x65F) || n == 0x6DD ||
    n == 0x70F || n == 0x1680 || n == 0x180E || (0x1AB0 ≤ n && n ≤ 0x1AFF) ||
    (0x1DC0 ≤ n && n ≤ 0x1DFF) || (0x2000 ≤ n && n ≤ 0x200F) || (0x2028 ≤ n && n ≤ 0x202F) ||
    (0x205F ≤ n && n ≤ 0x206F) || (0x20D0 ≤ n && n ≤ 0x20F0) || n == 0x3000 ||
    (0xE000 ≤ n && n ≤ 0xF8FF) || (0xFE00 ≤ n && n ≤ 0xFE0F) || (0xFE20 ≤ n && n ≤ 0xFE2F) ||
    n == 0xFEFF || (0xFFF0 ≤ n && n ≤ 0xFFFB) || n == 0xFFFE || n == 0xFFFF || 0xE0000 ≤ n

/-- A character of a text that is described. -/
def describeChar (c : Char) : List Char :=
  if c = '"' then ['\\', '"']
  else if c = '\\' then ['\\', '\\']
  else if c = '\n' then ['\\', 'n']
  else if c = '\r' then ['\\', 'r']
  else if c = '\t' then ['\\', 't']
  else if c.toNat = 0 then ['\\', '0']
  else if isUnseen c then ['\\', 'u', '{'] ++ Nat.toDigits 16 c.toNat ++ ['}']
  else [c]

/-- What a value is, in words. -/
def describe : Json → String
  | null => "null"
  | bool value => "boolean \x60" ++ (if value then "true" else "false") ++ "\x60"
  | number (.double value) => "floating point \x60" ++ (Number.double value).text ++ "\x60"
  | number value => "integer \x60" ++ value.text ++ "\x60"
  | text value => "string \"" ++ String.ofList (value.toList.flatMap describeChar) ++ "\""
  | array _ => "sequence"
  | object _ => "map"

/-! ## Mismatches -/

/-- How a value can fail to have the form that is asked for. -/
inductive Mismatch where
  /-- The value is of the wrong kind. -/
  | type (found expected : String)
  /-- The value is of the right kind and still not what is asked for. -/
  | value (found expected : String)
  /-- A name is none of the alternatives. -/
  | unknownName (name : String) (known : List String)
  /-- A member of a record is missing. -/
  | missing (name : String)
  /-- A list has the wrong length. -/
  | length (count : Nat) (expected : String)
  /-- None of several forms fits. -/
  | noForm (typeName : String)
  deriving DecidableEq, Repr

namespace Mismatch

/-- A name between backticks. -/
def ticked (name : String) : String :=
  "\x60" ++ name ++ "\x60"

/-- The alternatives that a name could have been. -/
def alternatives (known : List String) : String :=
  match known with
  | [] => "there are no variants"
  | [only] => "expected " ++ ticked only
  | [first, second] => "expected " ++ ticked first ++ " or " ++ ticked second
  | several => "expected one of " ++ Text.join ", " (several.map ticked)

/-- The wording of a mismatch. -/
def message : Mismatch → String
  | type found expected => "invalid type: " ++ found ++ ", expected " ++ expected
  | value found expected => "invalid value: " ++ found ++ ", expected " ++ expected
  | unknownName name known => "unknown variant " ++ ticked name ++ ", " ++ alternatives known
  | missing name => "missing field " ++ ticked name
  | length count expected =>
    "invalid length " ++ Text.decimal count ++ ", expected " ++ expected
  | noForm typeName => "data did not match any variant of untagged enum " ++ typeName

end Mismatch

/-! ## Forms -/

/-- A text. -/
def decodeText : Json → Except Mismatch String
  | text value => .ok value
  | other => .error (.type other.describe "a string")

/-- The alternative of a name. -/
def alternative {α : Type} (known : List (String × α)) (name : String) : Except Mismatch α :=
  match known.find? fun entry => entry.1 == name with
  | some entry => .ok entry.2
  | none => .error (.unknownName name (known.map Prod.fst))

/-- One of several named alternatives: its name, or an object that maps its name to null. -/
def decodeAlternative {α : Type} (known : List (String × α)) : Json → Except Mismatch α
  | text name => alternative known name
  | object [(name, value)] => do
    let found ← alternative known name
    match value with
    | null => .ok found
    | other => .error (.type other.describe "unit")
  | object _ => .error (.value "map" "map with a single key")
  | other => .error (.type other.describe "string or map")

/-- Reads the member of a name if a list of members has it, and remembers it once read. -/
def decodeMember {α : Type} (name : String) (decode : Json → Except Mismatch α)
    (members : List (String × Json)) : Except Mismatch (Option α) :=
  match find? name members with
  | some value => (decode value).map some
  | none => .ok none

/-- A record of two members, given their names and forms: an object that has both, in which other
members are ignored, or an array of the two values. The members are looked at in order of their
names. -/
def decodePair {α β : Type} (typeName firstName secondName : String)
    (decodeFirst : Json → Except Mismatch α) (decodeSecond : Json → Except Mismatch β) :
    Json → Except Mismatch (α × β)
  | object members => do
    let first ← decodeMember firstName decodeFirst members
    let second ← decodeMember secondName decodeSecond members
    match first, second with
    | some a, some b => .ok (a, b)
    | none, _ => .error (.missing firstName)
    | some _, none => .error (.missing secondName)
  | array [] => .error (.length 0 ("struct " ++ typeName ++ " with 2 elements"))
  | array [first] => do
    let _ ← decodeFirst first
    .error (.length 1 ("struct " ++ typeName ++ " with 2 elements"))
  | array (first :: second :: others) => do
    let a ← decodeFirst first
    let b ← decodeSecond second
    if others.isEmpty then .ok (a, b)
    else .error (.length (others.length + 2) "fewer elements in array")
  | other => .error (.type other.describe ("struct " ++ typeName))

/-! ## Lists of texts -/

/-- Refuses the value that stands next, which is not of the kind that is asked for. An array or an
object is refused where it begins, any other value where it ends. -/
def refuse {α : Type} (expected : String) (r : Reading) : Except ReadError α :=
  match r.rest with
  | '[' :: _ => r.failHere (.wrongType "sequence" expected)
  | '{' :: _ => r.failHere (.wrongType "map" expected)
  | _ => do
    let (value, after) ← readValue 2 r
    after.failHere (.wrongType value.describe expected)

/-- Reads a text that stands next. -/
def readTextItem (r : Reading) : Except ReadError (String × Reading) :=
  let here := r.skip
  match here.rest with
  | '"' :: rest => readText (here.past '"' rest)
  | _ => refuse "a string" here

/-- Reads a text as an array of texts. -/
def readTexts (source : String) : Except ReadError (List String) :=
  let here := (Reading.start source).skip
  match here.rest with
  | '[' :: rest => do
    let (items, end_) ← readItems readTextItem (rest.length + 1) true [] (here.past '[' rest)
    finish items end_
  | _ => refuse "a sequence" here

end ShapeAudit.Json
