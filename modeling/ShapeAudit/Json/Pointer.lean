import ShapeAudit.Json.Basic

/-!
Pointers into JSON values. A pointer is empty or begins with a slash; the texts between slashes are
keys, in which `~1` stands for a slash and `~0` for a tilde. Reading follows keys into objects and
indices into arrays. Updating goes through objects only, and makes the ones that are missing.
-/

namespace ShapeAudit.Json

/-! ## Pointers -/

/-- Whether a text is a pointer: it is empty or begins with a slash. -/
def isRooted (text : String) : Bool :=
  text.toList.isEmpty || text.toList.head? == some '/'

/-- A place inside a JSON value. -/
structure Pointer where
  /-- The pointer as written. -/
  text : String
  /-- What makes a text a pointer. -/
  rooted : isRooted text = true

namespace Pointer

/-- The pointer that a text is, if it is one. -/
def ofText? (text : String) : Option Pointer :=
  if rooted : isRooted text = true then some ⟨text, rooted⟩ else none

/-- The key that is written as a token. -/
def unescape (token : String) : String :=
  Text.replace (Text.replace token "~1" "/") "~0" "~"

/-- The keys of a pointer, outermost first. -/
def keys (pointer : Pointer) : List String :=
  ((Text.splitAt '/' pointer.text).drop 1).map unescape

end Pointer

/-! ## Reading -/

/-- The number that a list of digits stands for. -/
def digitsValue (digits : List Char) : Nat :=
  digits.foldl (fun value digit => value * 10 + (digit.toNat - 48)) 0

/-- The index that a key names: digits without a leading zero, or zero itself. -/
def index? (key : String) : Option Nat :=
  match key.toList with
  | [] => none
  | first :: rest =>
    if (first :: rest).all Text.isAsciiDigit && (first != '0' || rest.isEmpty) then
      some (digitsValue (first :: rest))
    else none

/-- The value at the end of a path of keys. -/
def follow? : List String → Json → Option Json
  | [], value => some value
  | key :: rest, object members => (find? key members).bind (follow? rest)
  | key :: rest, array items =>
    ((index? key).bind fun place => items[place]?).bind (follow? rest)
  | _ :: _, _ => none

/-! ## Updating -/

/-- Changes the members of the object at the end of a path of keys. Objects that are missing on the
way are made; nothing comes of it if a value on the way, or at the end, is no object. -/
def update? (change : List (String × Json) → List (String × Json)) :
    List String → Json → Option Json
  | [], object members => some (object (change members))
  | key :: rest, object members =>
    (update? change rest ((find? key members).getD (object []))).map fun value =>
      object (insert key value members)
  | _, _ => none

end ShapeAudit.Json
