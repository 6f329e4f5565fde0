import ShapeAudit.Json.Number

/-!
JSON values. An object is a list of named members. `Json.object` is free to hold them in any order;
the values that are read from text or updated here hold them in increasing order of their names,
each name once.
-/

namespace ShapeAudit

/-- A JSON value. -/
inductive Json where
  | null
  | bool (value : Bool)
  | number (value : Json.Number)
  | text (value : String)
  | array (items : List Json)
  | object (members : List (String × Json))

namespace Json

instance : Inhabited Json := ⟨null⟩

/-! ## Equality -/

mutual

/-- Whether two values are the same, numbers compared by `Number.agree`. -/
def agree : Json → Json → Bool
  | null, null => true
  | bool a, bool b => a == b
  | number a, number b => a.agree b
  | text a, text b => a == b
  | array a, array b => agreeItems a b
  | object a, object b => agreeMembers a b
  | _, _ => false

/-- Whether two lists of values agree one by one. -/
def agreeItems : List Json → List Json → Bool
  | [], [] => true
  | a :: restA, b :: restB => agree a b && agreeItems restA restB
  | _, _ => false

/-- Whether two lists of members agree one by one. -/
def agreeMembers : List (String × Json) → List (String × Json) → Bool
  | [], [] => true
  | (nameA, a) :: restA, (nameB, b) :: restB =>
    nameA == nameB && agree a b && agreeMembers restA restB
  | _, _ => false

end

/-! ## Members -/

/-- The value of a name among members. -/
def find? (name : String) : List (String × Json) → Option Json
  | [] => none
  | (key, value) :: rest => if key = name then some value else find? name rest

/-- Puts a member at its place among members that are in order, over one of the same name. -/
def insert (name : String) (value : Json) : List (String × Json) → List (String × Json)
  | [] => [(name, value)]
  | (key, old) :: rest =>
    if key = name then (name, value) :: rest
    else if Text.lessThan name key then (name, value) :: (key, old) :: rest
    else (key, old) :: insert name value rest

/-- Members in order, a later one of the same name over an earlier one. -/
def ordered (members : List (String × Json)) : List (String × Json) :=
  members.foldl (fun kept member => insert member.1 member.2 kept) []

/-- The member of an object; nothing of any other value. -/
def get? (name : String) : Json → Option Json
  | object members => find? name members
  | _ => none

/-! ## Views -/

/-- The value of a boolean. -/
def asBool? : Json → Option Bool
  | bool value => some value
  | _ => none

/-- The value of a text. -/
def asText? : Json → Option String
  | text value => some value
  | _ => none

/-- The items of an array. -/
def asArray? : Json → Option (List Json)
  | array items => some items
  | _ => none

/-- The members of an object. -/
def asObject? : Json → Option (List (String × Json))
  | object members => some members
  | _ => none

/-- The value of a natural number of at most 64 bits. -/
def asNatural? : Json → Option Nat
  | number (.natural value) => some value
  | _ => none

/-- The value of an integer of at most 64 bits. -/
def asInteger? : Json → Option Int
  | number (.natural value) => some value
  | number (.negative magnitude) => some (-magnitude)
  | _ => none

/-- A natural number as a value. -/
def ofNat (value : Nat) : Json :=
  number (.natural value)

/-- An integer as a value. -/
def ofInt (value : Int) : Json :=
  if value < 0 then number (.negative value.natAbs) else number (.natural value.natAbs)

/-- Texts as an array. -/
def ofTexts (values : List String) : Json :=
  array (values.map text)

/-- A value or null. -/
def orNull : Option Json → Json
  | some value => value
  | none => null

end Json

end ShapeAudit
