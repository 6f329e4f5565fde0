import ShapeAudit.Json.Decode

/-!
The result of a search for flags: single names, or sets of names. Sets of names are lists in
increasing order without repetition.
-/

namespace ShapeAudit.Search

/-- How to search: one flag at a time, or every assignment of all flags. -/
inductive Strategy where
  | linear
  | powerSet
  deriving DecidableEq, Repr

namespace Strategy

/-- The name of a strategy. -/
def name : Strategy → String
  | linear => "linear"
  | powerSet => "power_set"

/-- The strategy that a JSON value names. -/
def ofJson (value : Json) : Except Json.Mismatch Strategy :=
  Json.decodeAlternative ([linear, powerSet].map fun strategy => (strategy.name, strategy)) value

end Strategy

/-! ## Sets of names -/

/-- Puts a name into a set of names. -/
def insertName (name : String) : List String → List String
  | [] => [name]
  | key :: rest =>
    if key = name then key :: rest
    else if Text.lessThan name key then name :: key :: rest
    else key :: insertName name rest

/-- The set of some names. -/
def nameSet (names : List String) : List String :=
  names.foldl (fun kept name => insertName name kept) []

/-! ## Results -/

/-- The flags that were found to change the output. -/
inductive Triggered where
  /-- Flags that do so one at a time. -/
  | linear (names : List String)
  /-- Sets of flags that do so together. -/
  | powerSet (sets : List (List String))
  deriving DecidableEq, Repr

namespace Triggered

/-- The result of a strategy that found nothing. -/
def empty : Strategy → Triggered
  | .linear => linear []
  | .powerSet => powerSet []

/-- The strategy whose results have this form. -/
def strategy : Triggered → Strategy
  | linear _ => .linear
  | powerSet _ => .powerSet

/-- How many flags or sets were found. -/
def size : Triggered → Nat
  | linear names => names.length
  | powerSet sets => sets.length

/-- Whether nothing was found. -/
def isEmpty (result : Triggered) : Bool :=
  result.size == 0

/-- All names that occur in a result. -/
def flags : Triggered → List String
  | linear names => nameSet names
  | powerSet sets => nameSet sets.flatten

/-- A result as a JSON value. -/
def toJson : Triggered → Json
  | linear names => Json.ofTexts names
  | powerSet sets => .array (sets.map Json.ofTexts)

/-- The texts of an array of texts. -/
def texts? (value : Json) : Option (List String) :=
  value.asArray?.bind fun items => items.mapM Json.asText?

/-- The result that a JSON value holds: an array of texts, or else an array of arrays of texts. -/
def ofJson (value : Json) : Except Json.Mismatch Triggered :=
  match texts? value with
  | some names => .ok (linear names)
  | none =>
    match value.asArray?.bind fun items => items.mapM texts? with
    | some sets => .ok (powerSet (sets.map nameSet))
    | none => .error (.noForm "TriggeredOptions")

end Triggered

end ShapeAudit.Search
