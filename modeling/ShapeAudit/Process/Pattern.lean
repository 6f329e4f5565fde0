import ShapeAudit.Text

/-!
Patterns of characters: literal characters, a point for any character, brackets for a class, a star
for repetition, and anchors at both ends of a line.
-/

namespace ShapeAudit.Process

/-- What one place of a pattern takes. -/
inductive Atom where
  | literal (c : Char)
  | any
  /-- The characters between bounds, or all others. -/
  | class (excluded : Bool) (ranges : List (Char × Char))
  deriving DecidableEq, Repr

/-- Whether a character is taken. -/
def Atom.takes : Atom → Char → Bool
  | literal expected, c => c == expected
  | any, _ => true
  | .class excluded ranges, c =>
    (ranges.any fun range => decide (range.1 ≤ c) && decide (c ≤ range.2)) != excluded

/-- A piece of a pattern: an atom, perhaps repeated. -/
structure Item where
  atom : Atom
  repeated : Bool
  deriving DecidableEq, Repr

/-- A pattern for a part of a line. -/
structure Pattern where
  fromStart : Bool
  items : List Item
  toEnd : Bool
  deriving DecidableEq, Repr

namespace Pattern

/-- Reads the ranges of a class up to its bracket. -/
def ranges : List Char → List (Char × Char) → Option (List (Char × Char) × List Char)
  | [], _ => none
  | [_], _ => none
  | ']' :: rest, read => if read.isEmpty then none else some (read.reverse, rest)
  | first :: '-' :: last :: rest, read =>
    if last = ']' then some ((('-', '-') :: (first, first) :: read).reverse, rest)
    else ranges rest ((first, last) :: read)
  | c :: rest, read => ranges rest ((c, c) :: read)

/-- Reads one atom. -/
def atom? : List Char → Option (Atom × List Char)
  | [] => none
  | '.' :: rest => some (.any, rest)
  | '\\' :: c :: rest => some (.literal c, rest)
  | '[' :: '^' :: rest => (ranges rest []).map fun (read, after) => (.class true read, after)
  | '[' :: rest => (ranges rest []).map fun (read, after) => (.class false read, after)
  | c :: rest => some (.literal c, rest)

/-- Reads the items of a pattern; whether it is anchored at the end. -/
def readItems : Nat → List Char → List Item × Bool
  | 0, _ => ([], false)
  | _, ['$'] => ([], true)
  | fuel + 1, chars =>
    match atom? chars with
    | none => ([], false)
    | some (atom, '*' :: rest) =>
      let (others, anchored) := readItems fuel rest
      (⟨atom, true⟩ :: others, anchored)
    | some (atom, rest) =>
      let (others, anchored) := readItems fuel rest
      (⟨atom, false⟩ :: others, anchored)

/-- The pattern that a text is. -/
def parse (text : String) : Pattern :=
  match text.toList with
  | '^' :: rest =>
    let (read, anchored) := readItems (rest.length + 1) rest
    ⟨true, read, anchored⟩
  | chars =>
    let (read, anchored) := readItems (chars.length + 1) chars
    ⟨false, read, anchored⟩

/-- The pattern that takes a text literally. -/
def literal (text : String) : Pattern :=
  ⟨false, text.toList.map fun c => ⟨.literal c, false⟩, false⟩

/-- Matches items at the beginning of a line, as long a part as possible; how many characters are
taken. -/
def matchItems (toEnd : Bool) : List Item → List Char → Nat → Option Nat
  | [], chars, taken => if toEnd && !chars.isEmpty then none else some taken
  | item :: rest, chars, taken =>
    if item.repeated then
      let most := (chars.takeWhile item.atom.takes).length
      (List.range (most + 1)).reverse.findSome? fun count =>
        matchItems toEnd rest (chars.drop count) (taken + count)
    else match chars with
      | [] => none
      | c :: after => if item.atom.takes c then matchItems toEnd rest after (taken + 1) else none

/-- How many characters the pattern takes at the beginning of a text. -/
def matchHere (pattern : Pattern) (chars : List Char) : Option Nat :=
  matchItems pattern.toEnd pattern.items chars 0

/-- Whether a pattern occurs in a line. -/
def occursIn (pattern : Pattern) (line : List Char) : Bool :=
  if pattern.fromStart then (pattern.matchHere line).isSome
  else (List.range (line.length + 1)).any fun place => (pattern.matchHere (line.drop place)).isSome

end Pattern

end ShapeAudit.Process
