import ShapeAudit.Json.Basic

/-!
The text of a JSON value, compact on one line or spread over lines with two spaces a level.
-/

namespace ShapeAudit.Json

/-! ## Quoted text -/

/-- A character inside quotes: the two that would end or bend the quotation and every control
character are escaped, by a letter where there is one. -/
def escapeChar (c : Char) : List Char :=
  let n := c.toNat
  if n = 0x22 then ['\\', '"']
  else if n = 0x5C then ['\\', '\\']
  else if n = 0x08 then ['\\', 'b']
  else if n = 0x09 then ['\\', 't']
  else if n = 0x0A then ['\\', 'n']
  else if n = 0x0C then ['\\', 'f']
  else if n = 0x0D then ['\\', 'r']
  else if n < 0x20 then ['\\', 'u', '0', '0', Text.hexDigit (n / 16), Text.hexDigit (n % 16)]
  else [c]

/-- A text between quotes. -/
def quote (value : String) : List Char :=
  '"' :: (value.toList.flatMap escapeChar ++ ['"'])

/-! ## Compact text -/

mutual

/-- The characters of a value on one line without blanks. -/
def compactChars : Json → List Char
  | null => ['n', 'u', 'l', 'l']
  | bool true => ['t', 'r', 'u', 'e']
  | bool false => ['f', 'a', 'l', 's', 'e']
  | number value => value.text.toList
  | text value => quote value
  | array items => '[' :: (compactItems true items ++ [']'])
  | object members => '{' :: (compactMembers true members ++ ['}'])

/-- The items of an array with commas between them. -/
def compactItems (first : Bool) : List Json → List Char
  | [] => []
  | item :: rest =>
    (if first then [] else [',']) ++ compactChars item ++ compactItems false rest

/-- The members of an object with commas between them. -/
def compactMembers (first : Bool) : List (String × Json) → List Char
  | [] => []
  | (name, value) :: rest =>
    (if first then [] else [',']) ++ quote name ++ ':' :: compactChars value ++
      compactMembers false rest

end

/-- The text of a value on one line without blanks. -/
def compact (value : Json) : String :=
  String.ofList (compactChars value)

/-! ## Spread text -/

/-- The line break before something at a depth. -/
def lineAt (depth : Nat) : List Char :=
  '\n' :: List.replicate (2 * depth) ' '

mutual

/-- The characters of a value spread over lines, itself standing at a depth. -/
def prettyChars (depth : Nat) : Json → List Char
  | null => ['n', 'u', 'l', 'l']
  | bool true => ['t', 'r', 'u', 'e']
  | bool false => ['f', 'a', 'l', 's', 'e']
  | number value => value.text.toList
  | text value => quote value
  | array [] => ['[', ']']
  | array (item :: rest) =>
    '[' :: (prettyItems (depth + 1) true (item :: rest) ++ lineAt depth ++ [']'])
  | object [] => ['{', '}']
  | object (member :: rest) =>
    '{' :: (prettyMembers (depth + 1) true (member :: rest) ++ lineAt depth ++ ['}'])

/-- The items of an array, each on its own line. -/
def prettyItems (depth : Nat) (first : Bool) : List Json → List Char
  | [] => []
  | item :: rest =>
    (if first then [] else [',']) ++ lineAt depth ++ prettyChars depth item ++
      prettyItems depth false rest

/-- The members of an object, each on its own line. -/
def prettyMembers (depth : Nat) (first : Bool) : List (String × Json) → List Char
  | [] => []
  | (name, value) :: rest =>
    (if first then [] else [',']) ++ lineAt depth ++ quote name ++ ':' :: ' ' ::
      prettyChars depth value ++ prettyMembers depth false rest

end

/-- The text of a value spread over lines. -/
def pretty (value : Json) : String :=
  String.ofList (prettyChars 0 value)

end ShapeAudit.Json
