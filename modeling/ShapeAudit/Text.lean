/-!
Text as the audit sees it: which characters are blank, trimming, the width of a character in
bytes, replacing one piece of text by another, and reading text out of raw octets.
-/

namespace ShapeAudit.Text

/-! ## Blank characters -/

/-- The characters of the Unicode property `White_Space`. -/
def isBlank (c : Char) : Bool :=
  let n := c.toNat
  (9 ≤ n && n ≤ 13) || n == 0x20 || n == 0x85 || n == 0xA0 || n == 0x1680 ||
    (0x2000 ≤ n && n ≤ 0x200A) || n == 0x2028 || n == 0x2029 || n == 0x202F ||
    n == 0x205F || n == 0x3000

/-- Drops the blank characters at the end of a list. -/
def dropBlankEnd (chars : List Char) : List Char :=
  (chars.reverse.dropWhile isBlank).reverse

/-- Drops the blank characters at both ends of a list. -/
def trimChars (chars : List Char) : List Char :=
  dropBlankEnd (chars.dropWhile isBlank)

/-- Drops the blank characters at both ends of a text. -/
def trim (text : String) : String :=
  String.ofList (trimChars text.toList)

/-! ## Pieces of text -/

/-- Whether the first list stands at the beginning of the second; the rest if it does. -/
def afterPrefix? : List Char → List Char → Option (List Char)
  | [], rest => some rest
  | _ :: _, [] => none
  | c :: piece, d :: rest => if c = d then afterPrefix? piece rest else none

/-- Whether a text begins with a piece. -/
def startsWith (text piece : String) : Bool :=
  (afterPrefix? piece.toList text.toList).isSome

/-- Whether a piece occurs somewhere in a list of characters. -/
def occursIn (piece : List Char) : List Char → Bool
  | [] => piece.isEmpty
  | c :: rest => (afterPrefix? piece (c :: rest)).isSome || occursIn piece rest

/-- Whether a text contains a piece. -/
def contains (text piece : String) : Bool :=
  occursIn piece.toList text.toList

/-- Replaces every occurrence of a non-empty piece, left to right and without overlap. The number
counts the characters of the current occurrence that are still to be skipped. -/
def replaceFrom (piece replacement : List Char) : Nat → List Char → List Char
  | _, [] => []
  | pending + 1, _ :: rest => replaceFrom piece replacement pending rest
  | 0, c :: rest =>
    if (afterPrefix? piece (c :: rest)).isSome then
      replacement ++ replaceFrom piece replacement (piece.length - 1) rest
    else
      c :: replaceFrom piece replacement 0 rest

/-- Replaces every occurrence of a piece; the empty piece occurs around every character. -/
def replaceChars (piece replacement text : List Char) : List Char :=
  if piece.isEmpty then
    replacement ++ text.flatMap fun c => c :: replacement
  else
    replaceFrom piece replacement 0 text

/-- Replaces every occurrence of a piece of text by another. -/
def replace (text piece replacement : String) : String :=
  String.ofList (replaceChars piece.toList replacement.toList text.toList)

/-- Splits a list of characters at every occurrence of a separator; never empty. -/
def splitChars (separator : Char) : List Char → List (List Char)
  | [] => [[]]
  | c :: rest =>
    if c = separator then [] :: splitChars separator rest
    else match splitChars separator rest with
      | [] => [[c]]
      | first :: others => (c :: first) :: others

/-- Splits a text at every occurrence of a separator. -/
def splitAt (separator : Char) (text : String) : List String :=
  (splitChars separator text.toList).map String.ofList

/-- The part of a text before the first occurrence of a separator and the part after it. -/
def splitOnce? (separator : Char) (text : String) : Option (String × String) :=
  let before := text.toList.takeWhile (· ≠ separator)
  match text.toList.dropWhile (· ≠ separator) with
  | [] => none
  | _ :: after => some (String.ofList before, String.ofList after)

/-- Texts joined with a separator between neighbours. -/
def join (separator : String) : List String → String
  | [] => ""
  | [only] => only
  | first :: rest => first ++ separator ++ join separator rest

/-! ## Case and digits of ASCII -/

/-- A letter from `a` to `z`, of either case. -/
def isAsciiLetter (c : Char) : Bool :=
  ('a' ≤ c && c ≤ 'z') || ('A' ≤ c && c ≤ 'Z')

/-- A digit from `0` to `9`. -/
def isAsciiDigit (c : Char) : Bool :=
  '0' ≤ c && c ≤ '9'

/-- A hexadecimal digit of either case. -/
def isHexDigit (c : Char) : Bool :=
  isAsciiDigit c || ('a' ≤ c && c ≤ 'f') || ('A' ≤ c && c ≤ 'F')

/-- The value of a hexadecimal digit. -/
def hexValue? (c : Char) : Option Nat :=
  if isAsciiDigit c then some (c.toNat - 48)
  else if 'a' ≤ c && c ≤ 'f' then some (c.toNat - 87)
  else if 'A' ≤ c && c ≤ 'F' then some (c.toNat - 55)
  else none

/-- The small hexadecimal digit of a number below sixteen. -/
def hexDigit (n : Nat) : Char :=
  if n < 10 then Char.ofNat (48 + n) else Char.ofNat (87 + n)

/-- The small letter of a capital ASCII letter; every other character unchanged. -/
def lowerAscii (c : Char) : Char :=
  if 'A' ≤ c && c ≤ 'Z' then Char.ofNat (c.toNat + 32) else c

/-- A text with its capital ASCII letters made small. -/
def toLowerAscii (text : String) : String :=
  String.ofList (text.toList.map lowerAscii)

/-- The decimal digits of a number, most significant first. -/
def decimal (n : Nat) : String :=
  String.ofList (Nat.toDigits 10 n)

/-! ## Octets -/

/-- How many octets a character takes in UTF-8. -/
def width (c : Char) : Nat :=
  let n := c.toNat
  if n < 0x80 then 1 else if n < 0x800 then 2 else if n < 0x10000 then 3 else 4

/-- The octets of a character in UTF-8. -/
def octetsOf (c : Char) : List UInt8 :=
  let n := c.toNat
  if n < 0x80 then [n.toUInt8]
  else if n < 0x800 then [(0xC0 + n / 64).toUInt8, (0x80 + n % 64).toUInt8]
  else if n < 0x10000 then
    [(0xE0 + n / 4096).toUInt8, (0x80 + n / 64 % 64).toUInt8, (0x80 + n % 64).toUInt8]
  else
    [(0xF0 + n / 262144).toUInt8, (0x80 + n / 4096 % 64).toUInt8, (0x80 + n / 64 % 64).toUInt8,
      (0x80 + n % 64).toUInt8]

/-- The octets of a text in UTF-8. -/
def octets (text : String) : List UInt8 :=
  text.toList.flatMap octetsOf

/-- How many octets a text takes in UTF-8. -/
def octetCount (text : String) : Nat :=
  text.toList.foldl (fun total c => total + width c) 0

/-- The greatest lower bound and least upper bound of the octet after a lead octet, and how many
continuation octets the lead asks for. -/
def leadBounds? (lead : Nat) : Option (Nat × Nat × Nat) :=
  if 0xC2 ≤ lead ∧ lead ≤ 0xDF then some (0x80, 0xBF, 1)
  else if lead = 0xE0 then some (0xA0, 0xBF, 2)
  else if lead = 0xED then some (0x80, 0x9F, 2)
  else if 0xE1 ≤ lead ∧ lead ≤ 0xEF then some (0x80, 0xBF, 2)
  else if lead = 0xF0 then some (0x90, 0xBF, 3)
  else if lead = 0xF4 then some (0x80, 0x8F, 3)
  else if 0xF1 ≤ lead ∧ lead ≤ 0xF3 then some (0x80, 0xBF, 3)
  else none

/-- What is left to read of a character that has begun: the bounds of the next octet, how many
octets are still owed, and the value so far. -/
structure Pending where
  low : Nat
  high : Nat
  owed : Nat
  value : Nat

/-- Decodes octets. An octet that no character can contain at its place becomes `none`: once for
every maximal beginning of a character that breaks off, and once for every octet that begins none. -/
def decodeFrom : Option Pending → List UInt8 → List (Option Char)
  | none, [] => []
  | some _, [] => [none]
  | none, octet :: rest =>
    let n := octet.toNat
    if n < 0x80 then some (Char.ofNat n) :: decodeFrom none rest
    else match leadBounds? n with
      | none => none :: decodeFrom none rest
      | some (low, high, owed) =>
        let value := if owed = 1 then n % 32 else if owed = 2 then n % 16 else n % 8
        decodeFrom (some ⟨low, high, owed, value⟩) rest
  | some pending, octet :: rest =>
    let n := octet.toNat
    if pending.low ≤ n ∧ n ≤ pending.high then
      let value := pending.value * 64 + n % 64
      if pending.owed ≤ 1 then some (Char.ofNat value) :: decodeFrom none rest
      else decodeFrom (some ⟨0x80, 0xBF, pending.owed - 1, value⟩) rest
    else if n < 0x80 then none :: some (Char.ofNat n) :: decodeFrom none rest
    else match leadBounds? n with
      | none => none :: none :: decodeFrom none rest
      | some (low, high, owed) =>
        let value := if owed = 1 then n % 32 else if owed = 2 then n % 16 else n % 8
        none :: decodeFrom (some ⟨low, high, owed, value⟩) rest

/-- Reads octets as UTF-8, with U+FFFD in place of whatever is not. -/
def decodeLossy (bytes : List UInt8) : String :=
  String.ofList ((decodeFrom none bytes).map fun c => c.getD (Char.ofNat 0xFFFD))

/-- Reads octets as UTF-8, if they are. -/
def decode? (bytes : List UInt8) : Option String :=
  ((decodeFrom none bytes).mapM id).map String.ofList

/-! ## Order by octets -/

/-- Orders texts by their code points, which is also the order of their octets. -/
def lessThan (left right : String) : Bool :=
  decide (left.toList.map Char.toNat < right.toList.map Char.toNat)

end ShapeAudit.Text
