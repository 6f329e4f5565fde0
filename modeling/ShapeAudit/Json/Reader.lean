import ShapeAudit.Json.Basic

/-!
Reading JSON text. A failure says what was wrong and where: the line, counted from one, and how many
octets of the line had been looked at.
-/

namespace ShapeAudit.Json

/-! ## Failures -/

/-- What can be wrong with a JSON text. -/
inductive Fault where
  | endInList
  | endInObject
  | endInText
  | endInValue
  | expectedColon
  | expectedListCommaOrEnd
  | expectedObjectCommaOrEnd
  | expectedIdent
  | expectedValue
  | invalidEscape
  | invalidNumber
  | numberOutOfRange
  | controlCharacter
  | keyNotText
  | loneSurrogate
  | trailingComma
  | trailingCharacters
  | endOfHexEscape
  | tooDeep
  | wrongType (found expected : String)
  deriving DecidableEq, Repr

/-- The wording of a fault. -/
def Fault.message : Fault → String
  | endInList => "EOF while parsing a list"
  | endInObject => "EOF while parsing an object"
  | endInText => "EOF while parsing a string"
  | endInValue => "EOF while parsing a value"
  | expectedColon => "expected `:`"
  | expectedListCommaOrEnd => "expected `,` or `]`"
  | expectedObjectCommaOrEnd => "expected `,` or `\x7d`"
  | expectedIdent => "expected ident"
  | expectedValue => "expected value"
  | invalidEscape => "invalid escape"
  | invalidNumber => "invalid number"
  | numberOutOfRange => "number out of range"
  | controlCharacter => "control character (\\u0000-\\u001F) found while parsing a string"
  | keyNotText => "key must be a string"
  | loneSurrogate => "lone leading surrogate in hex escape"
  | trailingComma => "trailing comma"
  | trailingCharacters => "trailing characters"
  | endOfHexEscape => "unexpected end of hex escape"
  | tooDeep => "recursion limit exceeded"
  | wrongType found expected => "invalid type: " ++ found ++ ", expected " ++ expected

/-- A fault and its place. -/
structure ReadError where
  fault : Fault
  line : Nat
  column : Nat
  deriving DecidableEq, Repr

/-- The wording of a failure, with its place. -/
def ReadError.message (e : ReadError) : String :=
  e.fault.message ++ " at line " ++ Text.decimal e.line ++ " column " ++ Text.decimal e.column

/-! ## The reading position -/

/-- What is left of the text, and how much of it has been read. -/
structure Reading where
  rest : List Char
  line : Nat
  column : Nat

namespace Reading

/-- The beginning of a text. -/
def start (text : String) : Reading :=
  ⟨text.toList, 1, 0⟩

/-- Past one character. -/
def past (r : Reading) (c : Char) (rest : List Char) : Reading :=
  if c = '\n' then ⟨rest, r.line + 1, 0⟩ else ⟨rest, r.line, r.column + Text.width c⟩

/-- A failure at what has been read so far. -/
def failHere {α : Type} (r : Reading) (fault : Fault) : Except ReadError α :=
  .error ⟨fault, r.line, r.column⟩

/-- A failure at the next octet. -/
def failNext {α : Type} (r : Reading) (fault : Fault) : Except ReadError α :=
  match r.rest with
  | [] => r.failHere fault
  | c :: _ =>
    if c = '\n' then .error ⟨fault, r.line + 1, 0⟩ else .error ⟨fault, r.line, r.column + 1⟩

/-- The four characters that may stand between tokens. -/
def isGap (c : Char) : Bool :=
  c == ' ' || c == '\n' || c == '\t' || c == '\r'

/-- Skips what stands between tokens. -/
def skipFrom (r : Reading) : List Char → Reading
  | [] => { r with rest := [] }
  | c :: rest => if isGap c then skipFrom (r.past c rest) rest else { r with rest := c :: rest }

/-- Skips what stands between tokens. -/
def skip (r : Reading) : Reading :=
  r.skipFrom r.rest

end Reading

open Reading

/-! ## Texts -/

/-- Reads four hexadecimal digits. -/
def readHex (r : Reading) : Except ReadError (Nat × Reading) :=
  match r.rest with
  | a :: b :: c :: d :: rest =>
    let after := (((r.past a (b :: c :: d :: rest)).past b (c :: d :: rest)).past c (d :: rest)).past
      d rest
    match Text.hexValue? a, Text.hexValue? b, Text.hexValue? c, Text.hexValue? d with
    | some p, some q, some s, some t => .ok (((p * 16 + q) * 16 + s) * 16 + t, after)
    | _, _, _, _ => after.failHere .invalidEscape
  | chars => (chars.foldl (fun at_ c => at_.past c []) r).failHere .endInText

/-- Reads the second half of a pair of surrogates. -/
def readLowSurrogate (high : Nat) (r : Reading) : Except ReadError (Char × Reading) :=
  match r.rest with
  | [] => r.failHere .endInText
  | c :: rest =>
    let first := r.past c rest
    if c ≠ '\\' then first.failHere .endOfHexEscape
    else match rest with
      | [] => first.failHere .endInText
      | d :: others =>
        let second := first.past d others
        if d ≠ 'u' then second.failHere .endOfHexEscape
        else do
          let (low, after) ← readHex second
          if 0xDC00 ≤ low ∧ low ≤ 0xDFFF then
            .ok (Char.ofNat (0x10000 + (high - 0xD800) * 0x400 + (low - 0xDC00)), after)
          else
            after.failHere .loneSurrogate

/-- Reads the character that an escape stands for, the backslash being past. -/
def readEscape (r : Reading) : Except ReadError (Char × Reading) :=
  match r.rest with
  | [] => r.failHere .endInText
  | c :: rest =>
    let after := r.past c rest
    if c = '"' then .ok ('"', after)
    else if c = '\\' then .ok ('\\', after)
    else if c = '/' then .ok ('/', after)
    else if c = 'b' then .ok (Char.ofNat 8, after)
    else if c = 'f' then .ok (Char.ofNat 12, after)
    else if c = 'n' then .ok ('\n', after)
    else if c = 'r' then .ok ('\r', after)
    else if c = 't' then .ok ('\t', after)
    else if c = 'u' then do
      let (value, end_) ← readHex after
      if 0xDC00 ≤ value ∧ value ≤ 0xDFFF then end_.failHere .loneSurrogate
      else if 0xD800 ≤ value ∧ value ≤ 0xDBFF then readLowSurrogate value end_
      else .ok (Char.ofNat value, end_)
    else after.failHere .invalidEscape

/-- Reads the rest of a text up to its closing quote. -/
def readTextBody : Nat → List Char → Reading → Except ReadError (String × Reading)
  | 0, _, r => r.failHere .endInText
  | fuel + 1, read, r =>
    match r.rest with
    | [] => r.failHere .endInText
    | c :: rest =>
      if c = '"' then .ok (String.ofList read.reverse, r.past c rest)
      else if c = '\\' then do
        let (value, after) ← readEscape (r.past c rest)
        readTextBody fuel (value :: read) after
      else if c.toNat < 0x20 then
        .error ⟨.controlCharacter, r.line, r.column + 1⟩
      else readTextBody fuel (c :: read) (r.past c rest)

/-- Reads a text, its opening quote being past. -/
def readText (r : Reading) : Except ReadError (String × Reading) :=
  readTextBody (r.rest.length + 1) [] r

/-! ## Words and numbers -/

/-- Reads the rest of one of the three words. -/
def readWord (value : Json) : List Char → Reading → Except ReadError (Json × Reading)
  | [], r => .ok (value, r)
  | expected :: others, r =>
    match r.rest with
    | [] => r.failHere .endInValue
    | c :: rest =>
      let after := r.past c rest
      if c = expected then readWord value others after else after.failHere .expectedIdent

/-- The greatest natural number of 64 bits. -/
def greatest : Nat := Nat.pow 2 64 - 1

/-- A number from its parts, or a failure at what has been read. -/
def finishParts (isNegative : Bool) (significand : Nat) (power : Int) (r : Reading) :
    Except ReadError (Number × Reading) :=
  match Number.ofParts? isNegative significand power with
  | some value => .ok (value, r)
  | none => r.failHere .numberOutOfRange

/-- Skips digits. -/
def skipDigits (r : Reading) : List Char → Reading
  | [] => { r with rest := [] }
  | c :: rest =>
    if Text.isAsciiDigit c then skipDigits (r.past c rest) rest else { r with rest := c :: rest }

/-- Reads the remaining digits of an exponent and finishes the number. An exponent of more than 31
bits makes every number but zero too large, or nothing. -/
def readExponentDigits (isNegative : Bool) (significand : Nat) (power : Int) (raises : Bool) :
    Nat → Reading → List Char → Except ReadError (Number × Reading)
  | read, r, chars =>
    match chars with
    | c :: rest =>
      if Text.isAsciiDigit c then
        let next := read * 10 + (c.toNat - 48)
        let after := r.past c rest
        if Nat.pow 2 31 - 1 < next then
          if significand ≠ 0 ∧ raises then after.failHere .numberOutOfRange
          else .ok (.double (Decimal.zero isNegative), skipDigits after rest)
        else readExponentDigits isNegative significand power raises next after rest
      else
        finishParts isNegative significand (if raises then power + read else power - read)
          { r with rest := c :: rest }
    | [] =>
      finishParts isNegative significand (if raises then power + read else power - read)
        { r with rest := [] }

/-- Reads an exponent, its mark being past. -/
def readExponent (isNegative : Bool) (significand : Nat) (power : Int) (r : Reading) :
    Except ReadError (Number × Reading) :=
  let (raises, signed) : Bool × Reading :=
    match r.rest with
    | '+' :: rest => (true, r.past '+' rest)
    | '-' :: rest => (false, r.past '-' rest)
    | _ => (true, r)
  match signed.rest with
  | [] => signed.failHere .endInValue
  | c :: rest =>
    let after := signed.past c rest
    if Text.isAsciiDigit c then
      readExponentDigits isNegative significand power raises (c.toNat - 48) after rest
    else after.failHere .invalidNumber

/-- Finishes a number that may have an exponent. -/
def readAfterDigits (isNegative : Bool) (significand : Nat) (power : Int) (r : Reading) :
    Except ReadError (Number × Reading) :=
  match r.rest with
  | c :: rest =>
    if c = 'e' ∨ c = 'E' then readExponent isNegative significand power (r.past c rest)
    else finishParts isNegative significand power r
  | [] => finishParts isNegative significand power r

/-- Reads the digits after the point. Once a digit would take the significand over 64 bits, it and
all later ones are ignored. -/
def readPlaces (isNegative : Bool) (some_ : Bool) :
    Nat → Int → Reading → List Char → Except ReadError (Number × Reading)
  | significand, power, r, chars =>
    match chars with
    | c :: rest =>
      if Text.isAsciiDigit c then
        let next := significand * 10 + (c.toNat - 48)
        if greatest < next then
          readAfterDigits isNegative significand power (skipDigits r (c :: rest))
        else readPlaces isNegative true next (power - 1) (r.past c rest) rest
      else if some_ then readAfterDigits isNegative significand power { r with rest := c :: rest }
      else ({ r with rest := c :: rest } : Reading).failNext .invalidNumber
    | [] =>
      if some_ then readAfterDigits isNegative significand power { r with rest := [] }
      else ({ r with rest := [] } : Reading).failNext .endInValue

/-- A number without point and exponent. -/
def finishWhole (isNegative : Bool) (significand : Nat) (power : Int) (exact : Bool)
    (r : Reading) : Except ReadError (Number × Reading) :=
  if ¬ exact then finishParts isNegative significand power r
  else if ¬ isNegative then .ok (.natural significand, r)
  else if significand ≠ 0 ∧ significand ≤ Nat.pow 2 63 then .ok (.negative significand, r)
  else finishParts true significand 0 r

/-- Finishes a number after its whole part. -/
def readAfterWhole (isNegative : Bool) (significand : Nat) (power : Int) (exact : Bool)
    (r : Reading) : Except ReadError (Number × Reading) :=
  match r.rest with
  | '.' :: rest => readPlaces isNegative false significand power (r.past '.' rest) rest
  | c :: rest =>
    if c = 'e' ∨ c = 'E' then readExponent isNegative significand power (r.past c rest)
    else finishWhole isNegative significand power exact r
  | [] => finishWhole isNegative significand power exact r

/-- Counts the digits of the whole part that no longer fit 64 bits. -/
def readLongWhole (isNegative : Bool) (significand : Nat) :
    Int → Reading → List Char → Except ReadError (Number × Reading)
  | power, r, chars =>
    match chars with
    | c :: rest =>
      if Text.isAsciiDigit c then
        readLongWhole isNegative significand (power + 1) (r.past c rest) rest
      else readAfterWhole isNegative significand power false { r with rest := c :: rest }
    | [] => readAfterWhole isNegative significand power false { r with rest := [] }

/-- Reads the digits of the whole part. -/
def readWhole (isNegative : Bool) :
    Nat → Reading → List Char → Except ReadError (Number × Reading)
  | significand, r, chars =>
    match chars with
    | c :: rest =>
      if Text.isAsciiDigit c then
        let next := significand * 10 + (c.toNat - 48)
        if greatest < next then readLongWhole isNegative significand 0 r (c :: rest)
        else readWhole isNegative next (r.past c rest) rest
      else readAfterWhole isNegative significand 0 true { r with rest := c :: rest }
    | [] => readAfterWhole isNegative significand 0 true { r with rest := [] }

/-- Reads a number, its sign being past. -/
def readNumber (isNegative : Bool) (r : Reading) : Except ReadError (Number × Reading) :=
  match r.rest with
  | [] => r.failHere .endInValue
  | c :: rest =>
    let after := r.past c rest
    if c = '0' then
      match rest with
      | d :: _ =>
        if Text.isAsciiDigit d then after.failNext .invalidNumber
        else readAfterWhole isNegative 0 0 true after
      | [] => readAfterWhole isNegative 0 0 true after
    else if Text.isAsciiDigit c then readWhole isNegative (c.toNat - 48) after rest
    else after.failHere .invalidNumber

/-! ## Lists and objects -/

/-- Reads items up to the closing bracket, given how to read one. -/
def readItems {α : Type} (readItem : Reading → Except ReadError (α × Reading)) :
    Nat → Bool → List α → Reading → Except ReadError (List α × Reading)
  | 0, _, _, r => r.failHere .endInList
  | fuel + 1, first, read, r =>
    let here := r.skip
    match here.rest with
    | [] => here.failNext .endInList
    | ']' :: rest => .ok (read.reverse, here.past ']' rest)
    | c :: rest =>
      if first then do
        let (item, after) ← readItem here
        readItems readItem fuel false (item :: read) after
      else if c = ',' then
        let next := (here.past c rest).skip
        match next.rest with
        | [] => next.failNext .endInValue
        | ']' :: _ => next.failNext .trailingComma
        | _ => do
          let (item, after) ← readItem next
          readItems readItem fuel false (item :: read) after
      else here.failNext .expectedListCommaOrEnd

/-- Reads the name of a member. -/
def readKey (r : Reading) : Except ReadError (String × Reading) :=
  match r.rest with
  | [] => r.failNext .endInValue
  | '"' :: rest => readText (r.past '"' rest)
  | '}' :: _ => r.failNext .trailingComma
  | _ => r.failNext .keyNotText

/-- Reads the colon after the name of a member. -/
def readColon (r : Reading) : Except ReadError Reading :=
  let here := r.skip
  match here.rest with
  | [] => here.failNext .endInObject
  | ':' :: rest => .ok (here.past ':' rest)
  | _ => here.failNext .expectedColon

/-- Reads members up to the closing brace, given how to read a value. They come in the order of the
text. -/
def readMembers (readItem : Reading → Except ReadError (Json × Reading)) :
    Nat → Bool → List (String × Json) → Reading → Except ReadError (List (String × Json) × Reading)
  | 0, _, _, r => r.failHere .endInObject
  | fuel + 1, first, read, r =>
    let here := r.skip
    match here.rest with
    | [] => here.failNext .endInObject
    | '}' :: rest => .ok (read.reverse, here.past '}' rest)
    | c :: rest =>
      if first ∨ c = ',' then do
        let keyAt := if first then here else (here.past c rest).skip
        let (name, afterName) ← readKey (keyAt)
        let afterColon ← readColon afterName
        let (value, after) ← readItem afterColon
        readMembers readItem fuel false ((name, value) :: read) after
      else here.failNext .expectedObjectCommaOrEnd

/-! ## Values -/

/-- Reads a value in which arrays and objects nest less deep than a limit. -/
def readValue : Nat → Reading → Except ReadError (Json × Reading)
  | 0, r => r.failNext .tooDeep
  | limit + 1, r =>
    let here := r.skip
    match here.rest with
    | [] => here.failNext .endInValue
    | c :: rest =>
      let after := here.past c rest
      if c = 'n' then readWord null ['u', 'l', 'l'] after
      else if c = 't' then readWord (bool true) ['r', 'u', 'e'] after
      else if c = 'f' then readWord (bool false) ['a', 'l', 's', 'e'] after
      else if c = '"' then do
        let (value, end_) ← readText after
        .ok (text value, end_)
      else if c = '-' then do
        let (value, end_) ← readNumber true after
        .ok (number value, end_)
      else if Text.isAsciiDigit c then do
        let (value, end_) ← readNumber false here
        .ok (number value, end_)
      else if c = '[' then
        if limit = 0 then here.failNext .tooDeep
        else do
          let (items, end_) ← readItems (readValue limit) (rest.length + 1) true [] after
          .ok (array items, end_)
      else if c = '{' then
        if limit = 0 then here.failNext .tooDeep
        else do
          let (members, end_) ← readMembers (readValue limit) (rest.length + 1) true [] after
          .ok (object (ordered members), end_)
      else here.failNext .expectedValue

/-- Refuses anything after a value but blanks. -/
def finish {α : Type} (value : α) (r : Reading) : Except ReadError α :=
  let here := r.skip
  match here.rest with
  | [] => .ok value
  | _ => here.failNext .trailingCharacters

/-- Reads a text as one value, with a limit on its depth. -/
def readWithin (limit : Nat) (source : String) : Except ReadError Json := do
  let (value, end_) ← readValue limit (start source)
  finish value end_

/-- Reads a text as one value; arrays and objects may nest 127 deep. -/
def read (source : String) : Except ReadError Json :=
  readWithin 128 source

end ShapeAudit.Json
