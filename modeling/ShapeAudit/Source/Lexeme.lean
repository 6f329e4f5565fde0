import ShapeAudit.Source.Character

/-!
How many characters a token takes at the beginning of a text. Every function here answers with the
length of the longest token of its kind, and with zero if there is none.
-/

namespace ShapeAudit.Source.Lexeme

/-! ## Runs -/

/-- The length of the longest beginning whose characters are all of a class. -/
def run (accept : Char → Bool) : List Char → Nat
  | [] => 0
  | c :: rest => if accept c then 1 + run accept rest else 0

/-- The length of a run of separators. -/
def separators (chars : List Char) : Nat :=
  run isSeparator chars

/-- The length of a piece of text, if it stands at the beginning. -/
def piece (spelling : List Char) (chars : List Char) : Nat :=
  if (Text.afterPrefix? spelling chars).isSome then spelling.length else 0

/-! ## Comments -/

/-- The length up to and including the end of a block comment. -/
def blockTail : List Char → Nat
  | [] => 0
  | '*' :: '/' :: _ => 2
  | c :: rest =>
    if isNul c then 0
    else match blockTail rest with
      | 0 => 0
      | length => length + 1

/-- The length of a comment. A block comment that does not end is none. -/
def comment : List Char → Nat
  | '/' :: '/' :: rest => 2 + run (fun c => c ≠ '\n' && !isNul c) rest
  | '/' :: '*' :: rest =>
    match blockTail rest with
    | 0 => 0
    | length => length + 2
  | _ => 0

/-! ## Words -/

/-- The length of the hexadecimal escape of a character after its backslash: `u` with four digits,
or `u` with any number of digits in braces. -/
def unicodeEscape : List Char → Nat
  | 'u' :: '\x7b' :: rest =>
    let digits := run Text.isHexDigit rest
    if digits > 0 && (rest.drop digits).head? = some '\x7d' then digits + 3 else 0
  | 'u' :: rest => if run Text.isHexDigit (rest.take 4) = 4 then 5 else 0
  | _ => 0

/-- The length of the rest of a word. The number counts the characters of an escape that are still
to be passed. -/
def wordTail : Nat → List Char → Nat
  | _, [] => 0
  | pending + 1, _ :: rest => 1 + wordTail pending rest
  | 0, c :: rest =>
    if isWordPart c then 1 + wordTail 0 rest
    else if c = '\\' then
      match unicodeEscape rest with
      | 0 => 0
      | length => 1 + wordTail length rest
    else 0

/-- The length of a word. -/
def word : List Char → Nat
  | [] => 0
  | c :: rest => if Text.isAsciiDigit c then 0 else wordTail 0 (c :: rest)

/-- The length of a private name, a word behind `#`. -/
def privateName : List Char → Nat
  | '#' :: rest =>
    match word rest with
    | 0 => 0
    | length => length + 1
  | _ => 0

/-! ## Numbers -/

/-- The length of digits of a class with single underscores between them. -/
def digitsTail (digit : Char → Bool) : List Char → Nat
  | [] => 0
  | '_' :: c :: rest => if digit c then 2 + digitsTail digit rest else 0
  | c :: rest => if digit c then 1 + digitsTail digit rest else 0

/-- The length of a digit and what `digitsTail` adds to it. -/
def digits (digit : Char → Bool) : List Char → Nat
  | [] => 0
  | c :: rest => if digit c then 1 + digitsTail digit rest else 0

/-- The length of an exponent with its mark. -/
def exponent : List Char → Nat
  | [] => 0
  | mark :: rest =>
    if mark = 'e' || mark = 'E' then
      let sign := if rest.head? = some '+' || rest.head? = some '-' then 1 else 0
      match digits Text.isAsciiDigit (rest.drop sign) with
      | 0 => 0
      | length => 1 + sign + length
    else 0

/-- Whether digits may be the whole part of a number with a point or an exponent: a lone zero, or
digits of which the first or, after a zero, the second is not zero. -/
def isWholePart : List Char → Bool
  | ['0'] => true
  | '0' :: c :: _ => '1' ≤ c && c ≤ '9'
  | c :: _ => '1' ≤ c && c ≤ '9'
  | [] => false

/-- The length of a number in another base, behind its mark. -/
def basedNumber (small capital : Char) (digit : Char → Bool) : List Char → Nat
  | '0' :: mark :: rest =>
    if mark = small || mark = capital then
      match digits digit rest with
      | 0 => 0
      | length => 2 + length
    else 0
  | _ => 0

/-- The length of a number with a point or an exponent, or of plain digits. -/
def decimalNumber (chars : List Char) : Nat :=
  match digits Text.isAsciiDigit chars with
  | 0 =>
    match chars with
    | '.' :: rest =>
      match digits Text.isAsciiDigit rest with
      | 0 => 0
      | length => 1 + length + exponent (rest.drop length)
    | _ => 0
  | whole =>
    let rest := chars.drop whole
    if isWholePart (chars.take whole) then
      match rest with
      | '.' :: fraction =>
        let places := digits Text.isAsciiDigit fraction
        whole + 1 + places + exponent (fraction.drop places)
      | _ => whole + exponent rest
    else whole

/-- The length of a whole number with the mark `n`. -/
def bigNumber (length : Nat) (chars : List Char) : Nat :=
  if length > 0 && (chars.drop length).head? = some 'n' then length + 1 else 0

/-- The length of a number. -/
def number (chars : List Char) : Nat :=
  let hexadecimal := basedNumber 'x' 'X' Text.isHexDigit chars
  let binary := basedNumber 'b' 'B' (fun c => c = '0' || c = '1') chars
  let octal := basedNumber 'o' 'O' (fun c => '0' ≤ c && c ≤ '7') chars
  let whole := digits Text.isAsciiDigit chars
  [hexadecimal, binary, octal, decimalNumber chars, bigNumber hexadecimal chars,
    bigNumber binary chars, bigNumber octal chars, bigNumber whole chars].foldl max 0

/-! ## Strings -/

/-- The length of an escape with its backslash. -/
def escape : List Char → Nat
  | '\\' :: c :: rest =>
    if isNul c then 0
    else if c = 'x' then (if run Text.isHexDigit (rest.take 2) = 2 then 4 else 0)
    else if c = 'u' then (match unicodeEscape (c :: rest) with | 0 => 0 | length => 1 + length)
    else if '0' ≤ c && c ≤ '7' then
      2 + run (fun d => '0' ≤ d && d ≤ '7') (rest.take 2)
    else if (c = '\r' || c = '?') && rest.head?.any isBreak then 3
    else 2
  | _ => 0

/-- The length of what follows the opening quote of a string, closing quote included. Text and
escapes may alternate; at a line break the blanks are passed, and then only a comment or the closing
quote may follow. The flag tells that blanks have just been passed, the number counts characters that
are still to be passed. -/
def stringTail (quote : Char) : Bool → Nat → List Char → Nat
  | _, _, [] => 0
  | passed, pending + 1, _ :: rest =>
    match stringTail quote passed pending rest with
    | 0 => 0
    | length => length + 1
  | passed, 0, c :: rest =>
    if c = quote then 1
    else
      let skip :=
        if isNul c then 0
        else if passed then (if isSeparator c then 1 else comment (c :: rest))
        else if c = '\\' then escape (c :: rest)
        else if c = '\n' || c = '\r' then 1
        else 1
      let passedNow :=
        if passed then isSeparator c else c = '\n' || c = '\r'
      match skip with
      | 0 => 0
      | length + 1 =>
        match stringTail quote passedNow length rest with
        | 0 => 0
        | more => more + 1

/-- The length of a string with its quotes. -/
def string : List Char → Nat
  | c :: rest =>
    if c = '"' || c = '\x27' then
      match stringTail c false 0 rest with
      | 0 => 0
      | length => length + 1
    else 0
  | [] => 0

/-! ## Regular expressions -/

/-- The length of the rest of a character class, closing bracket included. -/
def classTail : List Char → Nat
  | [] => 0
  | ']' :: _ => 1
  | '\\' :: c :: rest =>
    if c = '\n' || isNul c then 0
    else match classTail rest with
      | 0 => 0
      | length => length + 2
  | c :: rest =>
    if c = '\n' || c = '\\' || isNul c then 0
    else match classTail rest with
      | 0 => 0
      | length => length + 1

/-- The length of the pattern of a regular expression. The number counts characters that are still
to be passed. -/
def pattern : Nat → List Char → Nat
  | _, [] => 0
  | pending + 1, _ :: rest => 1 + pattern pending rest
  | 0, c :: rest =>
    if c = '[' then
      match classTail rest with
      | 0 => 0
      | length => 1 + pattern length rest
    else if c = '\\' then
      match rest with
      | [] => 0
      | d :: _ => if d = '\n' || isNul d then 0 else 1 + pattern 1 rest
    else if c = '/' || c = '\n' || isNul c then 0
    else 1 + pattern 0 rest

/-- The length of the flags of a regular expression. Letters that spell an operator are none. -/
def flags (chars : List Char) : Nat :=
  let length := run (fun c => 'a' ≤ c && c ≤ 'z') chars
  if chars.take length = "in".toList || chars.take length = "instanceof".toList then 0 else length

/-- The length of comments, each with blanks before it. -/
def comments : Nat → List Char → Nat
  | 0, _ => 0
  | fuel + 1, chars =>
    let blanks := separators chars
    match comment (chars.drop blanks) with
    | 0 => 0
    | length => blanks + length + comments fuel (chars.drop (blanks + length))

/-- The length of a regular expression with its slashes and flags. Comments may stand between the
opening slash and the pattern, if blanks precede them. -/
def regex : List Char → Nat
  | '/' :: rest =>
    let lead := comments rest.length rest
    let body := rest.drop lead
    match pattern 0 body with
    | 0 => 0
    | length =>
      match body.drop length with
      | '/' :: after => lead + length + 2 + flags after
      | _ => 0
  | _ => 0

/-! ## Templates -/

/-- The length of a stretch of text in a template, up to its end, an escape or a substitution; none
if the template does not end. -/
def templateStretch : List Char → Option Nat
  | [] => none
  | '\x60' :: _ => some 0
  | '\\' :: _ => some 0
  | '$' :: '\x7b' :: _ => some 0
  | c :: rest => if isNul c then none else (templateStretch rest).map (· + 1)

/-- The length of a stretch of text in a template; zero also if the template does not end. -/
def templateText (chars : List Char) : Nat :=
  (templateStretch chars).getD 0

end ShapeAudit.Source.Lexeme
