import ShapeAudit.Text

/-!
The words of a shell script. A word is a row of pieces: text, variables and scripts whose output is
put in their place. Quotes and backslashes say which pieces are taken as they are.
-/

namespace ShapeAudit.Process

/-- A piece of a word. A quoted piece is never split at blanks. -/
inductive Piece where
  | text (content : String) (quoted : Bool)
  | variable (name : String) (quoted : Bool)
  | output (script : String) (quoted : Bool)
  deriving DecidableEq, Repr

/-- A word of a script. -/
abbrev Word := List Piece

/-- A sign of a script. -/
inductive Sign where
  | word (word : Word)
  /-- Something that joins or ends commands. -/
  | operator (text : String)
  /-- A redirection of a channel, up to its target. -/
  | redirection (channel : Nat) (arrow : String)
  deriving DecidableEq, Repr

namespace Word

/-- A blank between words. -/
def isGap (c : Char) : Bool :=
  c == ' ' || c == '\t'

/-- A character that ends a word. -/
def endsWord (c : Char) : Bool :=
  isGap c || c == '\n' || c == ';' || c == '&' || c == '|' || c == '(' || c == ')' || c == '<' ||
    c == '>'

/-- A character of a name. -/
def isNameChar (c : Char) : Bool :=
  Text.isAsciiLetter c || Text.isAsciiDigit c || c == '_'

/-- A name that is one character long and no letter. -/
def isSpecial (c : Char) : Bool :=
  c == '$' || c == '?' || c == '#' || c == '@' || c == '*'

/-- The text up to the bracket that closes it, and the rest. Brackets nest, and those between quotes
do not count. -/
def bracketed : Nat → Option Char → List Char → Option (List Char × List Char)
  | _, _, [] => none
  | depth, some quote, c :: rest =>
    (bracketed depth (if c = quote then none else some quote) rest).map fun (inside, after) =>
      (c :: inside, after)
  | depth, none, c :: rest =>
    if c = ')' && depth == 0 then some ([], rest)
    else
      let inner := if c = '(' then depth + 1 else if c = ')' then depth - 1 else depth
      let quote := if c = '\x27' || c = '"' then some c else none
      (bracketed inner quote rest).map fun (inside, after) => (c :: inside, after)

/-- The piece after a dollar sign. -/
def afterDollar (quoted : Bool) : List Char → Option (Piece × List Char)
  | '(' :: rest => (bracketed 0 none rest).map fun (inside, after) =>
      (.output (String.ofList inside) quoted, after)
  | '\x7b' :: rest =>
    match rest.dropWhile (· != '\x7d') with
    | _ :: after => some (.variable (String.ofList (rest.takeWhile (· != '\x7d'))) quoted, after)
    | [] => none
  | c :: rest =>
    if isSpecial c || Text.isAsciiDigit c then
      some (.variable (String.ofList [c]) quoted, rest)
    else if isNameChar c then
      some (.variable (String.ofList ((c :: rest).takeWhile isNameChar)) quoted,
        (c :: rest).dropWhile isNameChar)
    else some (.text "$" quoted, c :: rest)
  | [] => some (.text "$" quoted, [])

/-- The piece between backquotes. -/
def afterBackquote (quoted : Bool) (chars : List Char) : Option (Piece × List Char) :=
  match chars.dropWhile (· != '\x60') with
  | _ :: after => some (.output (String.ofList (chars.takeWhile (· != '\x60'))) quoted, after)
  | [] => none

/-- Reads the rest of a word; whether double quotes are open. -/
def read : Nat → Bool → List Char → Option (Word × List Char)
  | 0, _, _ => none
  | _, false, [] => some ([], [])
  | _, true, [] => none
  | fuel + 1, false, c :: rest =>
    if endsWord c then some ([], c :: rest)
    else match c with
      | '"' => (read fuel true rest).map fun (pieces, after) => (.text "" true :: pieces, after)
      | '\x27' =>
        match rest.dropWhile (· != '\x27') with
        | [] => none
        | _ :: after => (read fuel false after).map fun (pieces, left) =>
          (.text (String.ofList (rest.takeWhile (· != '\x27'))) true :: pieces, left)
      | '\\' =>
        match rest with
        | [] => some ([.text "\\" true], [])
        | '\n' :: after => read fuel false after
        | d :: after => (read fuel false after).map fun (pieces, left) =>
          (.text (String.ofList [d]) true :: pieces, left)
      | '$' => do
        let (piece, after) ← afterDollar false rest
        let (pieces, left) ← read fuel false after
        some (piece :: pieces, left)
      | '\x60' => do
        let (piece, after) ← afterBackquote false rest
        let (pieces, left) ← read fuel false after
        some (piece :: pieces, left)
      | other => (read fuel false rest).map fun (pieces, left) =>
          (.text (String.ofList [other]) false :: pieces, left)
  | fuel + 1, true, c :: rest =>
    match c with
    | '"' => read fuel false rest
    | '\\' =>
      match rest with
      | [] => none
      | '\n' :: after => read fuel true after
      | d :: after => (read fuel true after).map fun (pieces, left) =>
        let kept := if d == '$' || d == '"' || d == '\\' || d == '\x60' then [d] else ['\\', d]
        (.text (String.ofList kept) true :: pieces, left)
    | '$' => do
      let (piece, after) ← afterDollar true rest
      let (pieces, left) ← read fuel true after
      some (piece :: pieces, left)
    | '\x60' => do
      let (piece, after) ← afterBackquote true rest
      let (pieces, left) ← read fuel true after
      some (piece :: pieces, left)
    | other => (read fuel true rest).map fun (pieces, left) =>
        (.text (String.ofList [other]) true :: pieces, left)

/-- The text of a word without quotes and without anything to put in. -/
def bare? : Word → Option String
  | [] => some ""
  | .text content false :: rest => (bare? rest).map (content ++ ·)
  | _ :: _ => none

/-- Splits a word that gives a variable a value. -/
def assignment? : Word → Option (String × Word)
  | .text content false :: rest =>
    if content == "=" then some ("", rest)
    else if content.toList.all isNameChar then
      (assignment? rest).map fun (name, value) => (content ++ name, value)
    else none
  | _ => none

end Word

namespace Sign

/-- The operators, longer ones first. -/
def operators : List String :=
  ["&&", "||", ";;", ";", "&", "|", "(", ")", "\n"]

/-- The operators of redirections, longer ones first. -/
def redirections : List String :=
  [">>", ">&", "<&", ">|", ">", "<"]

/-- The first of some texts that stands at the beginning, and the rest. -/
def firstOf (texts : List String) (chars : List Char) : Option (String × List Char) :=
  texts.findSome? fun text => (Text.afterPrefix? text.toList chars).map fun rest => (text, rest)

/-- A redirection at the beginning, perhaps after the number of its channel. -/
def redirection? (chars : List Char) : Option (Sign × List Char) := do
  let digits := chars.takeWhile Text.isAsciiDigit
  let (arrow, rest) ← firstOf redirections (chars.dropWhile Text.isAsciiDigit)
  let usual := if Text.startsWith arrow "<" then 0 else 1
  let channel := if digits.isEmpty then usual
    else digits.foldl (fun total c => total * 10 + (c.toNat - 48)) 0
  some (.redirection channel arrow, rest)

/-- The signs of a script, unless a quote or bracket stays open. -/
def read : Nat → List Char → Option (List Sign)
  | 0, _ => none
  | _, [] => some []
  | fuel + 1, c :: rest =>
    if Word.isGap c then read fuel rest
    else if c == '#' then read fuel (rest.dropWhile (· != '\n'))
    else match redirection? (c :: rest) with
      | some (sign, after) => (read fuel after).map (sign :: ·)
      | none =>
        match firstOf operators (c :: rest) with
        | some (text, after) => (read fuel after).map (.operator text :: ·)
        | none => do
          let (pieces, after) ← Word.read (rest.length + 2) false (c :: rest)
          let signs ← read fuel after
          some (.word pieces :: signs)

end Sign

end ShapeAudit.Process
