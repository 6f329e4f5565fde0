import ShapeAudit.Source.Cursor

/-!
Looking ahead: passing blanks and comments up to the next token, and deciding there whether a
statement ends without a semicolon, and whether a question mark belongs to a conditional expression.
What may follow decides what is sought: only after an expression can there be a question mark, only
where a statement may end can a semicolon be left out, and only where neither is the case can an HTML
comment stand.
-/

namespace ShapeAudit.Source

/-- What may follow a cursor besides a token. -/
structure Mode where
  /-- A statement may end here without a semicolon. -/
  ends : Bool
  /-- An expression has ended here, so that an operator may follow. -/
  operators : Bool
  /-- A conditional expression may go on here. -/
  questions : Bool
  deriving DecidableEq

namespace Mode

/-- Neither an expression nor a statement has ended. -/
def free : Mode := ⟨false, false, false⟩

/-- An expression has ended, and the construct around it goes on. -/
def inner : Mode := ⟨false, true, true⟩

/-- An expression has ended, and the statement may end with it. -/
def tail : Mode := ⟨true, true, true⟩

/-- Something that is no expression has ended, and the statement may end with it. -/
def close : Mode := ⟨true, false, false⟩

/-- Whether a character stands between tokens without meaning. Where a word may begin, a wide line
break belongs to the word. -/
def isGap (mode : Mode) (c : Char) : Bool :=
  isSeparator c && !(mode = .free && isWideBreak c)

end Mode

/-! ## The end of a statement -/

/-- The rest after a block comment, and whether the comment ended. -/
def afterBlockComment : List Char → List Char × Bool
  | [] => ([], false)
  | '*' :: '/' :: rest => (rest, true)
  | c :: rest => if isNul c then (c :: rest, false) else afterBlockComment rest

/-- What has been found by passing blanks and comments: whether it went well, that is not onto a
slash, whether there was a comment, and the rest. -/
structure Passage where
  clear : Bool
  commented : Bool
  rest : List Char

/-- Passes blanks and comments. -/
def passBlanks : Nat → Bool → List Char → Passage
  | 0, commented, chars => ⟨true, commented, chars⟩
  | fuel + 1, commented, chars =>
    match chars.dropWhile isSpace with
    | '/' :: '/' :: rest =>
      passBlanks fuel true (rest.dropWhile fun c => !isNul c && !isBreak c)
    | '/' :: '*' :: rest =>
      let after := afterBlockComment rest
      passBlanks fuel (commented || after.2) after.1
    | '/' :: rest => ⟨false, commented, rest⟩
    | rest => ⟨true, commented, rest⟩

/-- Whether letters follow that make a longer word. -/
def continuesWord (chars : List Char) : Bool :=
  chars.head?.any Text.isAsciiLetter

/-- Whether a statement ends before a new line that begins with the given text, and the rest where
that was decided. It does not end before what can only continue an expression. -/
def endsBefore : List Char → Bool × List Char
  | [] => (true, [])
  | c :: rest =>
    if [',', '.', ':', ';', '*', '%', '>', '<', '=', '[', '(', '?', '^', '|', '&', '/'].contains c
    then (false, c :: rest)
    else if c = '+' then (rest.head? = some '+', rest)
    else if c = '-' then (rest.head? = some '-', rest)
    else if c = '!' then (rest.head? ≠ some '=', rest)
    else if c = 'i' then
      match rest with
      | 'n' :: more =>
        if !continuesWord more then (false, more)
        else match Text.afterPrefix? "stanceof".toList more with
          | some after => (continuesWord after, after)
          | none => (true, more)
      | _ => (true, rest)
    else (true, c :: rest)

/-- Whether a statement ends here although no semicolon is written: at the end of the source, before
a closing brace, before a new line that does not continue it, and, where no operator may follow,
before any comment that neither a comma nor an equals sign follows. -/
def statementEnds (operators : Bool) : Nat → Bool → List Char → Passage
  | 0, commented, chars => ⟨false, commented, chars⟩
  | _ + 1, commented, [] => ⟨true, commented, []⟩
  | fuel + 1, commented, c :: rest =>
    if isNul c then ⟨true, commented, c :: rest⟩
    else
      let passage : Passage :=
        if c = '/' then passBlanks (rest.length + 1) commented (c :: rest)
        else ⟨true, commented, c :: rest⟩
      if !passage.clear then ⟨false, passage.commented, passage.rest⟩
      else if c = '/' && !operators && passage.rest.head? ≠ some ',' &&
          passage.rest.head? ≠ some '=' then
        ⟨true, passage.commented, passage.rest⟩
      else match passage.rest with
        | [] => ⟨false, passage.commented, []⟩
        | '\x7d' :: _ => ⟨true, passage.commented, passage.rest⟩
        | d :: more =>
          if isBreak d then
            let next := passBlanks (more.length + 1) passage.commented more
            if !next.clear then ⟨false, next.commented, next.rest⟩
            else
              let decision := endsBefore next.rest
              ⟨decision.1, next.commented, decision.2⟩
          else if isSpace d then statementEnds operators fuel passage.commented more
          else ⟨false, passage.commented, passage.rest⟩

/-! ## Question marks -/

/-- The rest from the question mark of a conditional expression on. Two question marks are another
operator, and so is a question mark before a point that begins no number. -/
def questionAt (chars : List Char) : Option (List Char) :=
  match chars.dropWhile isSpace with
  | '?' :: '?' :: _ => none
  | '?' :: '.' :: rest =>
    if rest.head?.any Text.isAsciiDigit then some ('?' :: '.' :: rest) else none
  | '?' :: rest => some ('?' :: rest)
  | _ => none

/-! ## HTML comments -/

/-- How many blanks stand before an HTML comment and how long the comment is; it goes to the end of
its line. -/
def htmlComment? (chars : List Char) : Option (Nat × Nat) :=
  let blanks := Lexeme.run (fun c => isSpace c || isWideBreak c) chars
  let rest := chars.drop blanks
  let opening := Lexeme.piece "<!--".toList rest + Lexeme.piece "-->".toList rest
  if opening = 0 then none
  else some (blanks, Lexeme.run (fun c => !isNul c && !isBreak c) rest)

/-! ## The next token -/

/-- What the scan for an end or a question mark decides at a cursor. -/
def decideMark (mode : Mode) (cursor : Cursor) : Option Cursor :=
  if mode.ends then
    let passage := statementEnds mode.operators (cursor.rest.length + 1) false cursor.rest
    if passage.clear then some { cursor with mark := .semicolon }
    else if mode.questions && !passage.commented && passage.rest.head? = some '?' then
      (questionAt passage.rest).map fun rest =>
        { cursor.advanceTo rest with mark := .question }
    else none
  else if mode.questions then
    (questionAt cursor.rest).map fun rest => { cursor.advanceTo rest with mark := .question }
  else none

/-- The keywords that are recognised behind a wide line break. -/
def keywordsBehindBreak : List String :=
  ["var", "let", "const", "while", "with", "function", "async", "class", "export", "await", "else",
    "case", "default", "catch", "finally"]

/-- How many separators stand before the next token. A wide line break is one of them if no word may
begin there or a keyword follows. -/
def gapLength (mode : Mode) (chars : List Char) : Nat :=
  let gap := Lexeme.run mode.isGap chars
  let rest := chars.drop gap
  let behind := rest.drop (Lexeme.run isWideBreak rest)
  if keywordsBehindBreak.contains (String.ofList (behind.take (Lexeme.word behind))) then
    gap + (rest.length - behind.length)
  else gap

/-- Moves a cursor of which nothing is known to the next token. -/
def lookFrom (mode : Mode) : Nat → Cursor → Cursor
  | 0, cursor => { cursor with mark := .token }
  | fuel + 1, cursor =>
    match decideMark mode cursor with
    | some decided => decided
    | none =>
      let html := if mode.ends || mode.questions then none else htmlComment? cursor.rest
      match html with
      | some (blanks, length) =>
        lookFrom mode fuel ((cursor.advance blanks).passComment .htmlComment length)
      | none =>
        let moved := cursor.advance (gapLength mode cursor.rest)
        match Lexeme.comment moved.rest with
        | 0 => { moved with mark := .token }
        | length => lookFrom mode fuel (moved.passComment .comment length)

/-- Moves a cursor to the next token, unless it is known to be there. -/
def look (mode : Mode) (cursor : Cursor) : Cursor :=
  if cursor.mark = .unseen then lookFrom mode (cursor.rest.length + 1) cursor else cursor

end ShapeAudit.Source
