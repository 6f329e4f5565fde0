import ShapeAudit.Source.Grammar.Operator

/-!
What is reported of a stop: a token that is missing at a place, or text that is not expected there.
This module holds the reports themselves and the questions that are asked about the tokens of the
statement in which reading stopped.
-/

namespace ShapeAudit.Source

/-- What is reported of a stop. -/
inductive Report where
  /-- A token is missing at a place. -/
  | missing (place : Place) (spelling : String)
  /-- A text at a place is not expected there. -/
  | unexpected (place : Place) (text : List Char)
  deriving DecidableEq

namespace Report

/-- The place of a report. -/
def place : Report → Place
  | missing place _ => place
  | unexpected place _ => place

/-- How many characters of a text are shown. -/
def shownLength : Nat := 24

/-- The wording of a report. -/
def explanation : Report → String
  | missing _ spelling => "missing \x60" ++ spelling ++ "\x60"
  | unexpected _ text =>
    "unexpected \x60" ++ String.ofList (Text.trimChars (text.take shownLength)) ++ "\x60"

/-! ## Text between places -/

/-- The text before a place, given the place where the text begins. -/
def textBefore (target : Place) : Place → List Char → List Char
  | _, [] => []
  | here, c :: rest =>
    if here = target then [] else c :: textBefore target (Cursor.placeAfter here c) rest

/-- The text from a place on, given the place where the text begins. -/
def textFrom (target : Place) : Place → List Char → List Char
  | _, [] => []
  | here, c :: rest =>
    if here = target then c :: rest else textFrom target (Cursor.placeAfter here c) rest

/-! ## The statement in which reading stopped -/

/-- The statement of the program in which reading stopped. -/
structure Scene where
  start : Cursor
  stop : Stop
  /-- The tokens of the statement, the latest first. -/
  tokens : List Taken

/-- The statement in which reading stopped. -/
def Scene.of (stop : Stop) (start : Cursor) : Scene :=
  ⟨start, stop, stop.taken.take (stop.taken.length - start.taken.length)⟩

namespace Scene

/-- Text from a place on that is not expected, up to another place. -/
def unexpectedBetween (scene : Scene) (first last : Place) : Report :=
  unexpected first
    (textBefore last first (textFrom first scene.start.place scene.start.rest))

/-- Text from a place on that is not expected, up to the last token or, if something behind it cannot
be read, to the end of the source. -/
def unexpectedFrom (scene : Scene) (first : Place) : Report :=
  match scene.tokens with
  | last :: _ =>
    if scene.stop.rest.isEmpty then scene.unexpectedBetween first last.after
    else unexpected first (textFrom first scene.start.place scene.start.rest)
  | [] => unexpected first (textFrom first scene.start.place scene.start.rest)

/-- The whole statement is not expected. -/
def whole (scene : Scene) : Report :=
  scene.unexpectedFrom scene.start.place

/-- The spelling of the latest token. -/
def previous (scene : Scene) : String :=
  (scene.tokens.head?.map Taken.spelling).getD ""

/-- The spellings of the tokens, the latest first. -/
def spellings (scene : Scene) : List String :=
  scene.tokens.map Taken.spelling

end Scene

/-! ## Kinds of tokens -/

/-- The closing bracket of an opening one. -/
def closerOf? : String → Option String
  | "(" => some ")"
  | "[" => some "]"
  | "\x7b" => some "\x7d"
  | "$\x7b" => some "\x7d"
  | _ => none

/-- Whether a token closes a bracket. -/
def isCloser (spelling : String) : Bool :=
  spelling == ")" || spelling == "]" || spelling == "\x7d"

/-- The openings of brackets that are not closed, the innermost first. Tokens are given the latest
first; the number counts the closings that wait for their openings. -/
def openings : Nat → List String → List String
  | _, [] => []
  | waiting, spelling :: rest =>
    if isCloser spelling then openings (waiting + 1) rest
    else if (closerOf? spelling).isSome then
      match waiting with
      | 0 => spelling :: openings 0 rest
      | left + 1 => openings left rest
    else openings waiting rest

/-- How many trees tokens make when each closed bracket is one tree. Tokens are given the latest
first; the number counts the closings that wait for their openings. -/
def treeCount : Nat → List String → Nat
  | _, [] => 0
  | waiting, spelling :: rest =>
    if isCloser spelling then treeCount (waiting + 1) rest
    else if (closerOf? spelling).isSome then
      match waiting with
      | 0 => treeCount 0 rest + 1
      | 1 => treeCount 0 rest + 1
      | left + 2 => treeCount (left + 1) rest
    else treeCount waiting rest + (if waiting = 0 then 1 else 0)

/-- The level of an operator between two operands. -/
def levelOf? (spelling : String) : Option Nat :=
  (Grammar.operators.find? fun operator => operator.spelling == spelling).map
    Grammar.Operator.level

/-- Words that want an operand behind them. -/
def operatorWords : List String :=
  ["typeof", "void", "delete", "await", "new", "throw", "return", "case", "in", "of", "instanceof",
    "extends", "default", "else", "do", "yield", "var", "let", "const"]

/-- Whether a token can end an operand. -/
def endsOperand (spelling : String) : Bool :=
  match spelling.toList with
  | [] => false
  | c :: rest =>
    (Lexeme.word (c :: rest) > 0 && !operatorWords.contains spelling) ||
      Text.isAsciiDigit c || c == '"' || c == '\x27' || isCloser spelling ||
      (c == '.' && rest.head?.any Text.isAsciiDigit) || c == '\x60'

/-- Whether what follows begins an operand. -/
def beginsOperand (chars : List Char) : Bool :=
  Lexeme.word chars > 0 || Lexeme.number chars > 0 || Lexeme.string chars > 0

/-- Marks that are one token although they are several characters. -/
def longMarks : List String :=
  [">>>=", "...", "===", "!==", "**=", "<<=", ">>=", ">>>", "&&=", "||=", "??=", "=>", "==", "!=",
    "<=", ">=", "&&", "||", "??", "?.", "++", "--", "+=", "-=", "*=", "/=", "%=", "&=", "|=", "^=",
    "<<", ">>", "**"]

/-- The length of the token that comes next. -/
def tokenLength (chars : List Char) : Nat :=
  if Lexeme.word chars > 0 then Lexeme.word chars
  else if Lexeme.number chars > 0 then Lexeme.number chars
  else if Lexeme.string chars > 0 then Lexeme.string chars
  else ((longMarks.find? fun mark => (Text.afterPrefix? mark.toList chars).isSome).map
    String.length).getD 1

end Report

end ShapeAudit.Source
