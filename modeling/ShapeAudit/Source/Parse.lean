import ShapeAudit.Source.Grammar.Jsx
import ShapeAudit.Source.Grammar.Module
import ShapeAudit.Source.Lowering
import ShapeAudit.Source.Report.Stray

/-!
From a source to its concrete tree, and on to its shape. Goals refer to one another; the number of
steps into nested goals is bounded by the length of the source.
-/

namespace ShapeAudit.Source

namespace Grammar

open Reading

/-- Reads what begins with a decorator: an export, a class declaration, or an expression. -/
def decorated (descend : Descend) (beforeWhile : Bool) : Reading (List Child) := do
  let behind ← attempt (do
    let _ ← decorators descend
    isNext "export")
  match behind with
  | .ok (true, _) => exportStatement descend
  | .ok (false, _) => do
    match ← classDeclaration? descend beforeWhile with
    | some children => return children
    | none => expressionStatement descend
  | .error stopped => fun _ => .error stopped

/-- Reads a statement that begins with a word. -/
def wordStatement (descend : Descend) (beforeWhile : Bool) (found : String) : Reading (List Child) := do
  match found with
  | "if" => ifStatement descend beforeWhile
  | "switch" => switchStatement descend
  | "for" => 
    orElse (forInStatement descend beforeWhile) (forStatement descend beforeWhile)
  | "while" => whileStatement descend beforeWhile
  | "do" => doStatement descend
  | "with" => withStatement descend beforeWhile
  | "try" => tryStatement descend
  | "break" => jump .breakStatement found
  | "continue" => jump .continueStatement found
  | "return" => returnStatement descend
  | "throw" => throwStatement descend
  | "debugger" => debuggerStatement
  | "import" =>
    let (_, beyond) ← beyondWord .free 6
    if ['(', '.', '?', '\x60'].contains (beyond.headD ' ') then expressionStatement descend
    else importStatement descend
  | "export" =>
    if ← isExport then exportStatement descend else labelOrExpression descend beforeWhile found
  | _ =>
    match ← declaration? descend beforeWhile with
    | some children => return children
    | none => labelOrExpression descend beforeWhile found

/-- Reads a statement. -/
def statement (descend : Descend) (beforeWhile : Bool) : Reading (List Child) := do
  match ← ahead with
  | [] => stop .statement
  | c :: _ =>
    if c = ';' then takeLeaf .emptyStatement 1
    else if c = '\x7b' then
      blockOrObject descend .tail
        (fun mark chars => continuesExpression beforeWhile mark chars || assigns chars)
        (expressionStatement descend)
    else if c = '@' then decorated descend beforeWhile
    else wordStatement descend beforeWhile (← nextWord)

/-- Reads a goal, with a bound on the depth of nested goals. -/
def reach : Nat → Goal → Reading (List Child)
  | 0, _ => stop .operand
  | depth + 1, goal =>
    match goal with
    | .statement beforeWhile => statement (reach depth) beforeWhile
    | .expressions context => expressions (reach depth) context
    | .expression level context => expression (reach depth) level context
    | .operand updates context => operand (reach depth) updates context
    | .constructed context => constructed (reach depth) context
    | .literal => do
      if ← isNext "[" then arrayLiteral (reach depth) else objectLiteral (reach depth)
    | .jsxElement => jsxElement (reach depth)

/-- Reads a first line that begins with `#!`, if the source has one. -/
def hashBang : Reading (List Child) := do
  let chars ← ahead
  if (Text.afterPrefix? "#!".toList chars).isSome then
    takeLeaf .hashBangLine (Lexeme.run (fun c => c ≠ '\n' && !isNul c) chars)
  else return []

/-- Reads the next statement of a program, if the source has not ended. The text that is left bounds
the depth of the goals in a statement, and every statement takes some of that text. -/
def nextStatement : Reading (Option (List Child)) := do
  let _ ← ahead
  let start ← cursor
  if start.rest.isEmpty then return none
  else
    let before ← comments
    let statement ← fun here =>
      (reach (8 * start.rest.length + 8) (.statement false) here).mapError (Stop.since start)
    let later ← cursor
    require (later.rest.length < start.rest.length) .statement
    return some (before ++ statement)

/-- Reads a whole source. -/
def program : Reading (List Child) :=
  node .program do
    let first ← hashBang
    let rest ← repeated nextStatement
    return first ++ rest ++ (← comments)

end Grammar

/-! ## Sources -/

/-- The concrete tree of a source. -/
def readTree (chars : List Char) : Except Stop Tree :=
  match Grammar.program (Cursor.start chars) with
  | .ok (children, _) => .ok (Reading.splitLast children).2
  | .error stopped => .error stopped

/-- Whether a source reads. -/
def reads (chars : List Char) : Bool :=
  (readTree chars).toOption.isSome

/-- The shape of a source. Blanks around the source do not count. -/
def parse (options : Options) (text : String) : Except Fault Shape.Node :=
  let source := Text.trimChars text.toList
  match readTree source with
  | .ok tree => lowerProgram options tree
  | .error stopped =>
    let report := stopped.report reads source
    .error (.malformed report.place report.explanation)

end ShapeAudit.Source
