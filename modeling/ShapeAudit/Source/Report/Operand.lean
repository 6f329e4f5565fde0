import ShapeAudit.Source.Report.Bracket

/-!
Reports of operators without an operand, and of operands that stand side by side.
-/

namespace ShapeAudit.Source.Report

/-! ## Operators without their operand -/

/-- Whether a token is an operator that stands before its operand. -/
def isSign (spelling : String) : Bool :=
  ["+", "-", "!", "~", "typeof", "void", "delete"].contains spelling

/-- The report if an operand is missing behind the latest token. -/
def ofOperand (scene : Scene) : Report :=
  let next := nextToken scene
  let before := scene.previous
  if next == "\x7d" && closesInnermost scene next && (isBetween scene || leads before) &&
      before != ":" && (constructs scene).contains .statementBlock then
    match innerStart? none 0 scene.tokens with
    | some first => unexpectedSince scene first
    | none => unexpectedPrevious scene none
  else if isBetween scene then
    if next == ";" && !(openings 0 scene.spellings).all (· == "\x7b") then unexpectedNext scene
    else if isNested ((levelOf? before).getD 0) 0 scene.spellings.tail ||
        ((before == "+" || before == "-") && !isCloser next && next != ";" && next != ",") then
      unexpectedPrevious scene none
    else missingAfter scene "identifier"
  else if before == ":" || before == "case" || before == "of" || (before == "?" && next == ":") ||
      (before == "=>" && next == ";") then
    missingAfter scene "identifier"
  else if before == ")" then ofParameters scene
  else if (closerOf? before).isSome then ofOpening scene
  else if isSign before && closesInnermost scene next &&
      bracketOf scene.spellings.tail ≠ .list then missingAfter scene "identifier"
  else if before == "," && !(openings 0 scene.spellings).isEmpty then unexpectedNext scene
  else if before == "." && next == "." then missingAfter scene "property_identifier"
  else if next == "..." then unexpectedNext scene
  else unexpectedPrevious scene none

/-! ## Operands side by side -/

/-- Words that begin a statement and no expression. -/
def statementWords : List String :=
  ["var", "const", "if", "else", "for", "while", "do", "return", "switch", "try", "throw", "break",
    "continue", "debugger", "with", "function", "class", "import", "export"]

/-- The report if two operands stand side by side where a statement could end. -/
def ofNeighbours (scene : Scene) : Report :=
  let next := nextToken scene
  let before := scene.previous
  let isText (spelling : String) : Bool :=
    spelling.toList.head? == some '"' || spelling.toList.head? == some '\x27'
  let group := if before == ")" then groupStart? 0 scene.tokens else none
  let isCall := group.any fun (_, earlier) =>
    (earlier.head?.map Taken.spelling).any endsOperand
  if next == "\x7b" && (beyondNext scene).isEmpty then scene.whole
  else if isCall || (isText before && isText next) || statementWords.contains next then
    missingAfter scene ";"
  else if let some (opening, _) := group then unexpectedSince scene opening
  else if before == "]" || before == "++" || before == "--" then
    scene.unexpectedBetween scene.start.place
      ((scene.tokens.head?.map Taken.after).getD scene.stop.place)
  else if next != "\x7b" && beginsOperand (beyondNext scene) then
    unexpectedPrevious scene (some (afterNext scene))
  else if scene.tokens.length == 1 && !scene.start.taken.isEmpty then missingAfter scene ";"
  else unexpectedPrevious scene none

/-- The report if a bracket is open and neither its end nor a separator follows. -/
def ofBracket (scene : Scene) (opening : String) : Report :=
  let next := nextToken scene
  let closing := (closerOf? opening).getD ""
  if next == ";" then
    if (beyondNext scene).head?.map (fun c => String.ofList [c]) == some closing then
      unexpectedNext scene
    else missingAfter scene closing
  else if next == ":" then unexpectedPrevious scene (some (afterNext scene))
  else if beginsOperand scene.stop.rest then
    if opening == "\x7b" && Lexeme.word scene.stop.rest == 0 then unexpectedNext scene
    else if beginsOperand (beyondNext scene) then
      unexpectedPrevious scene (some (afterNext scene))
    else unexpectedPrevious scene none
  else missingAfter scene closing

end ShapeAudit.Source.Report
