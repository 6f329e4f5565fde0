import ShapeAudit.Source.Report.Operand

/-!
Reports of tokens that do not fit. If the source reads without the token, or without the token before
it, only that token is reported. Otherwise what is reported depends on what stands around the token.
-/

namespace ShapeAudit.Source

namespace Report

/-! ## Other surroundings -/

/-- The report of a token at the beginning of a statement: an operator lacks its left operand if it
has a right one. -/
def ofFirst (reads : List Char → Bool) (scene : Scene) : Report :=
  let next := nextToken scene
  if ((levelOf? next).isSome || next == "," || next == ".") &&
      (beginsOperand (beyondNext scene) || reads ('x' :: ' ' :: scene.stop.rest)) then
    missingAfter scene "identifier"
  else unexpectedRun scene

/-- The report of a keyword that is not followed by its bracket. -/
def ofKeyword (scene : Scene) : Report :=
  let isFunction := scene.spellings.getLast? == some "function"
  if isFunction && nextToken scene == "\x7b" then
    scene.unexpectedBetween scene.start.place
      ((scene.tokens.head?.map Taken.after).getD scene.stop.place)
  else if isFunction then scene.unexpectedBetween scene.start.place (afterNext scene)
  else if (beyondNext scene).isEmpty then unexpectedPrevious scene none
  else unexpectedPrevious scene (some (afterNext scene))

/-- Whether the statement so far is one word that wants something else than the operand that comes
next. -/
def isLoneWord (scene : Scene) : Bool :=
  match scene.spellings with
  | [only] => Lexeme.word only.toList > 0 && beginsOperand scene.stop.rest &&
      !(["if", "while", "switch"].contains only)
  | _ => false

/-! ## Sources without one of their tokens -/

/-- A source with some characters blanked out. -/
def blanked (source : List Char) (offset length : Nat) : List Char :=
  source.take offset ++ List.replicate length ' ' ++ source.drop (offset + length)

/-- The source without the token that comes next. -/
def withoutNext (source : List Char) (scene : Scene) : List Char :=
  blanked source (source.length - scene.stop.rest.length) (tokenLength scene.stop.rest)

/-- The source without a token that has been taken. -/
def withoutTaken (source : List Char) (token : Taken) : List Char :=
  blanked source (textBefore token.place (Cursor.start source).place source).length
    token.spelling.length

/-- Whether closing brackets that nothing opened come next where a statement can end, and nothing
behind them continues the statement. -/
def closesNothing (scene : Scene) : Bool :=
  let beyond := beyondClosers scene
  scene.stop.wanted = .ending && isCloser (nextToken scene) &&
    (openings 0 scene.spellings).isEmpty &&
    (beyond.isEmpty || beginsOperand beyond || ['\x7b', '!', '~', '@'].contains (beyond.headD ' '))

/-- Whether the token that comes next is a mark that may be left out: no semicolon, no mark that is
repeated, no operator behind a sign, no comma behind an operator, no bracket that closes nothing, and
at the end of the source nothing but a bracket. -/
def isSpare (scene : Scene) : Bool :=
  let next := nextToken scene
  let signed := scene.previous == "+" || scene.previous == "-"
  next != ";" && scene.previous != ";" && scene.previous != next && !beginsOperand next.toList &&
    !(signed && (levelOf? next).isSome) &&
    !(next == "," && (isBetween scene || isSign scene.previous)) &&
    !closesNothing scene && (isCloser next || !(beyondNext scene).isEmpty)

/-- Whether the token that comes next is an operator with its right operand, and a left operand
could stand before it. -/
def lacksLeft (scene : Scene) : Bool :=
  let next := nextToken scene
  ((levelOf? next).isSome || next == ".") && next != "+" && next != "-" &&
    scene.stop.wanted = .operand && beginsOperand (beyondNext scene) && scene.previous != next &&
    !(scene.previous == "+" || scene.previous == "-") && !isCloser scene.previous

/-- Whether the latest token ends the head of a statement that governs another. -/
def endsHead (scene : Scene) : Bool :=
  scene.previous == ")" && (groupStart? 0 scene.tokens).any fun (_, before) =>
    ["if", "while", "for", "with"].contains ((before.head?.map Taken.spelling).getD "")

/-- Whether the statement that a head governs begins with an operator and its right operand. -/
def lacksGoverned (scene : Scene) : Bool :=
  let next := nextToken scene
  endsHead scene && ((levelOf? next).isSome || next == "," || next == ".") &&
    beginsOperand (beyondNext scene)

/-- Whether the first parameter of a function is missing. -/
def lacksParameter (scene : Scene) : Bool :=
  let next := nextToken scene
  let parameters := (constructs scene).getLast? == some .formalParameters
  (parameters && scene.previous == "(" && (next == "," || next == "=")) ||
    (scene.previous == "(" && next == "," && bracketOf scene.spellings = .group)

/-- Whether the latest token is a bracket that may be left out. A semicolon at the end of the source
closes the bracket, unless it stands behind an assignment. -/
def isSpareOpening (scene : Scene) : Bool :=
  let opening := scene.previous
  (opening == "(" || opening == "[" || opening == "\x7b") &&
    (nextToken scene != ";" || !(beyondNext scene).isEmpty ||
      isNested 0 0 scene.spellings.tail)

/-- Whether the latest token is the sign of an assignment that has no value. -/
def lacksValue (scene : Scene) : Bool :=
  let next := nextToken scene
  scene.previous == "=" && (constructs scene).contains .expressionStatement &&
    ((levelOf? next).isSome || next == "." || next == ",")

/-! ## All reports -/

/-- The report of a token that does not fit, by what stands around it. -/
def ofSurroundings (reads : List Char → Bool) (scene : Scene) : Report :=
  let next := nextToken scene
  let isLast := (beyondNext scene).isEmpty
  if scene.tokens.isEmpty then ofFirst reads scene
  else if closesNothing scene && !(beyondClosers scene).isEmpty then
    if isCloser scene.previous then
      scene.unexpectedBetween scene.start.place (afterClosers scene)
    else unexpectedPrevious scene (some (afterClosers scene))
  else if (next == ")" || next == "]") && scene.previous == next &&
      !closesInnermost scene next then unexpectedPrevious scene none
  else if (constructs scene).head? == some .doStatement &&
      bracketOf scene.spellings ≠ .condition then scene.whole
  else if next == "=" && scene.tokens.length == 1 then
    unexpectedPrevious scene (some (afterNext scene))
  else if let some report := ofHeader? scene then report
  else match scene.stop.wanted with
    | .statement => unexpectedNext scene
    | .operand =>
      if isLoneWord scene then unexpectedPrevious scene none
      else if scene.previous == ";" || scene.previous == "\x7b" && isCloser next ||
          scene.previous == "\x7d" then unexpectedNext scene
      else if isLast && next != ";" && !closesInnermost scene next then scene.whole
      else ofOperand scene
    | .token "(" =>
      if isLoneWord scene then unexpectedPrevious scene none else ofKeyword scene
    | .token "=>" => if isLast && next != ";" then scene.whole else ofParameters scene
    | .token wanted =>
      if isLoneWord scene then unexpectedPrevious scene none
      else if (closerOf? scene.previous).isSome then ofOpening scene
      else if wanted == ":" && next == "\x7d" then
        if (constructs scene).getLast? == some .switchCase then missingAfter scene ":"
        else unexpectedPrevious scene none
      else if isLast && closesOuter scene next then
        missingAfter scene (((openings 0 scene.spellings).head?.bind closerOf?).getD "")
      else if isLast && next != ";" && !closesInnermost scene next then scene.whole
      else match latestOf? "?" 0 scene.tokens, openings 0 scene.spellings with
        | some mark, _ => unexpectedSince scene mark
        | none, opening :: _ => ofBracket scene opening
        | none, [] => unexpectedPrevious scene none
    | .ending =>
      if isLast && !(openings 0 scene.spellings).isEmpty then scene.whole
      else if next == "#" || next == "\\" then unexpectedPrevious scene (some (afterNext scene))
      else if beginsOperand scene.stop.rest || next == "\x7b" then ofNeighbours scene
      else if isLast then scene.whole
      else unexpectedPrevious scene none

/-- The report of a token that does not fit. If the source reads without the token, or without the
token before it, only that token is reported. -/
def ofStray (reads : List Char → Bool) (source : List Char) (scene : Scene) : Report :=
  if scene.tokens.isEmpty then ofFirst reads scene
  else if lacksValue scene && !(beyondNext scene).isEmpty then unexpectedPrevious scene none
  else if lacksLeft scene || lacksGoverned scene || lacksParameter scene then
    missingAfter scene "identifier"
  else if isSpare scene && reads (withoutNext source scene) then unexpectedNext scene
  else match scene.tokens with
    | token :: _ =>
      if isSpareOpening scene && reads (withoutTaken source token) then
        unexpectedPrevious scene none
      else ofSurroundings reads scene
    | [] => ofSurroundings reads scene

end Report

/-- What is reported of a stop in a source, given which sources read. -/
def Stop.report (reads : List Char → Bool) (source : List Char) (stop : Stop) : Report :=
  let scene := Report.Scene.of stop (stop.statement.getD
    { rest := stop.rest, place := stop.place, passed := [], mark := .token, taken := stop.taken })
  if Report.endsEarly stop then Report.ofEnd scene else Report.ofStray reads source scene

end ShapeAudit.Source
