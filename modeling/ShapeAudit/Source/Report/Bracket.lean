import ShapeAudit.Source.Report.Next

/-!
Reports of tokens that do not fit into a bracket. What is reported depends on what the bracket is for:
an index or a condition wants something, a list does not.
-/

namespace ShapeAudit.Source.Report

/-! ## Operators and what they are part of -/

/-- Whether the latest token stands between operands. -/
def isBetween (scene : Scene) : Bool :=
  match scene.spellings with
  | operator :: before :: _ => (levelOf? operator).isSome && endsOperand before
  | _ => false

/-- Whether a token assigns, or separates members or operands. -/
def leads (spelling : String) : Bool :=
  spelling == "," || spelling == ":" ||
    (spelling.toList.getLast? == some '=' && (levelOf? spelling).isNone)

/-- Whether an operator of a level is a part of something larger that is still open: behind an
assignment or a comma, or behind an operator that binds less tightly. Tokens are given the latest
first; the number counts the closings that wait for their openings. -/
def isNested (level : Nat) : Nat → List String → Bool
  | _, [] => false
  | waiting, spelling :: rest =>
    if isCloser spelling then isNested level (waiting + 1) rest
    else if (closerOf? spelling).isSome then
      match waiting with
      | 0 => false
      | left + 1 => isNested level left rest
    else if waiting ≠ 0 then isNested level waiting rest
    else if spelling == ";" || spelling == "?" then false
    else if leads spelling then true
    else match levelOf? spelling with
      | some other =>
        if other < level && endsOperand (rest.headD "") then true else isNested level waiting rest
      | none => isNested level waiting rest

/-! ## Brackets -/

/-- What a bracket is for. -/
inductive Bracket where
  /-- The condition of a statement. -/
  | condition
  /-- The index of an element. -/
  | index
  /-- The hole of a template. -/
  | hole
  /-- An expression on its own. -/
  | group
  /-- Things that may be left out. -/
  | list
  deriving DecidableEq

/-- What the bracket is for that the first of some tokens opens, given the tokens before it. -/
def bracketOf : List String → Bracket
  | "$\x7b" :: _ => .hole
  | "(" :: before :: _ =>
    if ["if", "while", "switch", "with"].contains before then .condition
    else if endsOperand before then .list
    else .group
  | ["("] => .group
  | "[" :: before :: _ => if endsOperand before then .index else .list
  | _ => .list

/-- The innermost open bracket and the tokens before it. The number counts the closings that wait for
their openings. -/
def openingOf? : Nat → List Taken → Option (Taken × List Taken)
  | _, [] => none
  | waiting, token :: rest =>
    if isCloser token.spelling then openingOf? (waiting + 1) rest
    else if (closerOf? token.spelling).isSome then
      if waiting = 0 then some (token, rest) else openingOf? (waiting - 1) rest
    else openingOf? waiting rest

/-- The latest token of a spelling in the innermost open bracket. The number counts the closings that
wait for their openings. -/
def latestOf? (spelling : String) : Nat → List Taken → Option Taken
  | _, [] => none
  | waiting, token :: rest =>
    if isCloser token.spelling then latestOf? spelling (waiting + 1) rest
    else if (closerOf? token.spelling).isSome then
      if waiting = 0 then none else latestOf? spelling (waiting - 1) rest
    else if waiting = 0 && token.spelling == spelling then some token
    else latestOf? spelling waiting rest

/-- Whether the innermost open bracket is the header of a loop with three parts. -/
def isInHeader (scene : Scene) : Bool :=
  match openingOf? 0 scene.tokens with
  | some (opening, before) =>
    opening.spelling == "(" && (before.head?.map Taken.spelling) == some "for"
  | none => false

/-- The report of a token that does not fit into the header of a loop: parts may be missing, or there
is one too many. -/
def ofHeader? (scene : Scene) : Option Report :=
  let next := nextToken scene
  if !isInHeader scene then none
  else if next == ")" && scene.previous != "in" && scene.previous != "of" then
    if (latestOf? ";" 0 scene.tokens).isSome then some (missingAfter scene ";")
    else some scene.whole
  else if next == ";" && scene.previous == ";" then some (unexpectedPrevious scene none)
  else if next == "\x7b" then
    some (scene.unexpectedBetween scene.start.place
      ((scene.tokens.head?.map Taken.after).getD scene.stop.place))
  else none

/-- The report of brackets that could only be the parameters of a function. -/
def ofParameters (scene : Scene) : Report :=
  match groupStart? 0 scene.tokens with
  | some (opening, before) =>
    match before with
    | token :: _ => unexpectedSince scene (if token.spelling == "=" then token else opening)
    | [] => unexpectedSince scene opening
  | none => unexpectedPrevious scene none

/-- The report of a semicolon right behind the opening of a bracket. -/
def ofHollow (scene : Scene) (opening : Taken) (before : List Taken) : Report :=
  let closing := (closerOf? opening.spelling).getD ""
  let beyond := beyondNext scene
  let closes := beyond.head?.map (fun c => String.ofList [c]) == some closing
  let first := match before with
    | token :: _ => if token.spelling == "=" then token else opening
    | [] => opening
  match bracketOf scene.spellings with
  | .condition => unexpectedSince scene (before.headD opening)
  | .index => unexpectedPrevious scene none
  | .hole => unexpectedPrevious scene none
  | .group =>
    if !closes then unexpectedSince scene first
    else if (beyond.drop 1).isEmpty then scene.whole
    else scene.unexpectedBetween first.place (afterClosers scene)
  | .list =>
    if closes then unexpectedNext scene
    else if beyond.isEmpty || isNested 0 0 scene.spellings.tail == (opening.spelling == "[") then
      missingAfter scene closing
    else unexpectedPrevious scene none

/-- The report of a token right behind the opening of a bracket. -/
def ofOpening (scene : Scene) : Report :=
  match scene.tokens with
  | opening :: before =>
    let next := nextToken scene
    if closesInnermost scene next then
      match bracketOf scene.spellings with
      | .group => unexpectedPrevious scene (some (afterNext scene))
      | .list => unexpectedPrevious scene (some (afterNext scene))
      | _ => missingAfter scene "identifier"
    else if next == ";" then ofHollow scene opening before
    else unexpectedNext scene
  | [] => unexpectedNext scene

end ShapeAudit.Source.Report
