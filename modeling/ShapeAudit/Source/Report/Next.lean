import ShapeAudit.Source.Report.End

/-!
The token at which reading stopped, the tokens around it, and the plain reports about them.
-/

namespace ShapeAudit.Source.Report

/-! ## The token that comes next -/

/-- The token that comes next. -/
def nextToken (scene : Scene) : String :=
  String.ofList (scene.stop.rest.take (tokenLength scene.stop.rest))

/-- What follows the token that comes next, without blanks before it. -/
def beyondNext (scene : Scene) : List Char :=
  (scene.stop.rest.drop (tokenLength scene.stop.rest)).dropWhile Text.isBlank

/-- The place after the token that comes next. -/
def afterNext (scene : Scene) : Place :=
  (scene.stop.rest.take (tokenLength scene.stop.rest)).foldl Cursor.placeAfter scene.stop.place

/-- The token that comes next is not expected. -/
def unexpectedNext (scene : Scene) : Report :=
  unexpected scene.stop.place (scene.stop.rest.take (tokenLength scene.stop.rest))

/-- The latest token, with what follows it up to a place, is not expected. -/
def unexpectedPrevious (scene : Scene) (upTo : Option Place) : Report :=
  match scene.tokens with
  | token :: _ => scene.unexpectedBetween token.place (upTo.getD token.after)
  | [] => unexpectedNext scene

/-- Marks that can begin a statement. -/
def statementMarks : List String :=
  ["(", "[", "\x7b", ";", "+", "-", "!", "~", "++", "--", "/", "\x60", "<", "@"]

/-- Whether what follows can begin a statement. -/
def beginsStatement (chars : List Char) : Bool :=
  beginsOperand chars || statementMarks.contains (String.ofList (chars.take (tokenLength chars)))

/-- The place after the tokens that follow, as long as none of them ends the run. The number bounds
the characters that are passed, and the first place is where the latest token ends. -/
def afterTokens (ends : List Char → Bool) : Nat → Place → Place → List Char → Place
  | 0, last, _, _ => last
  | _, last, _, [] => last
  | fuel + 1, last, here, c :: rest =>
    if Text.isBlank c then afterTokens ends fuel last (Cursor.placeAfter here c) rest
    else if ends (c :: rest) then last
    else
      let length := tokenLength (c :: rest)
      let after := ((c :: rest).take length).foldl Cursor.placeAfter here
      afterTokens ends fuel after after ((c :: rest).drop length)

/-- The place after the token that comes next and a run of tokens behind it. -/
def afterRun (ends : List Char → Bool) (scene : Scene) : Place :=
  let after := afterNext scene
  afterTokens ends scene.stop.rest.length after after
    (scene.stop.rest.drop (tokenLength scene.stop.rest))

/-- The token that comes next and those behind it that cannot begin a statement are not expected. -/
def unexpectedRun (scene : Scene) : Report :=
  scene.unexpectedBetween scene.stop.place (afterRun beginsStatement scene)

/-- The place after the closing brackets that come next. -/
def afterClosers (scene : Scene) : Place :=
  afterRun (fun chars => !isCloser (String.ofList (chars.take 1))) scene

/-- What follows the closing brackets that come next. -/
def beyondClosers (scene : Scene) : List Char :=
  (textFrom (afterClosers scene) scene.stop.place scene.stop.rest).dropWhile Text.isBlank

/-- Something is missing right after the latest token. -/
def missingAfter (scene : Scene) (spelling : String) : Report :=
  match scene.stop.taken with
  | token :: _ => missing token.after spelling
  | [] => missing scene.stop.place spelling

/-- Whether a token closes the innermost open bracket. -/
def closesInnermost (scene : Scene) (spelling : String) : Bool :=
  match openings 0 scene.spellings with
  | opening :: _ => closerOf? opening == some spelling
  | [] => false

/-- Whether a token closes the open bracket around the innermost one. -/
def closesOuter (scene : Scene) (spelling : String) : Bool :=
  match openings 0 scene.spellings with
  | _ :: opening :: _ => closerOf? opening == some spelling
  | _ => false

/-- The token that opened the bracket which the latest token closed, and the tokens before it. The
number counts the closings that wait for their openings. -/
def groupStart? : Nat → List Taken → Option (Taken × List Taken)
  | _, [] => none
  | waiting, token :: rest =>
    if isCloser token.spelling then groupStart? (waiting + 1) rest
    else if (closerOf? token.spelling).isSome then
      if waiting ≤ 1 then some (token, rest) else groupStart? (waiting - 1) rest
    else groupStart? waiting rest

/-- The first token behind the innermost open bracket or the latest semicolon in it. The number
counts the closings that wait for their openings. -/
def innerStart? (found : Option Taken) : Nat → List Taken → Option Taken
  | _, [] => found
  | waiting, token :: rest =>
    if isCloser token.spelling then innerStart? (some token) (waiting + 1) rest
    else if (closerOf? token.spelling).isSome then
      if waiting = 0 then found else innerStart? (some token) (waiting - 1) rest
    else if waiting = 0 && token.spelling == ";" then found
    else innerStart? (some token) waiting rest

/-- The text from a token to the latest one is not expected. -/
def unexpectedSince (scene : Scene) (first : Taken) : Report :=
  scene.unexpectedBetween first.place
    ((scene.tokens.head?.map Taken.after).getD scene.stop.place)

end ShapeAudit.Source.Report
