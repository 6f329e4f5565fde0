import ShapeAudit.Source.Report.Basic

/-!
Reports of sources that end too early. Usually the whole statement is not expected. Where nothing but
the ends of blocks is missing, and they cost less than giving the statement up, the first of them is
reported as missing; and so is the statement that a head governs.
-/

namespace ShapeAudit.Source.Report

/-! ## What the end of the source leaves open -/

/-- Whether the source ends where reading stopped: nothing is left, or a literal or a comment begins
that does not end. -/
def endsEarly (stop : Stop) : Bool :=
  match stop.rest with
  | [] => true
  | c :: rest =>
    stop.wanted = .token "\x60" ||
      (!(c :: rest).contains '\n' && (((c == '"' || c == '\x27') && Lexeme.string stop.rest == 0) ||
        (c == '/' && stop.wanted = .operand)))

/-- The constructs that hold statements and can be closed by what is missing at the end. -/
def isHolder (kind : Kind) : Bool :=
  [.ifStatement, .elseClause, .whileStatement, .forStatement, .forInStatement, .withStatement,
    .labeledStatement, .tryStatement, .catchClause, .finallyClause, .switchStatement, .switchBody,
    .switchCase, .switchDefault, .functionDeclaration, .classDeclaration, .exportStatement,
    .statementBlock, .classBody].contains kind

/-- Whether a construct is closed by a brace. -/
def isBraced (kind : Kind) : Bool :=
  kind = .statementBlock || kind = .classBody || kind = .switchBody

/-- Whether a construct governs the statement behind it. -/
def governs (kind : Kind) : Bool :=
  [.ifStatement, .elseClause, .whileStatement, .forStatement, .forInStatement, .withStatement,
    .labeledStatement].contains kind

/-- Whether a construct is a clause of a statement that is complete without it. -/
def isClause (kind : Kind) : Bool :=
  kind = .elseClause || kind = .catchClause || kind = .finallyClause

/-- Whether constructs, the outermost first, can be closed one after the other: the body of a method
cannot, nor anything in a case but its statements. -/
def canClose : List Kind → Bool
  | [] => true
  | kind :: rest =>
    isHolder kind && canClose rest &&
      !(kind = .classBody && !rest.isEmpty) &&
      !((kind = .switchCase || kind = .switchDefault) && !rest.isEmpty)

/-- Whether a class or function without a name stands among tokens, the latest first. -/
def isNameless : List String → Bool
  | next :: before :: rest =>
    (before == "function" && next == "(") ||
      (before == "class" && (next == "\x7b" || next == "extends")) || isNameless (before :: rest)
  | _ => false

/-- Whether tokens, the latest first, begin a block with nothing but a labelled expression in it,
which could also be an object. -/
def isLabelled (tokens : List String) : Bool :=
  match tokens.reverse with
  | "\x7b" :: _ :: ":" :: rest => !rest.contains ";"
  | _ => false

/-- What one missing token costs. -/
def missingCost : Nat := 610

/-- What giving up the statement costs: something for a start, for each tree and for each
character. -/
def skippingCost (scene : Scene) : Nat :=
  let earlier := if scene.start.taken.isEmpty then 0 else 1
  500 + 100 * (treeCount 0 scene.spellings + earlier) + scene.start.rest.length

/-- The constructs of the statement in which reading stopped, the outermost first. -/
def constructs (scene : Scene) : List Kind :=
  scene.stop.within.drop 1

/-- Whether it is cheaper to close what is open than to give the statement up. -/
def closes (scene : Scene) (more : Nat) : Bool :=
  let kinds := constructs scene
  canClose kinds && !isNameless scene.spellings && !isLabelled scene.spellings &&
    missingCost * (kinds.countP isBraced + more) < skippingCost scene

/-- Whether the end of a block comes next. -/
def wantsBrace (scene : Scene) : Bool :=
  match (constructs scene).getLast?, scene.stop.wanted with
  | some .statementBlock, .statement => true
  | some .switchCase, .statement => true
  | some .switchDefault, .statement => true
  | some .switchBody, .token "\x7d" => true
  | some .classBody, .token "\x7d" => true
  | _, _ => false

/-- Whether a governed statement comes next. -/
def wantsGoverned (scene : Scene) : Bool :=
  scene.stop.wanted = .statement && (constructs scene).getLast?.any governs

/-! ## Reports -/

/-- The first token of the outermost clause that is no part of a block. -/
def clauseStart? (scene : Scene) : Option Place :=
  let outer := (constructs scene).takeWhile fun kind => kind ≠ .statementBlock
  match outer.find? isClause with
  | none => none
  | some kind =>
    let keyword := if kind = .elseClause then "else"
      else if kind = .catchClause then "catch" else "finally"
    (scene.tokens.reverse.find? fun token => token.spelling == keyword).map Taken.place

/-- Whether an unfinished template with text in it is all that is open. -/
def isOpenTemplate (scene : Scene) : Bool :=
  scene.stop.wanted = .token "\x60" && scene.previous == "\x60" && !scene.stop.rest.isEmpty &&
    (openings 0 scene.spellings).isEmpty

/-- Whether only the bracket behind the condition of a loop is missing. -/
def isOpenCondition (scene : Scene) : Bool :=
  constructs scene == [.doStatement, .parenthesizedExpression] && scene.stop.wanted = .token ")"

/-- Whether an `else` has nothing behind it, after a statement that a semicolon ended. -/
def isLoneElse (scene : Scene) : Bool :=
  constructs scene == [.ifStatement, .elseClause] &&
    (match scene.spellings with
    | "else" :: ";" :: _ => true
    | _ => false)

/-- The report if the source ends too early. -/
def ofEnd (scene : Scene) : Report :=
  let place := scene.stop.place
  if isOpenTemplate scene then
    match scene.tokens with
    | token :: _ => unexpected token.place ['\x60']
    | [] => scene.whole
  else if isOpenCondition scene then missing place ")"
  else if wantsBrace scene && closes scene 0 then missing place "\x7d"
  else if wantsGoverned scene && !isLoneElse scene && closes scene 1 then missing place ";"
  else match clauseStart? scene with
    | some first => scene.unexpectedFrom first
    | none => scene.whole

end ShapeAudit.Source.Report
