import ShapeAudit.Source.Grammar.Member

/-!
Operands: literals, names, parenthesised expressions and arrow functions, what may be attached to
them from behind (members, subscripts, calls, `++`), what may stand in front of them, and
assignments, which begin with an operand and take in everything that follows.
-/

namespace ShapeAudit.Source.Grammar

open Reading

/-! ## Templates -/

/-- Reads one piece of a template: a stretch of text, an escape or a substitution. -/
def templatePiece (descend : Descend) : Reading (Option (List Child)) := do
  let position ← cursor
  match Lexeme.templateText position.rest with
  | length + 1 => return some (← takeLeaf .stringFragment (length + 1))
  | 0 =>
    match Lexeme.escape position.rest with
    | length + 1 => return some (← takeLeaf .escapeSequence (length + 1))
    | 0 =>
      if (Text.afterPrefix? ['$', '\x7b'] position.rest).isSome then
        return some [(none, .branch .templateSubstitution position.place
          (← inTurn [takeToken 2, descend (.expressions .inner), token "\x7d"]))]
      else return none

/-- Reads a template. -/
def template (descend : Descend) : Reading (List Child) :=
  node .templateString do
    let opening ← token "\x60"
    let pieces ← repeated (templatePiece descend)
    let position ← cursor
    if position.rest.head? = some '\x60' then return opening ++ pieces ++ (← takeToken 1)
    else stop (.token "\x60")

/-! ## Arrow functions -/

/-- The words that begin a statement or an expression and so are no names of entries where a brace
may open either a block or an object. -/
def leadingWords : List String :=
  ["import", "if", "switch", "for", "do", "try", "break", "continue", "debugger", "return", "throw",
    "yield", "new", "typeof", "void", "delete", "this", "super", "true", "false", "null",
    "undefined", "var", "const", "while", "with", "function", "class", "await"]

/-- Stops if a brace is followed by a word that cannot be the name of an entry here: one that begins
a statement, or a name that a comma or the end of a statement follows, which is an expression. -/
def requireEntry : Reading Unit := do
  let found ← attempt (do
    let _ ← token "\x7b"
    let first ← nextWord
    let (mark, beyond) ← beyondWord .tail first.length
    return (first, mark, beyond))
  match found with
  | .ok ((first, mark, beyond), after) =>
    if leadingWords.contains first ||
        (first ≠ "" && (mark ≠ .token || beginsWith [','] beyond)) then
      fun _ => .error (.here after .operand)
    else pure ()
  | .error stopped => fun _ => .error stopped

/-- The statements of a block. -/
def statementsOf (children : List Child) : List Tree :=
  match (splitLast children).2 with
  | .branch .statementBlock _ inner => (inner.map Prod.snd).filter Tree.isProper
  | _ => []

/-- Whether a statement is a call without arguments of a name. -/
def isBareCall (tree : Tree) : Bool :=
  match tree with
  | .branch .expressionStatement _ ((_, .branch .callExpression _ parts) :: _) =>
    parts.any (fun (field, child) => field = some "function" && child.isA .identifier) &&
      parts.any fun (field, child) => field = some "arguments" && child.spelling = "()"
  | _ => false

/-- Whether a block may as well be an object: it begins with a label, which may be the name of a
pair, or with a call and a block, which may be a method. -/
def mayBeObject (children : List Child) : Bool :=
  match statementsOf children with
  | first :: second :: _ =>
    first.isA .labeledStatement ||
      (isBareCall first && Text.startsWith second.spelling "\x7b")
  | [first] => first.isA .labeledStatement
  | [] => false

/-- Whether a block may as well be a pattern that begins with a name and its default: it holds
expressions in sequence, and the first assigns to a name. -/
def mayBePattern (children : List Child) : Bool :=
  match statementsOf children with
  | [.branch .expressionStatement _ ((_, .branch .sequenceExpression _ ((_, first) :: _)) :: _)] =>
    match first with
    | .branch .assignmentExpression _ ((_, target) :: _) => target.isA .identifier
    | _ => false
  | _ => false

/-- Whether an equals sign follows that assigns. -/
def assigns (chars : List Char) : Bool :=
  match chars with
  | '=' :: '=' :: _ => false
  | '=' :: '>' :: _ => false
  | '=' :: _ => true
  | _ => false

/-- Reads what begins with a brace and is a block or an object. It is a block if it can be one, but
an object if it can be both and begins like one, if it is a pattern to which something is assigned,
or if it is empty and what follows can only go on with an expression. -/
def blockOrObject (descend : Descend) (mode : Mode) (continues : Mark → List Char → Bool)
    (object : Reading (List Child)) : Reading (List Child) := do
  let guarded : Reading (List Child) := do
    requireEntry
    object
  match ← attempt (block descend mode) with
  | .error stopped =>
    if stopped.atEnd then fun _ => .error stopped
    else match ← attempt guarded with
      | .ok (children, later) => do
        resume later
        return children
      | .error other => fun _ => .error (stopped.later other)
  | .ok (children, later) =>
    let following := if later.mark = .token then later.rest else []
    let ambiguous :=
      if (statementsOf children).isEmpty then continues later.mark following
      else mayBeObject children || (mayBePattern children && assigns following)
    if ambiguous then
      match ← attempt guarded with
      | .ok (other, after) => do
        resume after
        return other
      | .error _ => do
        resume later
        return children
    else do
      resume later
      return children

/-- Reads the body of an arrow function. -/
def arrowBody (descend : Descend) (context : Context) : Reading (List Child) :=
  field "body" do
    if ← isNext "\x7b" then
      blockOrObject descend .tail (fun _ chars => assigns chars)
        (descend (.expression 0 context.operand))
    else descend (.expression 0 context.operand)

/-- Reads an arrow function from its arrow on. -/
def arrowTail (descend : Descend) (context : Context) (start : Place) (before head : List Child) :
    Reading (List Child) := do
  let sign ← token "=>"
  let body ← arrowBody descend context
  return before ++ [(none, .branch .arrowFunction start (head ++ sign ++ body))]

/-! ## Parentheses -/

/-- The parts of a list in parentheses that are neither signs nor comments. -/
def itemsOf (children : List Child) : List Child :=
  children.filter fun (_, child) => child.isProper

/-- Whether a list in parentheses ends with a comma. -/
def hasLastComma (children : List Child) : Bool :=
  match (children.filter fun (_, child) => !child.isExtra).reverse with
  | _ :: (_, child) :: _ => child.spelling = "," && child.kind?.isNone
  | _ => false

/-- Turns items with commas between them into one sequence, if they are several. -/
def joinItems (children : List Child) : List Child :=
  match itemsOf children with
  | (_, first) :: _ :: _ =>
    let inside := (children.drop 1).dropLast
    children.take 1 ++ [(none, .branch .sequenceExpression (placeOf first) inside)] ++
      children.drop (children.length - 1)
  | _ => children

/-- Reads a list in parentheses, which is the parameters of an arrow function if an arrow follows,
and otherwise an expression. -/
def parenthesized (descend : Descend) (context : Context) : Reading (List Child) := do
  let start ← place
  let before ← comments
  let opening ← token "("
  let inside ← listed ")" false (element descend .element)
  let children := opening ++ inside
  let items := itemsOf children
  let closed := !items.isEmpty && !hasLastComma children &&
    items.all fun (_, item) => !item.isA .spreadElement
  let mark ← peek (if closed then context.mode else .free)
  if mark = .token && (← isHere "=>") then
    match toPatterns? .element children with
    | some converted =>
      arrowTail descend context start before
        [(some "parameters", .branch .formalParameters start converted)]
    | none => stop (.token ")")
  else if closed && items.all (fun (_, item) => isSettled item) then
    return before ++ [(none, .branch .parenthesizedExpression start (joinItems children))]
  else stop .operand

/-- Reads a parenthesised expression that belongs to a statement. -/
def condition (descend : Descend) : Reading (List Child) :=
  node .parenthesizedExpression do
    inTurn [token "(", descend (.expressions .inner), token ")"]

/-- Whether a list has a comma that no item precedes. -/
def hasGap : Bool → List Child → Bool
  | _, [] => false
  | filled, (_, child) :: rest =>
    if child.isExtra then hasGap filled rest
    else if child.kind?.isNone && child.spelling = "," then !filled || hasGap false rest
    else hasGap child.kind?.isSome rest

/-- Reads what begins with `async`: a function, an arrow function, or the name. -/
def asyncOperand (descend : Descend) (context : Context) : Reading (List Child) := do
  let (mark, beyond) ← beyondWord context.mode 5
  let next := beyond.take (Lexeme.word beyond)
  if mark = .token && next = "function".toList then functionExpression descend
  else
    let start ← place
    let before ← comments
    let name ← word .identifier
    let _ ← peek context.mode
    let chars ← here
    if (Text.afterPrefix? "=>".toList chars).isSome then
      arrowTail descend context start before (inField "parameter" name)
    else if chars.head? = some '(' then
      let (_, called) := splitLast (← arguments descend .element)
      match called with
      | .branch .arguments place children =>
        let _ ← peek context.mode
        if ← isHere "=>" then
          require (!hasGap false children) (.token ")")
          match toPatterns? .element children with
          | some converted =>
            arrowTail descend context start before
              [(none, .token "async"), (some "parameters", .branch .formalParameters place converted)]
          | none => stop (.token ")")
        else if isSettled (.branch .array place children) then
          return before ++ [(none, .branch .callExpression start
            (inField "function" name ++ [(some "arguments", called)]))]
        else stop .operand
      | _ => stop .operand
    else if Lexeme.word chars > 0 && next ≠ "in".toList && next ≠ "instanceof".toList &&
        next ≠ "of".toList then
      let parameter ← field "parameter" (word .identifier)
      arrowTail descend context start before ((none, .token "async") :: parameter)
    else return before ++ name

/-! ## What follows an operand -/

/-- Whether a tree is an operand that an optional call may follow. -/
def isPrimary (tree : Tree) : Bool :=
  match tree.kind? with
  | some .updateExpression | some .newExpression | some .jsxElement | some .jsxSelfClosingElement
  | some .glimmerTemplate | some .yieldExpression | some .importWord => false
  | _ => true

/-- Reads the name of a member. -/
def memberName : Reading (List Child) := do
  field "property" do
    if ← isNext "#" then privateName else word .propertyIdentifier

/-- What a step behind an operand may be. -/
structure Suffixes where
  /-- `++` and `--`. -/
  updates : Bool
  /-- Calls and templates. -/
  calls : Bool

/-- Reads one step behind an operand, if there is one. -/
def suffix (descend : Descend) (context : Context) (allowed : Suffixes) (base : Tree) :
    Reading (Option Tree) := do
  let isImport := base.isA .importWord
  let mark ← peek (if isImport then .free else context.mode)
  if mark ≠ .token then return none
  let chars ← here
  let make (kind : Kind) (baseField : String) (children : List Child) : Tree :=
    .branch kind (placeOf base) ((some baseField, base) :: children)
  match chars with
  | '?' :: '.' :: _ =>
    require (isSettled base) .operand
    let chain ← field "optional_chain" (takeLeaf .optionalChain 2)
    if ← isNext "(" then
      require (isPrimary base) .operand
      return some (make .callExpression "function"
        (chain ++ (← field "arguments" (arguments descend .inner))))
    else if ← isNext "[" then
      require (!isImport) .operand
      return some (make .subscriptExpression "object" (chain ++ (← inTurn
        [token "[", field "index" (descend (.expressions .inner)), token "]"])))
    else return some (make .memberExpression "object" (chain ++ (← memberName)))
  | '.' :: _ =>
    require (isSettled base) .operand
    let point ← takeToken 1
    return some (make .memberExpression "object" (point ++ (← memberName)))
  | '[' :: _ =>
    if isImport then return none
    require (isSettled base) .operand
    return some (make .subscriptExpression "object" (← inTurn
      [token "[", field "index" (descend (.expressions .inner)), token "]"]))
  | '(' :: _ =>
    if !allowed.calls then return none
    require (isSettled base) .operand
    return some (make .callExpression "function"
      (← field "arguments" (arguments descend .inner)))
  | '\x60' :: _ =>
    if !allowed.calls then return none
    require (isSettled base) .operand
    return some (make .callExpression "function" (← field "arguments" (template descend)))
  | '+' :: '+' :: _ | '-' :: '-' :: _ =>
    if !allowed.updates || isImport then return none
    require (isSettled base) .operand
    return some (make .updateExpression "argument" (← field "operator" (takeToken 2)))
  | _ => return none

/-- Reads all steps behind an operand. -/
def suffixes (descend : Descend) (context : Context) (allowed : Suffixes) :
    Nat → Tree → Reading Tree
  | 0, base => pure base
  | fuel + 1, base => do
    match ← suffix descend context allowed base with
    | some longer => suffixes descend context allowed fuel longer
    | none => pure base

/-- Reads all steps behind an operand, as many as the text that is left can hold. -/
def withSuffixes (descend : Descend) (context : Context) (allowed : Suffixes)
    (children : List Child) : Reading (List Child) := do
  let (before, base) := splitLast children
  let tree ← fun cursor =>
    suffixes descend context allowed (cursor.rest.length + 1) base cursor
  return before ++ [(none, tree)]

/-! ## Assignments -/

/-- The operators that compute and assign. -/
def assignmentOperators : List String :=
  [">>>=", "**=", "<<=", ">>=", "&&=", "||=", "??=", "+=", "-=", "*=", "/=", "%=", "&=", "|=", "^="]

/-- Reads the rest of an assignment, if the operand can be assigned to and an operator follows. -/
def withAssignment (descend : Descend) (context : Context) (children : List Child) :
    Reading (List Child) := do
  let (before, tree) := splitLast children
  let mark ← peek context.mode
  if mark ≠ .token then return children
  let chars ← here
  if assigns chars && isAssignable tree then
    match toTarget? tree with
    | some target =>
      let sign ← takeToken 1
      let value ← field "right" (descend (.expression 0 context.operand))
      return around .assignmentExpression before tree ((some "left", target) :: sign ++ value)
    | none => stop .operand
  else
    match assignmentOperators.find? fun sign => (Text.afterPrefix? sign.toList chars).isSome with
    | some sign =>
      if isUpdatable tree then
        let operator ← field "operator" (takeToken sign.length)
        let value ← field "right" (descend (.expression 0 context.operand))
        return around .augmentedAssignmentExpression before tree
          ((some "left", tree) :: operator ++ value)
      else return children
    | none => return children

/-! ## What stands before an operand -/

/-- Reads an operand with an operator before it. -/
def unary (descend : Descend) (context : Context) (length : Nat) : Reading (List Child) :=
  node .unaryExpression do
    inTurn [field "operator" (takeToken length),
      field "argument" (descend (.operand true context.operand))]

/-- Whether a text can begin an operand of `yield`. -/
def beginsOperand (chars : List Char) : Bool :=
  match chars with
  | [] => false
  | '!' :: '=' :: _ => false
  | '<' :: '=' :: _ => false
  | '<' :: '<' :: _ => false
  | c :: rest =>
    let found := String.ofList ((c :: rest).take (Lexeme.word (c :: rest)))
    if found ≠ "" then found ≠ "in" && found ≠ "instanceof"
    else Lexeme.number (c :: rest) > 0 ||
      ['"', '\x27', '\x60', '(', '[', '\x7b', '+', '-', '!', '~', '/', '<', '#', '@'].contains c

/-- Reads what begins with `yield`. -/
def yieldOperand (descend : Descend) (context : Context) : Reading (List Child) := do
  let children ← node .yieldExpression do
    let keyword ← takeToken 5
    let mark ← peek context.mode
    let chars ← here
    if mark ≠ .token then return keyword
    match chars with
    | '*' :: '*' :: _ => return keyword
    | '*' :: _ => return keyword ++ (← takeToken 1) ++ (← descend (.expression 0 context.operand))
    | _ =>
      if beginsOperand chars then return keyword ++ (← descend (.expression 0 context.operand))
      else return keyword
  match (splitLast children).2 with
  | .branch _ _ [_] => do
    let whole ← withSuffixes descend context ⟨true, true⟩ children
    withAssignment descend context whole
  | _ => return children

/-- Reads what begins with `new`. -/
def newOperand (descend : Descend) (context : Context) : Reading (List Child) := do
  let (_, beyond) ← beyondWord .free 3
  if beyond.head? = some '.' && Lexeme.number beyond = 0 then
    node .metaProperty do
      inTurn [takeToken 3, token ".", token "target"]
  else
    node .newExpression do
      let keyword ← takeToken 3
      let target ← field "constructor" (descend (.constructed context.operand))
      let mark ← peek context.mode
      let called ← onlyIf (mark = .token && (← isHere "("))
        (field "arguments" (arguments descend .inner))
      return keyword ++ target ++ called

/-- Reads a private name on the left of `in`, with the expression on the right. -/
def privateIn (descend : Descend) (context : Context) : Reading (List Child) :=
  node .binaryExpression do
    let name ← field "left" privateName
    if ← isNext "in" then
      return name ++ (← field "operator" (takeToken 2)) ++
        (← field "right" (descend (.expression 8 context.operand)))
    else stop (.token "in")

/-! ## Operands -/

/-- Reads a name, which an arrow may follow. -/
def nameOperand (descend : Descend) (context : Context) (kind : Kind) : Reading (List Child) := do
  let start ← place
  let before ← comments
  let name ← word kind
  let mark ← peek context.mode
  if kind = .identifier && mark = .token && (← isHere "=>") then
    arrowTail descend context start before (inField "parameter" name)
  else return before ++ name

/-- Reads an operand that begins with a word. -/
def wordOperand (descend : Descend) (context : Context) (found : String) :
    Reading (List Child) :=
  match found with
  | "function" => functionExpression descend
  | "async" => asyncOperand descend context
  | "class" => classExpression descend
  | "import" => node .importWord (takeToken 6)
  | "this" => word .thisWord
  | "super" => word .superWord
  | "true" => word .trueWord
  | "false" => word .falseWord
  | "null" => word .nullWord
  | "undefined" => word .undefinedWord
  | _ => nameOperand descend context .identifier

/-- Reads an operand with nothing before or behind it. -/
def primary (descend : Descend) (context : Context) : Reading (List Child) := do
  match ← ahead with
  | [] => stop .operand
  | c :: rest =>
    if c = '(' then parenthesized descend context
    else if c = '[' then arrayLiteral descend
    else if c = '\x7b' then objectLiteral descend
    else if c = '"' || c = '\x27' then string
    else if c = '\x60' then template descend
    else if c = '<' then
      if ← isNext "<template>" then templateElement else descend .jsxElement
    else if c = '@' then classExpression descend
    else if c = '/' then
      match Lexeme.regex (c :: rest) with
      | 0 => stop .operand
      | length => takeLeaf .regex length
    else
      let breaks := Lexeme.run isWideBreak (c :: rest)
      match Lexeme.number ((c :: rest).drop breaks) with
      | 0 => wordOperand descend context (← nextWord)
      | length => takeLeaf .number (breaks + length)

/-- Whether a tree needs a step behind it before `new` can be applied to it. -/
def isUnfinished (tree : Tree) : Bool :=
  match tree.kind? with
  | some .importWord | some .jsxElement | some .jsxSelfClosingElement | some .glimmerTemplate => true
  | _ => false

/-- Reads what `new` is applied to: another `new` with its arguments, or an operand with members and
subscripts, but no calls. -/
def constructed (descend : Descend) (context : Context) : Reading (List Child) := do
  let found ← nextWord
  require (!(["typeof", "void", "delete", "await", "yield"].contains found)) .operand
  let (_, beyond) ← beyondWord context.mode found.length
  if found = "new" then newOperand descend context
  else
    let first ←
      if found = "async" && beyond.head? = some '(' then word .identifier
      else primary descend context
    let (before, base) := splitLast first
    require (isSettled base) .operand
    let whole ← if isUnfinished base then do
        match ← suffix descend context ⟨false, true⟩ base with
        | some tree => pure (before ++ [(none, tree)])
        | none => stop .operand
      else pure first
    withSuffixes descend context ⟨false, false⟩ whole

/-- Whether an arrow function ends with an expression, so that nothing can be attached to it. -/
def isClosedArrow (tree : Tree) : Bool :=
  match tree with
  | .branch .arrowFunction _ children =>
    !children.any fun (field, child) => field = some "body" && child.isA .statementBlock
  | _ => false

/-- Reads an operand. -/
def operand (descend : Descend) (updates : Bool) (context : Context) : Reading (List Child) := do
  let chars ← ahead
  let found ← nextWord
  match chars with
  | '+' :: '+' :: _ | '-' :: '-' :: _ =>
    let updated ← node .updateExpression do
      inTurn [field "operator" (takeToken 2),
        field "argument" (descend (.operand false context.operand))]
    withSuffixes descend context ⟨updates, true⟩ updated
  | '!' :: _ | '~' :: _ | '-' :: _ | '+' :: _ => unary descend context 1
  | '#' :: _ => privateIn descend context
  | _ =>
    match found with
    | "typeof" | "void" | "delete" => unary descend context found.length
    | "await" =>
      node .awaitExpression do
        inTurn [takeToken 5, descend (.operand true context.operand)]
    | "yield" => yieldOperand descend context
    | "new" =>
      let created ← newOperand descend context
      let whole ← withSuffixes descend context ⟨updates, true⟩ created
      withAssignment descend context whole
    | _ =>
      let first ← primary descend context
      if isClosedArrow (splitLast first).2 then return first
      let whole ← withSuffixes descend context ⟨updates, true⟩ first
      require (!(splitLast whole).2.isA .importWord) .operand
      let result ← withAssignment descend context whole
      require (context.mayStayOpen || isSettled (splitLast result).2) .operand
      return result

end ShapeAudit.Source.Grammar
