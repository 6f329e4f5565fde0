import ShapeAudit.Source.Grammar.Operator

/-!
Statements and declarations.
-/

namespace ShapeAudit.Source.Grammar

open Reading

/-! ## Expressions as statements -/

/-- Reads expressions as a statement. -/
def expressionStatement (descend : Descend) : Reading (List Child) :=
  node .expressionStatement do
    inTurn [descend (.expressions .tail), ending .tail]

/-- Whether what follows a construct can only go on with an expression that begins with it, because
no statement begins so, or because none may follow. -/
def continuesExpression (beforeWhile : Bool) (mark : Mark) (chars : List Char) : Bool :=
  match mark with
  | .question => true
  | .token =>
    match chars with
    | [] => false
    | c :: rest =>
      let found := String.ofList (chars.take (Lexeme.word chars))
      if beforeWhile then found ≠ "while" && found ≠ "else"
      else if found ≠ "" then found = "in" || found = "instanceof"
      else if Lexeme.number chars > 0 then false
      else if c = '.' || c = ',' || c = '?' then true
      else if c = '/' || c = '+' || c = '-' then false
      else if c = '<' then rest.head? = some '<' || rest.head? = some '='
      else (operatorAt? chars).isSome
  | _ => false

/-! ## Declarations -/

/-- Reads one declared name with its initial value. -/
def declarator (descend : Descend) (context : Context) : Reading (List Child) :=
  node .variableDeclarator do
    let name ← field "name" (binding descend)
    let mark ← peek .close
    let value ← onlyIf (mark = .token && (← isHere "=")) do
      inTurn [takeToken 1, field "value" (descend (.expression 0 context))]
    return name ++ value

/-- Reads declared names with commas between them. -/
def declarators (descend : Descend) : Reading (List Child) := do
  let first ← declarator descend .tail
  let others ← repeated do
    if ← isHere "," then return some ((← takeToken 1) ++ (← declarator descend .tail))
    else return none
  return first ++ others

/-- Reads a declaration with `var`, `let` or `const`. -/
def bindings (descend : Descend) (keyword : String) : Reading (List Child) :=
  if keyword = "var" then
    node .variableDeclaration do
      inTurn [takeToken 3, declarators descend, ending .close]
  else
    node .lexicalDeclaration do
      inTurn [field "kind" (takeToken keyword.length), declarators descend, ending .close]

/-- Whether `let` stands next and declares something. In the head of a loop, `of` does not become a
name. -/
def isLetDeclaration (inHead : Bool) : Reading Bool := do
  let (mark, beyond) ← beyondWord .tail 3
  let next := String.ofList (beyond.take (Lexeme.word beyond))
  return mark = .token && (beyond.head? = some '[' || beyond.head? = some '\x7b' ||
    (next ≠ "" && next ≠ "in" && next ≠ "instanceof" && !(inHead && next = "of")))

/-- What an attempt to read a declaration has led to. -/
def declared (beforeWhile : Bool) (kind : Kind) (named : Bool) (children : List Child) (start : Cursor)
    (later : Cursor) : Reading (Option (List Child)) := do
  let chars := if later.mark = .token then later.rest else []
  if !named || continuesExpression beforeWhile later.mark chars then return none
  else
    resume { later with passed := later.passed }
    return some ((start.passed.reverse.map fun tree => (none, tree)) ++
      [(none, .branch kind start.place children)])

/-- Reads a function as a declaration, unless it has no name or an expression goes on with it. -/
def functionDeclaration? (descend : Descend) (beforeWhile : Bool) : Reading (Option (List Child)) := do
  let _ ← place
  let start ← cursor
  match ← attempt (do
      let _ ← comments
      inside .functionDeclaration (functionParts descend)) with
  | .ok (parts, later) =>
    declared beforeWhile (if parts.generator then .generatorFunctionDeclaration else .functionDeclaration)
      parts.named parts.children start later
  | .error stopped => fun _ => .error stopped

/-- Reads a class as a declaration, unless it has no name or an expression goes on with it. -/
def classDeclaration? (descend : Descend) (beforeWhile : Bool) : Reading (Option (List Child)) := do
  let _ ← place
  let start ← cursor
  match ← attempt (do
      let _ ← comments
      let parts ← inside .classDeclaration (classParts descend)
      afterBlock .tail
      return parts) with
  | .ok (parts, later) => 
    declared beforeWhile .classDeclaration parts.named parts.children start later
  | .error stopped => fun _ => .error stopped

/-- The keywords that begin a declaration. -/
def declarationWords : List String :=
  ["var", "const", "let", "function", "async", "class"]

/-- Reads a declaration, if one begins with the given keyword. -/
def declarationFrom? (descend : Descend) (beforeWhile : Bool) (keyword : String) :
    Reading (Option (List Child)) := do
  match keyword with
  | "var" => return some (← bindings descend "var")
  | "const" => return some (← bindings descend "const")
  | "let" => if ← isLetDeclaration false then return some (← bindings descend "let") else return none
  | "function" => functionDeclaration? descend beforeWhile
  | "async" =>
    let (mark, beyond) ← beyondWord .tail 5
    if mark = .token && beyond.take (Lexeme.word beyond) = "function".toList then
      functionDeclaration? descend beforeWhile
    else return none
  | "class" => classDeclaration? descend beforeWhile
  | _ => return none

/-- Reads a declaration, if one stands next. -/
def declaration? (descend : Descend) (beforeWhile : Bool) : Reading (Option (List Child)) := do
  if ← isNext "@" then classDeclaration? descend beforeWhile
  else declarationFrom? descend beforeWhile (← nextWord)

/-! ## Loops and branches -/

/-- Reads the statement that a construct governs. -/
def governed (descend : Descend) (beforeWhile : Bool) : Reading (List Child) :=
  field "body" (descend (.statement beforeWhile))

/-- Reads `if`. -/
def ifStatement (descend : Descend) (beforeWhile : Bool) : Reading (List Child) :=
  node .ifStatement do
    let keyword ← takeToken 2
    let test ← field "condition" (condition descend)
    let consequence ← field "consequence" (descend (.statement beforeWhile))
    let alternative ← onlyIf (← isWord "else") <| field "alternative" <| node .elseClause do
      inTurn [takeToken 4, descend (.statement beforeWhile)]
    return keyword ++ test ++ consequence ++ alternative

/-- Reads statements up to the next case or the end of a switch. -/
def caseBody (descend : Descend) : Reading (List Child) :=
  field "body" <| repeated do
    let found ← nextWord
    if (← isNext "\x7d") || found = "case" || found = "default" then return none
    else return some (← descend (.statement false))

/-- Reads one case of a switch. -/
def switchCase (descend : Descend) : Reading (Option (List Child)) := do
  if ← isNext "case" then
    return some (← node .switchCase do
      inTurn [takeToken 4, field "value" (descend (.expressions .inner)), token ":",
        caseBody descend])
  else if ← isNext "default" then
    return some (← node .switchDefault do inTurn [takeToken 7, token ":", caseBody descend])
  else return none

/-- Reads `switch`. -/
def switchStatement (descend : Descend) : Reading (List Child) :=
  node .switchStatement do
    inTurn [takeToken 6, field "value" (condition descend),
      field "body" <| node .switchBody do
        inTurn [token "\x7b", repeated (switchCase descend), token "\x7d"]]

/-- Whether the operator of a loop over members or values stands here. -/
def isLoopOperator : Reading Bool := do
  return ((← isHere "in") && !(← isHere "instanceof")) || (← isHere "of")

/-- Reads an array pattern on the left side of a loop, if the operator of the loop follows it. -/
def loopPattern? (descend : Descend) : Reading (Option (List Child)) := do
  if ← isNext "[" then
    match ← attempt (do
        let target ← asTarget (descend .literal)
        let _ ← ahead
        return (target, ← isLoopOperator)) with
    | .ok ((target, true), later) => do
      resume later
      return some (inField "left" target)
    | _ => return none
  else return none

/-- Reads the left side of a loop over members or values. -/
def loopTarget (descend : Descend) : Reading (List Child) := do
  match ← nextWord with
  | "var" =>
    let keyword ← field "kind" (takeToken 3)
    let name ← field "left" (binding descend)
    let mark ← peek .close
    let value ← onlyIf (mark = .token && (← isHere "=")) do
      inTurn [takeToken 1,
        field "value" (descend (.expression 0 { ends := true, withoutIn := true }))]
    return keyword ++ name ++ value
  | found =>
    if found = "const" || (found = "let" && (← isLetDeclaration true)) then
      let keyword ← field "kind" (takeToken found.length)
      let name ← field "left" (binding descend)
      let _ ← peek .close
      return keyword ++ name
    else match ← loopPattern? descend with
      | some children => return children
      | none =>
        let start ← cursor
        let (before, tree) :=
          splitLast (← descend (.operand true { ends := true, mayStayOpen := true }))
        let _ ← peek .tail
        match toTarget? tree with
        | some target => return before ++ [(some "left", target)]
        | none => fun _ => .error (.here start .operand)

/-- Reads a loop over members or values. -/
def forInStatement (descend : Descend) (beforeWhile : Bool) : Reading (List Child) :=
  node .forInStatement do
    let keyword ← takeToken 3
    let waiting ← optional "await"
    let opening ← token "("
    let left ← loopTarget descend
    let operator ← field "operator" do
      if ← isLoopOperator then takeToken 2 else stop (.token "of")
    let right ← field "right" (descend (.expressions .inner))
    let closing ← token ")"
    return keyword ++ waiting ++ opening ++ left ++ operator ++ right ++ closing ++
      (← governed descend beforeWhile)

/-- Reads a statement in the head of a loop: nothing, a declaration if allowed, or expressions. -/
def headStatement (descend : Descend) (declares : Bool) : Reading (List Child) := do
  if ← isNext ";" then takeLeaf .emptyStatement 1
  else
    let found ← nextWord
    if declares && (found = "var" || found = "const" ||
        (found = "let" && (← isLetDeclaration true))) then
      bindings descend found
    else expressionStatement descend

/-- Reads a loop with three parts in its head. -/
def forStatement (descend : Descend) (beforeWhile : Bool) : Reading (List Child) :=
  node .forStatement do
    let keyword ← takeToken 3
    let opening ← token "("
    let first ← field "initializer" (headStatement descend true)
    let second ← field "condition" (headStatement descend false)
    let third ← onlyIf (!(← isNext ")")) (field "increment" (descend (.expressions .inner)))
    let closing ← token ")"
    return keyword ++ opening ++ first ++ second ++ third ++ closing ++ (← governed descend beforeWhile)

/-- Reads a loop that begins with its condition. -/
def whileStatement (descend : Descend) (beforeWhile : Bool) : Reading (List Child) :=
  node .whileStatement do
    inTurn [takeToken 5, field "condition" (condition descend), governed descend beforeWhile]

/-- Reads a loop that ends with its condition. -/
def doStatement (descend : Descend) : Reading (List Child) :=
  node .doStatement do
    let head ← inTurn [takeToken 2, governed descend true, token "while",
      field "condition" (condition descend)]
    match ← peek .close with
    | .semicolon => do
      consumeMark
      return head
    | _ => if ← isHere ";" then return head ++ (← takeToken 1) else return head

/-- Reads `with`. -/
def withStatement (descend : Descend) (beforeWhile : Bool) : Reading (List Child) :=
  node .withStatement do
    inTurn [takeToken 4, field "object" (condition descend), governed descend beforeWhile]

/-- Reads `try` with its clauses. -/
def tryStatement (descend : Descend) : Reading (List Child) :=
  node .tryStatement do
    let body ← inTurn [takeToken 3, field "body" (block descend .close)]
    let handler ← onlyIf (← isWord "catch") <| field "handler" <| node .catchClause do
      let keyword ← takeToken 5
      let caught ← onlyIf (← isNext "(") <|
        inTurn [token "(", field "parameter" (binding descend), token ")"]
      return keyword ++ caught ++ (← field "body" (block descend .close))
    let finalizer ← onlyIf (← isWord "finally") <| field "finalizer" <| node .finallyClause do
      inTurn [takeToken 7, field "body" (block descend .close)]
    return body ++ handler ++ finalizer

/-! ## Jumps -/

/-- Reads a jump to a label. -/
def jump (kind : Kind) (keyword : String) : Reading (List Child) :=
  node kind do
    let head ← takeToken keyword.length
    let mark ← peek .close
    let labelled := mark = .token && Lexeme.word (← here) > 0
    let target ← onlyIf labelled (field "label" (word .statementIdentifier))
    return head ++ target ++ (← ending .close)

/-- Reads `return`. -/
def returnStatement (descend : Descend) : Reading (List Child) :=
  node .returnStatement do
    let keyword ← takeToken 6
    let mark ← peek .close
    if mark = .semicolon || (← isHere ";") then return keyword ++ (← ending .close)
    else return keyword ++ (← descend (.expressions .tail)) ++ (← ending .tail)

/-- Reads `throw`. -/
def throwStatement (descend : Descend) : Reading (List Child) :=
  node .throwStatement do
    inTurn [takeToken 5, descend (.expressions .tail), ending .tail]

/-- Reads `debugger`. -/
def debuggerStatement : Reading (List Child) :=
  node .debuggerStatement do inTurn [takeToken 8, ending .close]

/-! ## Labels -/

/-- Reads a statement that begins with a name: with a label if a colon follows, and an expression
otherwise. -/
def labelOrExpression (descend : Descend) (beforeWhile : Bool) (found : String) : Reading (List Child) := do
  if found = "" || leadingWords.contains found then expressionStatement descend
  else
    let (mark, beyond) ← beyondWord .tail found.length
    if mark = .token && beyond.head? = some ':' then
      node .labeledStatement do
        let name ← field "label" (word .statementIdentifier)
        let _ ← peek .tail
        return name ++ (← token ":") ++ (← governed descend beforeWhile)
    else expressionStatement descend

end ShapeAudit.Source.Grammar
