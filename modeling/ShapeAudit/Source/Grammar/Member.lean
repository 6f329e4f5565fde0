import ShapeAudit.Source.Grammar.Function

/-!
Entries of objects and members of classes. The words `static`, `async`, `get` and `set` are
modifiers only where something follows that they can modify; otherwise they are names.
-/

namespace ShapeAudit.Source.Grammar

open Reading

/-! ## Modifiers and names -/

/-- The length of `static` and `get` with blanks between them and a line break behind them, which
count as a single token. -/
def staticGet (chars : List Char) : Nat :=
  let first := Lexeme.piece "static".toList chars
  let afterFirst := chars.drop first
  let blanks := Lexeme.run isSpace afterFirst
  let afterBlanks := afterFirst.drop blanks
  let second := Lexeme.piece "get".toList afterBlanks
  let afterSecond := afterBlanks.drop second
  let closing := afterSecond.take (Lexeme.run isSpace afterSecond)
  let upToBreak := (closing.reverse.dropWhile (· ≠ '\n')).length
  if first > 0 && blanks > 0 && second > 0 && upToBreak > 0 then
    first + blanks + second + upToBreak
  else 0

/-- What follows a word: what is known of it and the text from there on. -/
def beyondWord (mode : Mode) (length : Nat) : Reading (Mark × List Char) := do
  match ← attempt (do
      let _ ← takeToken length
      let mark ← peek mode
      return (mark, ← here)) with
  | .ok (result, _) => return result
  | .error _ => return (.token, [])

/-- Whether a text begins with one of some characters or is empty. -/
def beginsWith (signs : List Char) (chars : List Char) : Bool :=
  match chars with
  | [] => true
  | c :: _ => signs.contains c

/-- Whether a word is a name in a class or object, because what follows ends the name. -/
def isNameBefore (inClass : Bool) (mark : Mark) (chars : List Char) : Bool :=
  if inClass then mark = .semicolon || beginsWith ['(', '=', ';', '\x7d'] chars
  else beginsWith ['(', ':', ',', '=', '\x7d'] chars

/-- What may follow a word in a class or object. -/
def memberMode (inClass : Bool) : Mode :=
  if inClass then .close else .free

/-- Reads a word as a modifier, if it is one of the given words and no name. -/
def modifier (inClass : Bool) (spellings : List String) : Reading (List Child) := do
  let found ← nextWord
  if spellings.contains found then
    let (mark, chars) ← beyondWord (memberMode inClass) found.length
    if isNameBefore inClass mark chars || (inClass && found = "static" && chars.head? = some '\x7b')
    then return []
    else takeToken found.length
  else return []

/-- The modifiers of a member, and whether they make it a method. -/
structure Modifiers where
  forMethod : Bool
  children : List Child

/-- Reads the modifiers of a member. -/
def modifiers (inClass : Bool) : Reading Modifiers := do
  let combined := staticGet (← ahead)
  let still ←
    if combined > 0 then do
      let before ← comments
      let _ ← takeToken combined
      pure (before ++ [(none, Tree.token "static get")])
    else modifier inClass ["static"]
  let waiting ← modifier inClass ["async"]
  let access ← modifier inClass ["get", "set"]
  let star ← onlyIf access.isEmpty (optional "*")
  return ⟨combined > 0 || !waiting.isEmpty || !access.isEmpty || !star.isEmpty ||
      (!inClass && !still.isEmpty),
    still ++ waiting ++ access ++ star⟩

/-- Reads a computed name. -/
def computedName (descend : Descend) : Reading (List Child) :=
  node .computedPropertyName do
    inTurn [token "[", innerExpression descend, token "]"]

/-- Reads the name of a member. -/
def propertyName (descend : Descend) : Reading (List Child) := do
  match ← ahead with
  | [] => stop .operand
  | c :: rest =>
    if c = '#' then privateName
    else if c = '"' || c = '\x27' then string
    else if c = '[' then computedName descend
    else if Lexeme.number (c :: rest) > 0 then number
    else word .propertyIdentifier

/-- Reads a method from its parameters on. -/
def methodTail (descend : Descend) : Reading (List Child) :=
  inTurn [field "parameters" (parameters descend), field "body" (block descend .close)]

/-! ## Objects -/

/-- Reads the elements of an array literal. -/
def arrayLiteral (descend : Descend) : Reading (List Child) :=
  node .array do
    inTurn [token "[", listed "]" true (element descend .element)]

/-- Reads what follows the name of an entry: the value of a pair or the rest of a method. -/
def afterName (descend : Descend) (name : List Child) : Reading (Kind × List Child) := do
  if ← isNext "(" then
    return (.methodDefinition, inField "name" name ++ (← methodTail descend))
  else
    let colon ← token ":"
    let value ← field "value" (element descend .element)
    return (.pair, inField "key" name ++ colon ++ value)

/-- Reads the default of an entry that only a pattern may hold. -/
def entryDefault (descend : Descend) (left : List Child) : Reading (List Child) := do
  let sign ← token "="
  let value ← field "right" (innerExpression descend)
  return inField "left" left ++ sign ++ value

/-- Reads an entry whose name is a word. -/
def wordEntry (descend : Descend) : Reading (List Child) := do
  let chars ← ahead
  let (_, beyond) ← beyondWord .free (Lexeme.word chars)
  if beyond.head? = some ':' || beyond.head? = some '(' then
    construct do
      let name ← word .propertyIdentifier
      afterName descend name
  else if beyond.head? = some '=' then
    node .objectAssignmentPattern do
      let name ← word .shorthandPropertyIdentifierPattern
      entryDefault descend name
  else word .shorthandPropertyIdentifier

/-- Reads an entry that begins with a bracket: a computed name, or a pattern with a default. -/
def bracketEntry (descend : Descend) : Reading (List Child) :=
  construct do
    let start ← cursor
    let (before, tree) := splitLast (← arrayLiteral descend)
    match tree with
    | .branch .array place children =>
      if ← isNext "=" then
        match toPattern? .target tree with
        | some pattern =>
          return (.objectAssignmentPattern, ← entryDefault descend (before ++ [(none, pattern)]))
        | none => fun _ => .error (.here start .operand)
      else
        let proper := children.filter fun (_, child) => !child.isExtra
        if proper.length = 3 && isSettled tree &&
            proper.all (fun (_, child) => !child.isA .spreadElement && child.spelling ≠ ",") then
          afterName descend (before ++ [(none, .branch .computedPropertyName place children)])
        else stop .operand
    | _ => stop .operand

/-- Reads an entry of an object. -/
def entry (descend : Descend) : Reading (List Child) := do
  match ← ahead with
  | [] => stop .operand
  | c :: rest =>
    if c = '@' then
      construct do
        let marks ← decorators descend
        let found ← modifiers false
        let name ← field "name" (propertyName descend)
        return (.methodDefinition, marks ++ found.children ++ name ++ (← methodTail descend))
    else if ← isNext "..." then
      node .spreadElement do
        inTurn [token "...", descend (.expression 0 .element)]
    else if c = '\x7b' then
      node .objectAssignmentPattern do
        let left ← asTarget (descend .literal)
        entryDefault descend left
    else if c = '[' then bracketEntry descend
    else
      let start ← cursor
      let found ← modifiers false
      if found.forMethod then
        let name ← field "name" (propertyName descend)
        let tail ← methodTail descend
        return [(none, .branch .methodDefinition start.place (found.children ++ name ++ tail))]
      else if Lexeme.word (c :: rest) > 0 then wordEntry descend
      else
        construct do
          let name ← propertyName descend
          afterName descend name

/-- Reads an object literal, whose entries may be left out. -/
def objectLiteral (descend : Descend) : Reading (List Child) :=
  node .object do
    inTurn [token "\x7b", listed "\x7d" true (entry descend)]

/-! ## Templates in a class or an expression -/

/-- Reads a template element up to its closing tag. -/
def templateElement : Reading (List Child) :=
  node .glimmerTemplate do
    let _ ← token "<template>"
    let content ← repeated do
      let chars ← ahead
      if chars.isEmpty || (← isNext "</template>") then return none
      else do
        let _ ← takeToken 1
        return some []
    let _ ← token "</template>"
    return content

/-! ## Classes -/

/-- Reads a method or a field of a class with the sign that ends it. -/
def methodOrField (descend : Descend) : Reading (List Child) := do
  let start ← place
  let before ← comments
  let marks ← decorators descend
  let found ← modifiers true
  let name ← propertyName descend
  let mark ← peek (if found.forMethod then .free else .close)
  if mark = .token && (← isHere "(") then
    let tail ← methodTail descend
    let tree := Tree.branch .methodDefinition start
      (marks ++ found.children ++ inField "name" name ++ tail)
    return before ++ [(some "member", tree)] ++ (← optional ";")
  else if found.forMethod then stop (.token "(")
  else
    let assigned := mark = .token && (← isHere "=")
    let value ← onlyIf assigned do
      inTurn [token "=", field "value" (descend (.expression 0 .tail))]
    let tree := Tree.branch .fieldDefinition start
      (marks ++ found.children ++ inField "property" name ++ value)
    return before ++ [(some "member", tree)] ++ (← ending (if assigned then .tail else .close))

/-- Reads a member of a class. -/
def classMember (descend : Descend) : Reading (List Child) := do
  if ← isNext ";" then token ";"
  else if ← isNext "<template>" then field "template" templateElement
  else
    let (mark, beyond) ← beyondWord .close 6
    if (← isWord "static") && mark = .token && beyond.head? = some '\x7b' then
      field "member" <| node .classStaticBlock do
        inTurn [token "static", field "body" (block descend .close)]
    else methodOrField descend

/-- Reads the body of a class. -/
def classBody (descend : Descend) : Reading (List Child) :=
  node .classBody do
    let opening ← token "\x7b"
    let members ← repeated do
      if ← isNext "\x7d" then return none
      else if (← cursor).rest.isEmpty then stop (.token "\x7d")
      else return some (← classMember descend)
    return opening ++ members ++ (← token "\x7d")

/-- A class as it has been read: whether it has a name, and its children. -/
structure ClassParts where
  named : Bool
  children : List Child

/-- Reads a class from its decorators on. -/
def classParts (descend : Descend) : Reading ClassParts := do
  let marks ← decorators descend
  let keyword ← token "class"
  let found ← nextWord
  let named := found ≠ "" && found ≠ "extends"
  let name ← onlyIf named (field "name" (word .identifier))
  let heritage ← onlyIf (← isNext "extends") <| node .classHeritage do
    inTurn [token "extends", innerExpression descend]
  let body ← field "body" (classBody descend)
  return ⟨named, marks ++ keyword ++ name ++ heritage ++ body⟩

/-- Reads a class as an expression. -/
def classExpression (descend : Descend) : Reading (List Child) :=
  node .classExpression do
    return (← classParts descend).children

end ShapeAudit.Source.Grammar
