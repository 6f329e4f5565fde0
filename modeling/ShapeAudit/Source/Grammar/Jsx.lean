import ShapeAudit.Source.Grammar.Basic

/-!
JSX elements. Between tags, text is a token of its own: blanks and line breaks around it do not
count, except that a stretch of other blank characters is text as well.
-/

namespace ShapeAudit.Source.Grammar

open Reading

/-! ## Text -/

/-- The length of a character reference such as `&amp;`. -/
def characterReference : List Char → Nat
  | '&' :: '#' :: mark :: rest =>
    let hexadecimal := Lexeme.run Text.isHexDigit rest
    let decimal := Lexeme.run Text.isAsciiDigit (mark :: rest)
    if (mark = 'x' || mark = 'X') && 1 ≤ hexadecimal && hexadecimal ≤ 6 &&
        (rest.drop hexadecimal).head? = some ';' then hexadecimal + 4
    else if 1 ≤ decimal && decimal ≤ 5 && ((mark :: rest).drop decimal).head? = some ';' then
      decimal + 3
    else 0
  | '&' :: rest =>
    let letters := Lexeme.run Text.isAsciiLetter rest
    if 1 ≤ letters && letters ≤ 30 && (rest.drop letters).head? = some ';' then letters + 2 else 0
  | _ => 0

/-- Whether a character ends text between tags. -/
def endsText (c : Char) : Bool :=
  c == '\x7b' || c == '\x7d' || c == '<' || c == '>' || c == '&' || c == '\n' || isNul c

/-- The length of text without the spaces at its end. -/
def plainText (chars : List Char) : Nat :=
  let stretch := chars.take (Lexeme.run (fun c => !endsText c) chars)
  (stretch.reverse.dropWhile (· = ' ')).length

/-- The length of a stretch of blank characters that counts as text, because it does not end with a
space, or of the text that begins with it. The flag tells whether the last character was no space. -/
def blankText (whole : List Char) : Bool → Nat → List Char → Nat
  | solid, length, [] => if solid then length else 0
  | solid, length, c :: rest =>
    if endsText c then (if solid then length else 0)
    else if c = ' ' then blankText whole false (length + 1) rest
    else if isSeparator c then blankText whole true (length + 1) rest
    else match c, rest with
      | '/', '/' :: _ => length + Lexeme.comment (c :: rest)
      | _, _ => plainText whole

/-- The length of text between tags that begins with the first character. -/
def textLength : List Char → Nat
  | [] => 0
  | c :: rest =>
    if endsText c || c = ' ' then 0
    else if isSeparator c then blankText (c :: rest) false 0 (c :: rest)
    else
      let plain := plainText (c :: rest)
      match c, rest with
      | '/', '/' :: _ => max plain (Lexeme.comment (c :: rest))
      | '/', '*' :: _ => if Lexeme.comment (c :: rest) > plain then 0 else plain
      | _, _ => plain

/-- The length of what follows the opening quote of an attribute, closing quote included. The number
counts the characters that are still to be passed. -/
def quotedTail (quote : Char) : Nat → List Char → Nat
  | _, [] => 0
  | pending + 1, _ :: rest =>
    match quotedTail quote pending rest with
    | 0 => 0
    | length => length + 1
  | 0, c :: rest =>
    if c = quote then 1
    else
      let skip :=
        if isNul c then 0
        else if c ≠ '&' then 1
        else match rest with
          | [] => 0
          | d :: _ =>
            if d = '#' || Text.isAsciiLetter d then characterReference (c :: rest)
            else if isNul d then 0 else 2
      match skip with
      | 0 => 0
      | length + 1 =>
        match quotedTail quote length rest with
        | 0 => 0
        | more => more + 1

/-! ## Names -/

/-- The length of a name with a hyphen in it. -/
def hyphenated : List Char → Nat
  | [] => 0
  | c :: rest =>
    if Text.isAsciiDigit c || !isPlainWordPart c then 0
    else
      let first := Lexeme.run isPlainWordPart (c :: rest)
      match (c :: rest).drop first with
      | '-' :: more => first + 1 + Lexeme.run (fun d => isPlainWordPart d || d = '-') more
      | _ => 0

/-- Reads a name, with or without hyphens, and tells whether it has some. -/
def jsxWord (kind : Kind) : Reading (Bool × List Child) := do
  let chars ← ahead
  let plain := Lexeme.word chars
  let dashed := hyphenated chars
  if dashed > plain then return (true, ← takeLeaf kind dashed)
  else if plain > 0 then return (false, ← takeLeaf kind plain)
  else stop .operand

/-- Reads the further names of a member. -/
def jsxMembers : Nat → Tree → Reading Tree
  | 0, first => pure first
  | fuel + 1, first => do
    if ← isNext "." then
      let point ← token "."
      let property ← field "property" (word .propertyIdentifier)
      jsxMembers fuel
        (.branch .memberExpression (placeOf first) ((some "object", first) :: point ++ property))
    else pure first

/-- Reads the second half of a name in a namespace around the first. -/
def inNamespace (before : List Child) (first : Tree) : Reading (List Child) := do
  let colon ← token ":"
  let (_, second) ← jsxWord .identifier
  return around .jsxNamespaceName before first ((none, first) :: colon ++ second)

/-- Reads the name of an element. -/
def elementName : Reading (List Child) := do
  let (dashed, children) ← jsxWord .identifier
  let (before, first) := splitLast children
  if ← isNext ":" then inNamespace before first
  else if dashed then return children
  else
    let tree ← fun cursor => jsxMembers (cursor.rest.length + 1) first cursor
    return before ++ [(none, tree)]

/-! ## Attributes -/

/-- Reads an expression in braces. -/
def jsxExpression (descend : Descend) : Reading (List Child) :=
  node .jsxExpression do
    let opening ← token "\x7b"
    let inside ←
      if ← isNext "\x7d" then pure []
      else if ← isNext "..." then
        node .spreadElement do inTurn [token "...", innerExpression descend]
      else descend (.expressions .inner)
    return opening ++ inside ++ (← token "\x7d")

/-- Reads the value of an attribute. -/
def attributeValue (descend : Descend) : Reading (List Child) := do
  match ← ahead with
  | [] => stop .operand
  | c :: rest =>
    if c = '"' || c = '\x27' then
      match quotedTail c 0 rest with
      | 0 => stop .operand
      | length => takeLeaf .string (length + 1)
    else if c = '\x7b' then jsxExpression descend
    else if c = '<' then descend .jsxElement
    else stop .operand

/-- Reads an attribute. -/
def jsxAttribute (descend : Descend) : Reading (List Child) := do
  if ← isNext "\x7b" then jsxExpression descend
  else
    node .jsxAttribute do
      let position ← cursor
      let (_, name) ← jsxWord .propertyIdentifier
      let whole ←
        if ← isNext ":" then
          let (_, tree) := splitLast name
          inNamespace [] (.leaf .identifier position.place tree.spelling)
        else pure name
      if ← isNext "=" then return whole ++ (← token "=") ++ (← attributeValue descend)
      else return whole

/-! ## Elements -/

/-- Reads one child of an element: text, an element, an expression or a character reference; nothing
at the closing tag. -/
def jsxChild (descend : Descend) : Reading (Option (List Child)) := do
  let position ← cursor
  match htmlComment? position.rest with
  | some (blanks, length) => do
    resume ((position.advance blanks).passComment .htmlComment length)
    return some []
  | none =>
    let blanksHere := Lexeme.run (fun c => c = ' ' || c = '\n') position.rest
    match textLength (position.rest.drop blanksHere) with
    | length + 1 => do
      resume (position.advance blanksHere)
      return some (← takeLeaf .jsxText (length + 1))
    | 0 =>
      let moved := position.advance (Lexeme.separators position.rest)
      match Lexeme.comment moved.rest with
      | length + 1 => do
        resume (moved.passComment .comment (length + 1))
        return some []
      | 0 => do
        resume { moved with mark := .token }
        if ← isNext "</" then return none
        else if ← isNext "<" then return some (← descend .jsxElement)
        else if ← isNext "\x7b" then return some (← jsxExpression descend)
        else match characterReference moved.rest with
          | 0 => stop .operand
          | length => return some (← takeLeaf .htmlCharacterReference length)

/-- Reads the closing tag of an element. -/
def closingTag : Reading (List Child) :=
  node .jsxClosingElement do
    let opening ← token "</"
    let name ← onlyIf (!(← isNext ">")) (field "name" elementName)
    return opening ++ name ++ (← token ">")

/-- Reads an element. -/
def jsxElement (descend : Descend) : Reading (List Child) :=
  construct do
    let start ← place
    let opening ← token "<"
    let isNamed := !(← isNext ">")
    let name ← onlyIf isNamed (field "name" elementName)
    let attributes ← onlyIf isNamed <| repeated do
      if (← isNext ">") || (← isNext "/>") then return none
      else return some (← field "attribute" (jsxAttribute descend))
    if isNamed && (← isNext "/>") then
      return (.jsxSelfClosingElement, opening ++ name ++ attributes ++ (← token "/>"))
    else
      let tag := Tree.branch .jsxOpeningElement start
        (opening ++ name ++ attributes ++ (← token ">"))
      let children ← repeated (jsxChild descend)
      let closing ← field "close_tag" closingTag
      return (.jsxElement, (some "open_tag", tag) :: children ++ closing)

end ShapeAudit.Source.Grammar
