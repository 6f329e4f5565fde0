import ShapeAudit.Source.Grammar.Statement

/-!
Imports and exports.
-/

namespace ShapeAudit.Source.Grammar

open Reading

/-- Reads specifiers in braces. A lone comma may stand in their place. -/
def specifiers (specifier : Reading (List Child)) : Reading (List Child) := do
  let opening ← token "\x7b"
  if ← isNext "," then return opening ++ (← token ",") ++ (← token "\x7d")
  else return opening ++ (← listed "\x7d" false specifier)

/-- Reads a name that is imported or exported: a word or a string. -/
def exportedName : Reading (List Child) := do
  let chars ← ahead
  if Lexeme.string chars > 0 then string else word .identifier

/-- Reads the module that names come from. -/
def fromClause : Reading (List Child) :=
  inTurn [token "from", field "source" string]

/-! ## Imports -/

/-- Reads the import of a whole module under a name. -/
def namespaceImport : Reading (List Child) :=
  node .namespaceImport do inTurn [token "*", token "as", word .identifier]

/-- Reads the import of one name. -/
def importSpecifier : Reading (List Child) :=
  node .importSpecifier do
    let quoted := Lexeme.string (← ahead) > 0
    let name ← field "name" exportedName
    if quoted || (← isNext "as") then
      return name ++ (← token "as") ++ (← field "alias" (word .identifier))
    else return name

/-- Reads the imports of single names. -/
def namedImports : Reading (List Child) :=
  node .namedImports (specifiers importSpecifier)

/-- Reads what is imported. -/
def importClause : Reading (List Child) :=
  node .importClause do
    if ← isNext "*" then namespaceImport
    else if ← isNext "\x7b" then namedImports
    else
      let name ← word .identifier
      if ← isNext "," then
        let comma ← token ","
        return name ++ comma ++ (← if ← isNext "*" then namespaceImport else namedImports)
      else return name

/-- Reads an import. -/
def importStatement (descend : Descend) : Reading (List Child) :=
  node .importStatement do
    let keyword ← takeToken 6
    let source ←
      if Lexeme.string (← ahead) > 0 then field "source" string
      else inTurn [importClause, fromClause]
    let mark ← peek .close
    let attributes ← onlyIf (mark = .token && (← isHere "with")) <| node .importAttribute do
      let word ← takeToken 4
      let object ← descend .literal
      let (_, tree) := splitLast object
      require (tree.isA .object && isSettled tree) .operand
      return word ++ object
    return keyword ++ source ++ attributes ++ (← ending .close)

/-! ## Exports -/

/-- Reads the export of one name. -/
def exportSpecifier : Reading (List Child) :=
  node .exportSpecifier do
    let name ← field "name" exportedName
    if ← isNext "as" then
      return name ++ (← token "as") ++ (← field "alias" exportedName)
    else return name

/-- Reads the exports of single names, perhaps from another module. -/
def exportNames : Reading (List Child) := do
  let clause ← node .exportClause (specifiers exportSpecifier)
  let mark ← peek .close
  let source ← onlyIf (mark = .token && (← isHere "from")) fromClause
  return clause ++ source ++ (← ending .close)

/-- Reads the export of everything of another module, perhaps under a name. -/
def exportAll : Reading (List Child) := do
  let start ← place
  let star ← token "*"
  let target ←
    if ← isNext "as" then do
      let word ← token "as"
      let name ← exportedName
      pure [(none, Tree.branch .namespaceExport start (star ++ word ++ name))]
    else pure star
  let source ← fromClause
  return target ++ source ++ (← ending .close)

/-- Reads a default export. -/
def exportDefault (descend : Descend) : Reading (List Child) := do
  let keyword ← takeToken 7
  let _ ← ahead
  match ← declaration? descend false with
  | some children => return keyword ++ inField "declaration" children
  | none =>
    return keyword ++ (← field "value" (descend (.expression 0 .tail))) ++ (← ending .tail)

/-- The keyword that a text begins with, be it the beginning of a longer word. -/
def keywordAt? (keywords : List String) (chars : List Char) : Option String :=
  keywords.find? fun keyword => (Text.afterPrefix? keyword.toList chars).isSome

/-- Whether an export follows `export`, which may also be a name. -/
def isExport : Reading Bool := do
  let (mark, beyond) ← beyondWord .tail 6
  let star := match beyond with
    | '*' :: '*' :: _ => false
    | '*' :: '=' :: _ => false
    | '*' :: _ => true
    | _ => false
  return mark = .token && (star || beyond.head? = some '\x7b' || beyond.head? = some '@' ||
    (keywordAt? ("default" :: declarationWords) beyond).isSome)

/-- Reads an export that stands behind decorators or at the beginning of a statement. -/
def exportStatement (descend : Descend) : Reading (List Child) :=
  node .exportStatement do
    let marks ← decorators descend
    let keyword ← token "export"
    let chars ← ahead
    if ← isNext "*" then return marks ++ keyword ++ (← exportAll)
    else if ← isNext "\x7b" then return marks ++ keyword ++ (← exportNames)
    else if ← isNext "default" then return marks ++ keyword ++ (← exportDefault descend)
    else if ← isNext "@" then
      match ← classDeclaration? descend false with
      | some children => return marks ++ keyword ++ inField "declaration" children
      | none => stop .operand
    else
      let first := (keywordAt? declarationWords chars).getD ""
      match ← if first = "async" then functionDeclaration? descend false
          else declarationFrom? descend false first with
      | some children => return marks ++ keyword ++ inField "declaration" children
      | none => stop .operand

end ShapeAudit.Source.Grammar
