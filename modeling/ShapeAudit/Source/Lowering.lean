import ShapeAudit.Shape.Tree
import ShapeAudit.Source.Fault

/-!
From a concrete tree to a shape tree. Lowering forgets what a transformer is free to change:
comments, brackets and commas, parentheses, the difference between `a.b` and `a["b"]`, between a
shorthand `{a}` and `{a: a}`, between `x => x` and `(x) => x`, between `new F` and `new F()`, and the
modifiers `async`, `static`, `await` and a `*` that is no operator. It keeps operators and all other
keywords as words, and holes of arrays as nodes of their own.
-/

namespace ShapeAudit.Source

/-! ## Tokens -/

/-- Whether a token only switches a property of its node on. -/
def isModifier (token : String) : Bool :=
  ["async", "static", "await", "*"].contains token

/-- Whether a token outside of all fields is kept: a keyword that is no modifier. -/
def isKeptKeyword (token : String) : Bool :=
  !token.isEmpty && token.toList.all Text.isAsciiLetter && !isModifier token

/-- Whether a token in a field is a modifier; a `*` is an operator in the field of operators. -/
def isFieldModifier (field token : String) : Bool :=
  if token = "*" then field ≠ "operator" else isModifier token

/-! ## Fields that stand for one another -/

/-- Brings fields that say the same in two ways into one form. -/
def settle (kind : Kind) (fields : Shape.Fields) : Shape.Fields :=
  match kind with
  | .subscriptExpression =>
    if Shape.Fields.has "index" fields then
      Shape.Fields.put "property" (Shape.Fields.get "index" fields)
        (Shape.Fields.remove "index" fields)
    else fields
  | .arrowFunction =>
    if Shape.Fields.has "parameter" fields then
      let parameters := (Shape.Fields.get "parameter" fields).foldl
        (fun node value => Shape.Node.push node Shape.childrenField value)
        (Shape.Node.bare .formalParameters)
      Shape.Fields.push "parameters" parameters.toTree (Shape.Fields.remove "parameter" fields)
    else fields
  | .variableDeclaration =>
    let kept := (Shape.Fields.get Shape.tokensField fields).filter fun token =>
      token.asWord? ≠ some "var"
    let withoutVar :=
      if !Shape.Fields.has Shape.tokensField fields then fields
      else if kept.isEmpty then Shape.Fields.remove Shape.tokensField fields
      else Shape.Fields.put Shape.tokensField kept fields
    if Shape.Fields.has "kind" withoutVar then withoutVar
    else Shape.Fields.push "kind" (.word "var") withoutVar
  | .newExpression =>
    if Shape.Fields.has "arguments" fields then fields
    else Shape.Fields.push "arguments" (Shape.Node.bare .arguments).toTree fields
  | _ => fields

/-! ## Nodes -/

/-- The property that a shorthand entry of an object stands for. -/
def shorthandProperty (name : String) : Shape.Node :=
  ((Shape.Node.bare .property).push "key" (Shape.Node.leaf .identifier name).toTree).push "value"
    (Shape.Node.leaf .identifier name).toTree

/-- Whether a kind is a shorthand entry of an object or of an object pattern. -/
def Kind.isShorthand : Kind → Bool
  | .shorthandPropertyIdentifier | .shorthandPropertyIdentifierPattern => true
  | _ => false

/-- Whether a kind holds entries that may be shorthand. -/
def Kind.isObject : Kind → Bool
  | .object | .objectPattern => true
  | _ => false

/-- Whether a kind holds elements that may be left out. -/
def Kind.isArray : Kind → Bool
  | .array | .arrayPattern => true
  | _ => false

/-- The kind of shape that stands for a node, or why the node is refused. -/
def shapeOf (options : Options) (kind : Kind) (place : Place) : Except Fault Shape.Kind :=
  match kind.shape? with
  | none => .error (.unsupported kind.name place)
  | some shape =>
    if shape.isJsx && !options.jsx then .error (.unsupported kind.name place)
    else if (shape = .importDeclaration || shape = .exportDeclaration) && !options.asModule then
      .error (.moduleOnly place)
    else .ok shape

mutual

/-- The shape of a tree, none if the tree leaves no trace. -/
def lower (options : Options) : Tree → Except Fault (Option Shape.Node)
  | .token _ => .ok none
  | .leaf kind place spelling =>
    match kind with
    | .comment | .htmlComment => .ok none
    | .hashBangLine =>
      if options.hashBang then .ok none
      else .error (.malformed place "hashbang line is not allowed")
    | .parenthesizedExpression | .computedPropertyName => .ok none
    | .templateString =>
      .ok (some ((Shape.Node.bare .templateLiteral).push "quasis"
        (Shape.Node.leaf .templateElement "").toTree))
    | .privatePropertyIdentifier =>
      .ok (some ((Shape.Node.bare .privateIdentifier).push "name" (.word spelling)))
    | _ => do
      let shape ← shapeOf options kind place
      if shape.isLexical then return some (Shape.Node.leaf shape spelling)
      if shape = .jsxText then return some (Shape.Node.bare shape)
      return some ⟨shape, settle kind [], none⟩
  | .branch kind place children =>
    match kind with
    | .comment | .htmlComment => .ok none
    | .hashBangLine =>
      if options.hashBang then .ok none
      else .error (.malformed place "hashbang line is not allowed")
    | .parenthesizedExpression | .computedPropertyName => lowerFirst options children
    | .templateString => do
      let fields ← lowerTemplate options "" children []
      return some ⟨.templateLiteral, fields, none⟩
    | .privatePropertyIdentifier =>
      .ok (some ((Shape.Node.bare .privateIdentifier).push "name"
        (.word (Tree.spellingOf children))))
    | _ => do
      let shape ← shapeOf options kind place
      if shape.isLexical then return some (Shape.Node.leaf shape (Tree.spellingOf children))
      if shape = .jsxText then return some (Shape.Node.bare shape)
      let fields ← lowerChildren options kind true children []
      return some ⟨shape, settle kind fields, none⟩

/-- The shape of the first proper child. -/
def lowerFirst (options : Options) : List (Option String × Tree) → Except Fault (Option Shape.Node)
  | [] => .ok none
  | (_, child) :: rest => if child.isProper then lower options child else lowerFirst options rest

/-- Adds the shapes of children to fields. The flag tells, inside an array, that no element has been
met since the bracket or the last comma. -/
def lowerChildren (options : Options) (parent : Kind) :
    Bool → List (Option String × Tree) → Shape.Fields → Except Fault Shape.Fields
  | _, [], fields => .ok fields
  | awaiting, (field, child) :: rest, fields =>
    match child with
    | .token spelling =>
      if parent.isArray then
        if spelling = "," then
          let filled :=
            if awaiting then
              Shape.Fields.push Shape.childrenField (Shape.Node.bare .elision).toTree fields
            else fields
          lowerChildren options parent true rest filled
        else lowerChildren options parent awaiting rest fields
      else match field with
        | some name =>
          if isFieldModifier name spelling then lowerChildren options parent awaiting rest fields
          else lowerChildren options parent awaiting rest
            (Shape.Fields.push name (.word spelling) fields)
        | none =>
          if isKeptKeyword spelling then
            lowerChildren options parent awaiting rest
              (Shape.Fields.push Shape.tokensField (.word spelling) fields)
          else lowerChildren options parent awaiting rest fields
    | named =>
      if named.isExtra then lowerChildren options parent awaiting rest fields
      else if parent.isObject && named.kind?.any Kind.isShorthand then
        lowerChildren options parent false rest
          (Shape.Fields.push (field.getD Shape.childrenField)
            (shorthandProperty named.spelling).toTree fields)
      else do
        let value ← lower options named
        match value with
        | some node =>
          lowerChildren options parent false rest
            (Shape.Fields.push (field.getD Shape.childrenField) node.toTree fields)
        | none => lowerChildren options parent false rest fields

/-- Adds the pieces of a template to fields: a stretch of text before every substituted expression
and one after the last. The text is the stretch that has been read so far. -/
def lowerTemplate (options : Options) :
    String → List (Option String × Tree) → Shape.Fields → Except Fault Shape.Fields
  | text, [], fields =>
    .ok (Shape.Fields.push "quasis" (Shape.Node.leaf .templateElement text).toTree fields)
  | text, (_, child) :: rest, fields =>
    match child with
    | .branch .templateSubstitution _ children => do
      let opened := Shape.Fields.push "quasis" (Shape.Node.leaf .templateElement text).toTree fields
      let value ← lowerFirst options children
      match value with
      | some node =>
        lowerTemplate options "" rest (Shape.Fields.push "expressions" node.toTree opened)
      | none => lowerTemplate options "" rest opened
    | .token "\x60" => lowerTemplate options text rest fields
    | other =>
      if other.isExtra then lowerTemplate options text rest fields
      else lowerTemplate options (text ++ other.spelling) rest fields

end

/-- The shape of a whole source. -/
def lowerProgram (options : Options) (tree : Tree) : Except Fault Shape.Node := do
  let lowered ← lower options tree
  return lowered.getD (Shape.Node.bare .program)

end ShapeAudit.Source
