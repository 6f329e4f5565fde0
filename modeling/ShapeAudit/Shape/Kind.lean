/-!
The kinds of node in a shape tree. Three of them are lexical: such a node stands for "some name",
"some literal" or "some stretch of template text", and what it spells does not count.
-/

namespace ShapeAudit.Shape

/-- What a node of a shape tree is. -/
inductive Kind where
  -- the whole program
  | program
  -- statements
  | expressionStatement
  | blockStatement
  | emptyStatement
  | debuggerStatement
  | withStatement
  | returnStatement
  | labeledStatement
  | breakStatement
  | continueStatement
  | ifStatement
  | elseClause
  | switchStatement
  | switchBody
  | switchCase
  | switchDefault
  | throwStatement
  | tryStatement
  | catchClause
  | finallyClause
  | whileStatement
  | doWhileStatement
  | forStatement
  | forInStatement
  -- declarations
  | functionDeclaration
  | variableDeclaration
  | variableDeclarator
  | classDeclaration
  | classBody
  | classHeritage
  | methodDefinition
  | propertyDefinition
  | staticBlock
  | decorator
  -- functions
  | functionExpression
  | arrowFunctionExpression
  | formalParameters
  | arguments
  -- expressions
  | thisExpression
  | super
  | arrayExpression
  | objectExpression
  | property
  | spreadElement
  | classExpression
  | unaryExpression
  | updateExpression
  | binaryExpression
  | assignmentExpression
  | conditionalExpression
  | callExpression
  | newExpression
  | memberExpression
  | optionalChain
  | sequenceExpression
  | yieldExpression
  | awaitExpression
  | templateLiteral
  | metaProperty
  | importExpression
  -- patterns
  | objectPattern
  | arrayPattern
  | elision
  | restElement
  | assignmentPattern
  -- modules
  | importDeclaration
  | importClause
  | namedImports
  | importSpecifier
  | namespaceImport
  | importAttribute
  | exportDeclaration
  | exportClause
  | exportSpecifier
  | namespaceExport
  -- JSX
  | jsxElement
  | jsxSelfClosingElement
  | jsxOpeningElement
  | jsxClosingElement
  | jsxAttribute
  | jsxExpression
  | jsxText
  | jsxNamespaceName
  | jsxMemberExpression
  -- names whose spelling matters
  | privateIdentifier
  -- lexical nodes
  | identifier
  | literal
  | templateElement
  deriving DecidableEq

namespace Kind

/-- Every kind, in the order of the declaration. -/
def all : List Kind :=
  [.program, .expressionStatement, .blockStatement, .emptyStatement, .debuggerStatement,
    .withStatement, .returnStatement, .labeledStatement, .breakStatement, .continueStatement,
    .ifStatement, .elseClause, .switchStatement, .switchBody, .switchCase, .switchDefault,
    .throwStatement, .tryStatement, .catchClause, .finallyClause, .whileStatement,
    .doWhileStatement, .forStatement, .forInStatement, .functionDeclaration,
    .variableDeclaration, .variableDeclarator, .classDeclaration, .classBody, .classHeritage,
    .methodDefinition, .propertyDefinition, .staticBlock, .decorator, .functionExpression,
    .arrowFunctionExpression, .formalParameters, .arguments, .thisExpression, .super,
    .arrayExpression, .objectExpression, .property, .spreadElement, .classExpression,
    .unaryExpression, .updateExpression, .binaryExpression, .assignmentExpression,
    .conditionalExpression, .callExpression, .newExpression, .memberExpression, .optionalChain,
    .sequenceExpression, .yieldExpression, .awaitExpression, .templateLiteral, .metaProperty,
    .importExpression, .objectPattern, .arrayPattern, .elision, .restElement, .assignmentPattern,
    .importDeclaration, .importClause, .namedImports, .importSpecifier, .namespaceImport,
    .importAttribute, .exportDeclaration, .exportClause, .exportSpecifier, .namespaceExport,
    .jsxElement, .jsxSelfClosingElement, .jsxOpeningElement, .jsxClosingElement, .jsxAttribute,
    .jsxExpression, .jsxText, .jsxNamespaceName, .jsxMemberExpression, .privateIdentifier,
    .identifier, .literal, .templateElement]

/-- The name under which a kind is written. -/
def name : Kind → String
  | .program => "Program"
  | .expressionStatement => "ExpressionStatement"
  | .blockStatement => "BlockStatement"
  | .emptyStatement => "EmptyStatement"
  | .debuggerStatement => "DebuggerStatement"
  | .withStatement => "WithStatement"
  | .returnStatement => "ReturnStatement"
  | .labeledStatement => "LabeledStatement"
  | .breakStatement => "BreakStatement"
  | .continueStatement => "ContinueStatement"
  | .ifStatement => "IfStatement"
  | .elseClause => "ElseClause"
  | .switchStatement => "SwitchStatement"
  | .switchBody => "SwitchBody"
  | .switchCase => "SwitchCase"
  | .switchDefault => "SwitchDefault"
  | .throwStatement => "ThrowStatement"
  | .tryStatement => "TryStatement"
  | .catchClause => "CatchClause"
  | .finallyClause => "FinallyClause"
  | .whileStatement => "WhileStatement"
  | .doWhileStatement => "DoWhileStatement"
  | .forStatement => "ForStatement"
  | .forInStatement => "ForInStatement"
  | .functionDeclaration => "FunctionDeclaration"
  | .variableDeclaration => "VariableDeclaration"
  | .variableDeclarator => "VariableDeclarator"
  | .classDeclaration => "ClassDeclaration"
  | .classBody => "ClassBody"
  | .classHeritage => "ClassHeritage"
  | .methodDefinition => "MethodDefinition"
  | .propertyDefinition => "PropertyDefinition"
  | .staticBlock => "StaticBlock"
  | .decorator => "Decorator"
  | .functionExpression => "FunctionExpression"
  | .arrowFunctionExpression => "ArrowFunctionExpression"
  | .formalParameters => "FormalParameters"
  | .arguments => "Arguments"
  | .thisExpression => "ThisExpression"
  | .super => "Super"
  | .arrayExpression => "ArrayExpression"
  | .objectExpression => "ObjectExpression"
  | .property => "Property"
  | .spreadElement => "SpreadElement"
  | .classExpression => "ClassExpression"
  | .unaryExpression => "UnaryExpression"
  | .updateExpression => "UpdateExpression"
  | .binaryExpression => "BinaryExpression"
  | .assignmentExpression => "AssignmentExpression"
  | .conditionalExpression => "ConditionalExpression"
  | .callExpression => "CallExpression"
  | .newExpression => "NewExpression"
  | .memberExpression => "MemberExpression"
  | .optionalChain => "OptionalChain"
  | .sequenceExpression => "SequenceExpression"
  | .yieldExpression => "YieldExpression"
  | .awaitExpression => "AwaitExpression"
  | .templateLiteral => "TemplateLiteral"
  | .metaProperty => "MetaProperty"
  | .importExpression => "ImportExpression"
  | .objectPattern => "ObjectPattern"
  | .arrayPattern => "ArrayPattern"
  | .elision => "Elision"
  | .restElement => "RestElement"
  | .assignmentPattern => "AssignmentPattern"
  | .importDeclaration => "ImportDeclaration"
  | .importClause => "ImportClause"
  | .namedImports => "NamedImports"
  | .importSpecifier => "ImportSpecifier"
  | .namespaceImport => "NamespaceImport"
  | .importAttribute => "ImportAttribute"
  | .exportDeclaration => "ExportDeclaration"
  | .exportClause => "ExportClause"
  | .exportSpecifier => "ExportSpecifier"
  | .namespaceExport => "NamespaceExport"
  | .jsxElement => "JsxElement"
  | .jsxSelfClosingElement => "JsxSelfClosingElement"
  | .jsxOpeningElement => "JsxOpeningElement"
  | .jsxClosingElement => "JsxClosingElement"
  | .jsxAttribute => "JsxAttribute"
  | .jsxExpression => "JsxExpression"
  | .jsxText => "JsxText"
  | .jsxNamespaceName => "JsxNamespaceName"
  | .jsxMemberExpression => "JsxMemberExpression"
  | .privateIdentifier => "PrivateIdentifier"
  | .identifier => "Identifier"
  | .literal => "Literal"
  | .templateElement => "TemplateElement"

/-- The kind of a name. -/
def ofName? (text : String) : Option Kind :=
  all.find? fun kind => kind.name == text

/-- Whether only the presence of a node counts, and neither its content nor which of the three
lexical kinds it has. -/
def isLexical : Kind → Bool
  | .identifier | .literal | .templateElement => true
  | _ => false

/-- Whether a kind belongs to the JSX extension. -/
def isJsx : Kind → Bool
  | .jsxElement | .jsxSelfClosingElement | .jsxOpeningElement | .jsxClosingElement
    | .jsxAttribute | .jsxExpression | .jsxText | .jsxNamespaceName | .jsxMemberExpression => true
  | _ => false

end Kind

end ShapeAudit.Shape
