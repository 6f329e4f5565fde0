import ShapeAudit.Shape.Kind

/-!
The kinds of named node in a concrete tree of a source, the name of each in messages, and the kind
of shape that stands for it. Several kinds share one shape (`a.b` and `a["b"]`, a declaration with
`let` and one with `var`), and some have none, because they vanish or are refused.
-/

namespace ShapeAudit.Source

/-- What a named node of a concrete tree is. -/
inductive Kind where
  | program
  | expressionStatement
  | statementBlock
  | emptyStatement
  | debuggerStatement
  | withStatement
  | returnStatement
  | labeledStatement
  | breakStatement
  | continueStatement
  | ifStatement
  | elseClause
  | switchStatement
  | switchBody
  | switchCase
  | switchDefault
  | throwStatement
  | tryStatement
  | catchClause
  | finallyClause
  | whileStatement
  | doStatement
  | forStatement
  | forInStatement
  | functionDeclaration
  | generatorFunctionDeclaration
  | variableDeclaration
  | lexicalDeclaration
  | usingDeclaration
  | variableDeclarator
  | classDeclaration
  | classBody
  | classHeritage
  | methodDefinition
  | fieldDefinition
  | publicFieldDefinition
  | classStaticBlock
  | decorator
  | functionWord
  | functionExpression
  | generatorFunction
  | arrowFunction
  | formalParameters
  | arguments
  | thisWord
  | superWord
  | array
  | object
  | pair
  | pairPattern
  | spreadElement
  | classExpression
  | unaryExpression
  | updateExpression
  | binaryExpression
  | assignmentExpression
  | augmentedAssignmentExpression
  | ternaryExpression
  | callExpression
  | newExpression
  | memberExpression
  | subscriptExpression
  | optionalChain
  | sequenceExpression
  | yieldExpression
  | awaitExpression
  | metaProperty
  | importWord
  | objectPattern
  | arrayPattern
  | restPattern
  | restElement
  | assignmentPattern
  | objectAssignmentPattern
  | importStatement
  | importClause
  | namedImports
  | importSpecifier
  | namespaceImport
  | importAttribute
  | exportStatement
  | exportClause
  | exportSpecifier
  | namespaceExport
  | jsxElement
  | jsxSelfClosingElement
  | jsxOpeningElement
  | jsxClosingElement
  | jsxAttribute
  | jsxExpression
  | jsxText
  | jsxNamespaceName
  | nestedIdentifier
  | privatePropertyIdentifier
  | identifier
  | propertyIdentifier
  | shorthandPropertyIdentifier
  | shorthandPropertyIdentifierPattern
  | statementIdentifier
  | undefinedWord
  | number
  | string
  | regex
  | trueWord
  | falseWord
  | nullWord
  | hashBangLine
  | comment
  | htmlComment
  | parenthesizedExpression
  | computedPropertyName
  | templateString
  | templateSubstitution
  | stringFragment
  | escapeSequence
  | glimmerTemplate
  | glimmerOpeningTag
  | glimmerClosingTag
  | htmlCharacterReference
  deriving DecidableEq

namespace Kind

/-- Every kind, in the order of the declaration. -/
def all : List Kind :=
  [.program, .expressionStatement, .statementBlock, .emptyStatement, .debuggerStatement,
    .withStatement, .returnStatement, .labeledStatement, .breakStatement, .continueStatement,
    .ifStatement, .elseClause, .switchStatement, .switchBody, .switchCase, .switchDefault,
    .throwStatement, .tryStatement, .catchClause, .finallyClause, .whileStatement, .doStatement,
    .forStatement, .forInStatement, .functionDeclaration, .generatorFunctionDeclaration,
    .variableDeclaration, .lexicalDeclaration, .usingDeclaration, .variableDeclarator,
    .classDeclaration, .classBody, .classHeritage, .methodDefinition, .fieldDefinition,
    .publicFieldDefinition, .classStaticBlock, .decorator, .functionWord, .functionExpression,
    .generatorFunction, .arrowFunction, .formalParameters, .arguments, .thisWord, .superWord,
    .array, .object, .pair, .pairPattern, .spreadElement, .classExpression, .unaryExpression,
    .updateExpression, .binaryExpression, .assignmentExpression, .augmentedAssignmentExpression,
    .ternaryExpression, .callExpression, .newExpression, .memberExpression, .subscriptExpression,
    .optionalChain, .sequenceExpression, .yieldExpression, .awaitExpression, .metaProperty,
    .importWord, .objectPattern, .arrayPattern, .restPattern, .restElement, .assignmentPattern,
    .objectAssignmentPattern, .importStatement, .importClause, .namedImports, .importSpecifier,
    .namespaceImport, .importAttribute, .exportStatement, .exportClause, .exportSpecifier,
    .namespaceExport, .jsxElement, .jsxSelfClosingElement, .jsxOpeningElement,
    .jsxClosingElement, .jsxAttribute, .jsxExpression, .jsxText, .jsxNamespaceName,
    .nestedIdentifier, .privatePropertyIdentifier, .identifier, .propertyIdentifier,
    .shorthandPropertyIdentifier, .shorthandPropertyIdentifierPattern, .statementIdentifier,
    .undefinedWord, .number, .string, .regex, .trueWord, .falseWord, .nullWord, .hashBangLine,
    .comment, .htmlComment, .parenthesizedExpression, .computedPropertyName, .templateString,
    .templateSubstitution, .stringFragment, .escapeSequence, .glimmerTemplate,
    .glimmerOpeningTag, .glimmerClosingTag, .htmlCharacterReference]

/-- The name of a kind in messages. -/
def name : Kind → String
  | .program => "program"
  | .expressionStatement => "expression_statement"
  | .statementBlock => "statement_block"
  | .emptyStatement => "empty_statement"
  | .debuggerStatement => "debugger_statement"
  | .withStatement => "with_statement"
  | .returnStatement => "return_statement"
  | .labeledStatement => "labeled_statement"
  | .breakStatement => "break_statement"
  | .continueStatement => "continue_statement"
  | .ifStatement => "if_statement"
  | .elseClause => "else_clause"
  | .switchStatement => "switch_statement"
  | .switchBody => "switch_body"
  | .switchCase => "switch_case"
  | .switchDefault => "switch_default"
  | .throwStatement => "throw_statement"
  | .tryStatement => "try_statement"
  | .catchClause => "catch_clause"
  | .finallyClause => "finally_clause"
  | .whileStatement => "while_statement"
  | .doStatement => "do_statement"
  | .forStatement => "for_statement"
  | .forInStatement => "for_in_statement"
  | .functionDeclaration => "function_declaration"
  | .generatorFunctionDeclaration => "generator_function_declaration"
  | .variableDeclaration => "variable_declaration"
  | .lexicalDeclaration => "lexical_declaration"
  | .usingDeclaration => "using_declaration"
  | .variableDeclarator => "variable_declarator"
  | .classDeclaration => "class_declaration"
  | .classBody => "class_body"
  | .classHeritage => "class_heritage"
  | .methodDefinition => "method_definition"
  | .fieldDefinition => "field_definition"
  | .publicFieldDefinition => "public_field_definition"
  | .classStaticBlock => "class_static_block"
  | .decorator => "decorator"
  | .functionWord => "function"
  | .functionExpression => "function_expression"
  | .generatorFunction => "generator_function"
  | .arrowFunction => "arrow_function"
  | .formalParameters => "formal_parameters"
  | .arguments => "arguments"
  | .thisWord => "this"
  | .superWord => "super"
  | .array => "array"
  | .object => "object"
  | .pair => "pair"
  | .pairPattern => "pair_pattern"
  | .spreadElement => "spread_element"
  | .classExpression => "class"
  | .unaryExpression => "unary_expression"
  | .updateExpression => "update_expression"
  | .binaryExpression => "binary_expression"
  | .assignmentExpression => "assignment_expression"
  | .augmentedAssignmentExpression => "augmented_assignment_expression"
  | .ternaryExpression => "ternary_expression"
  | .callExpression => "call_expression"
  | .newExpression => "new_expression"
  | .memberExpression => "member_expression"
  | .subscriptExpression => "subscript_expression"
  | .optionalChain => "optional_chain"
  | .sequenceExpression => "sequence_expression"
  | .yieldExpression => "yield_expression"
  | .awaitExpression => "await_expression"
  | .metaProperty => "meta_property"
  | .importWord => "import"
  | .objectPattern => "object_pattern"
  | .arrayPattern => "array_pattern"
  | .restPattern => "rest_pattern"
  | .restElement => "rest_element"
  | .assignmentPattern => "assignment_pattern"
  | .objectAssignmentPattern => "object_assignment_pattern"
  | .importStatement => "import_statement"
  | .importClause => "import_clause"
  | .namedImports => "named_imports"
  | .importSpecifier => "import_specifier"
  | .namespaceImport => "namespace_import"
  | .importAttribute => "import_attribute"
  | .exportStatement => "export_statement"
  | .exportClause => "export_clause"
  | .exportSpecifier => "export_specifier"
  | .namespaceExport => "namespace_export"
  | .jsxElement => "jsx_element"
  | .jsxSelfClosingElement => "jsx_self_closing_element"
  | .jsxOpeningElement => "jsx_opening_element"
  | .jsxClosingElement => "jsx_closing_element"
  | .jsxAttribute => "jsx_attribute"
  | .jsxExpression => "jsx_expression"
  | .jsxText => "jsx_text"
  | .jsxNamespaceName => "jsx_namespace_name"
  | .nestedIdentifier => "nested_identifier"
  | .privatePropertyIdentifier => "private_property_identifier"
  | .identifier => "identifier"
  | .propertyIdentifier => "property_identifier"
  | .shorthandPropertyIdentifier => "shorthand_property_identifier"
  | .shorthandPropertyIdentifierPattern => "shorthand_property_identifier_pattern"
  | .statementIdentifier => "statement_identifier"
  | .undefinedWord => "undefined"
  | .number => "number"
  | .string => "string"
  | .regex => "regex"
  | .trueWord => "true"
  | .falseWord => "false"
  | .nullWord => "null"
  | .hashBangLine => "hash_bang_line"
  | .comment => "comment"
  | .htmlComment => "html_comment"
  | .parenthesizedExpression => "parenthesized_expression"
  | .computedPropertyName => "computed_property_name"
  | .templateString => "template_string"
  | .templateSubstitution => "template_substitution"
  | .stringFragment => "string_fragment"
  | .escapeSequence => "escape_sequence"
  | .glimmerTemplate => "glimmer_template"
  | .glimmerOpeningTag => "glimmer_opening_tag"
  | .glimmerClosingTag => "glimmer_closing_tag"
  | .htmlCharacterReference => "html_character_reference"

/-- The kind of a name. -/
def ofName? (text : String) : Option Kind :=
  all.find? fun kind => kind.name == text

/-- The kind of shape that stands for a node, if nodes of its kind have one. -/
def shape? : Kind → Option Shape.Kind
  | .program => some .program
  | .expressionStatement => some .expressionStatement
  | .statementBlock => some .blockStatement
  | .emptyStatement => some .emptyStatement
  | .debuggerStatement => some .debuggerStatement
  | .withStatement => some .withStatement
  | .returnStatement => some .returnStatement
  | .labeledStatement => some .labeledStatement
  | .breakStatement => some .breakStatement
  | .continueStatement => some .continueStatement
  | .ifStatement => some .ifStatement
  | .elseClause => some .elseClause
  | .switchStatement => some .switchStatement
  | .switchBody => some .switchBody
  | .switchCase => some .switchCase
  | .switchDefault => some .switchDefault
  | .throwStatement => some .throwStatement
  | .tryStatement => some .tryStatement
  | .catchClause => some .catchClause
  | .finallyClause => some .finallyClause
  | .whileStatement => some .whileStatement
  | .doStatement => some .doWhileStatement
  | .forStatement => some .forStatement
  | .forInStatement => some .forInStatement
  | .functionDeclaration | .generatorFunctionDeclaration => some .functionDeclaration
  | .variableDeclaration | .lexicalDeclaration | .usingDeclaration => some .variableDeclaration
  | .variableDeclarator => some .variableDeclarator
  | .classDeclaration => some .classDeclaration
  | .classBody => some .classBody
  | .classHeritage => some .classHeritage
  | .methodDefinition => some .methodDefinition
  | .fieldDefinition | .publicFieldDefinition => some .propertyDefinition
  | .classStaticBlock => some .staticBlock
  | .decorator => some .decorator
  | .functionWord | .functionExpression | .generatorFunction => some .functionExpression
  | .arrowFunction => some .arrowFunctionExpression
  | .formalParameters => some .formalParameters
  | .arguments => some .arguments
  | .thisWord => some .thisExpression
  | .superWord => some .super
  | .array => some .arrayExpression
  | .object => some .objectExpression
  | .pair | .pairPattern => some .property
  | .spreadElement => some .spreadElement
  | .classExpression => some .classExpression
  | .unaryExpression => some .unaryExpression
  | .updateExpression => some .updateExpression
  | .binaryExpression => some .binaryExpression
  | .assignmentExpression | .augmentedAssignmentExpression => some .assignmentExpression
  | .ternaryExpression => some .conditionalExpression
  | .callExpression => some .callExpression
  | .newExpression => some .newExpression
  | .memberExpression | .subscriptExpression => some .memberExpression
  | .optionalChain => some .optionalChain
  | .sequenceExpression => some .sequenceExpression
  | .yieldExpression => some .yieldExpression
  | .awaitExpression => some .awaitExpression
  | .metaProperty => some .metaProperty
  | .importWord => some .importExpression
  | .objectPattern => some .objectPattern
  | .arrayPattern => some .arrayPattern
  | .restPattern | .restElement => some .restElement
  | .assignmentPattern | .objectAssignmentPattern => some .assignmentPattern
  | .importStatement => some .importDeclaration
  | .importClause => some .importClause
  | .namedImports => some .namedImports
  | .importSpecifier => some .importSpecifier
  | .namespaceImport => some .namespaceImport
  | .importAttribute => some .importAttribute
  | .exportStatement => some .exportDeclaration
  | .exportClause => some .exportClause
  | .exportSpecifier => some .exportSpecifier
  | .namespaceExport => some .namespaceExport
  | .jsxElement => some .jsxElement
  | .jsxSelfClosingElement => some .jsxSelfClosingElement
  | .jsxOpeningElement => some .jsxOpeningElement
  | .jsxClosingElement => some .jsxClosingElement
  | .jsxAttribute => some .jsxAttribute
  | .jsxExpression => some .jsxExpression
  | .jsxText => some .jsxText
  | .jsxNamespaceName => some .jsxNamespaceName
  | .nestedIdentifier => some .jsxMemberExpression
  | .privatePropertyIdentifier => some .privateIdentifier
  | .identifier | .propertyIdentifier | .shorthandPropertyIdentifier
    | .shorthandPropertyIdentifierPattern | .statementIdentifier | .undefinedWord
      => some .identifier
  | .number | .string | .regex | .trueWord | .falseWord | .nullWord => some .literal
  | .hashBangLine | .comment | .htmlComment | .parenthesizedExpression
    | .computedPropertyName | .templateString | .templateSubstitution | .stringFragment
    | .escapeSequence | .glimmerTemplate | .glimmerOpeningTag | .glimmerClosingTag
    | .htmlCharacterReference => none

/-- Whether nodes of a kind may stand anywhere and belong to no construct. -/
def isExtra : Kind → Bool
  | .comment | .htmlComment => true
  | _ => false

end Kind

end ShapeAudit.Source
