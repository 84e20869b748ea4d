/-!
# The kinds of syntax tree nodes

The node kinds of ECMAScript 2017 programs in the ESTree layout, with the fields of each that are
entered when a tree is walked. Only fields that can hold a declaration or a reference are listed, in
source order: labels, the names in import and export specifiers and the parts of a meta property
are left out. Keys and member names count only when they are computed.
-/

namespace FreeNames

/-- A kind of syntax tree node. -/
inductive Kind where
  | program
  | emptyStatement
  | debuggerStatement
  | expressionStatement
  | blockStatement
  | withStatement
  | returnStatement
  | labeledStatement
  | breakStatement
  | continueStatement
  | ifStatement
  | switchStatement
  | switchCase
  | throwStatement
  | tryStatement
  | catchClause
  | whileStatement
  | doWhileStatement
  | forStatement
  | forInStatement
  | forOfStatement
  | functionDeclaration
  | functionExpression
  | arrowFunctionExpression
  | variableDeclaration
  | variableDeclarator
  | classDeclaration
  | classExpression
  | classBody
  | methodDefinition
  | fieldDefinition
  | property
  | objectExpression
  | objectPattern
  | arrayExpression
  | arrayPattern
  | restElement
  | spreadElement
  | assignmentPattern
  | assignmentExpression
  | unaryExpression
  | updateExpression
  | awaitExpression
  | yieldExpression
  | binaryExpression
  | logicalExpression
  | conditionalExpression
  | callExpression
  | newExpression
  | sequenceExpression
  | memberExpression
  | templateLiteral
  | taggedTemplateExpression
  | templateElement
  | literal
  | identifier
  | thisExpression
  | superReference
  | metaProperty
  | importCallee
  | importDeclaration
  | importSpecifier
  | importDefaultSpecifier
  | importNamespaceSpecifier
  | exportNamedDeclaration
  | exportDefaultDeclaration
  | exportAllDeclaration
  deriving DecidableEq, Repr, Inhabited

namespace Kind

/-- The name of a kind, as the `type` field of a node has it. -/
def name : Kind → String
  | program => "Program"
  | emptyStatement => "EmptyStatement"
  | debuggerStatement => "DebuggerStatement"
  | expressionStatement => "ExpressionStatement"
  | blockStatement => "BlockStatement"
  | withStatement => "WithStatement"
  | returnStatement => "ReturnStatement"
  | labeledStatement => "LabeledStatement"
  | breakStatement => "BreakStatement"
  | continueStatement => "ContinueStatement"
  | ifStatement => "IfStatement"
  | switchStatement => "SwitchStatement"
  | switchCase => "SwitchCase"
  | throwStatement => "ThrowStatement"
  | tryStatement => "TryStatement"
  | catchClause => "CatchClause"
  | whileStatement => "WhileStatement"
  | doWhileStatement => "DoWhileStatement"
  | forStatement => "ForStatement"
  | forInStatement => "ForInStatement"
  | forOfStatement => "ForOfStatement"
  | functionDeclaration => "FunctionDeclaration"
  | functionExpression => "FunctionExpression"
  | arrowFunctionExpression => "ArrowFunctionExpression"
  | variableDeclaration => "VariableDeclaration"
  | variableDeclarator => "VariableDeclarator"
  | classDeclaration => "ClassDeclaration"
  | classExpression => "ClassExpression"
  | classBody => "ClassBody"
  | methodDefinition => "MethodDefinition"
  | fieldDefinition => "FieldDefinition"
  | property => "Property"
  | objectExpression => "ObjectExpression"
  | objectPattern => "ObjectPattern"
  | arrayExpression => "ArrayExpression"
  | arrayPattern => "ArrayPattern"
  | restElement => "RestElement"
  | spreadElement => "SpreadElement"
  | assignmentPattern => "AssignmentPattern"
  | assignmentExpression => "AssignmentExpression"
  | unaryExpression => "UnaryExpression"
  | updateExpression => "UpdateExpression"
  | awaitExpression => "AwaitExpression"
  | yieldExpression => "YieldExpression"
  | binaryExpression => "BinaryExpression"
  | logicalExpression => "LogicalExpression"
  | conditionalExpression => "ConditionalExpression"
  | callExpression => "CallExpression"
  | newExpression => "NewExpression"
  | sequenceExpression => "SequenceExpression"
  | memberExpression => "MemberExpression"
  | templateLiteral => "TemplateLiteral"
  | taggedTemplateExpression => "TaggedTemplateExpression"
  | templateElement => "TemplateElement"
  | literal => "Literal"
  | identifier => "Identifier"
  | thisExpression => "ThisExpression"
  | superReference => "Super"
  | metaProperty => "MetaProperty"
  | importCallee => "Import"
  | importDeclaration => "ImportDeclaration"
  | importSpecifier => "ImportSpecifier"
  | importDefaultSpecifier => "ImportDefaultSpecifier"
  | importNamespaceSpecifier => "ImportNamespaceSpecifier"
  | exportNamedDeclaration => "ExportNamedDeclaration"
  | exportDefaultDeclaration => "ExportDefaultDeclaration"
  | exportAllDeclaration => "ExportAllDeclaration"

/-- The kind of a given name. -/
def ofName? : String → Option Kind
  | "Program" => some program
  | "EmptyStatement" => some emptyStatement
  | "DebuggerStatement" => some debuggerStatement
  | "ExpressionStatement" => some expressionStatement
  | "BlockStatement" => some blockStatement
  | "WithStatement" => some withStatement
  | "ReturnStatement" => some returnStatement
  | "LabeledStatement" => some labeledStatement
  | "BreakStatement" => some breakStatement
  | "ContinueStatement" => some continueStatement
  | "IfStatement" => some ifStatement
  | "SwitchStatement" => some switchStatement
  | "SwitchCase" => some switchCase
  | "ThrowStatement" => some throwStatement
  | "TryStatement" => some tryStatement
  | "CatchClause" => some catchClause
  | "WhileStatement" => some whileStatement
  | "DoWhileStatement" => some doWhileStatement
  | "ForStatement" => some forStatement
  | "ForInStatement" => some forInStatement
  | "ForOfStatement" => some forOfStatement
  | "FunctionDeclaration" => some functionDeclaration
  | "FunctionExpression" => some functionExpression
  | "ArrowFunctionExpression" => some arrowFunctionExpression
  | "VariableDeclaration" => some variableDeclaration
  | "VariableDeclarator" => some variableDeclarator
  | "ClassDeclaration" => some classDeclaration
  | "ClassExpression" => some classExpression
  | "ClassBody" => some classBody
  | "MethodDefinition" => some methodDefinition
  | "FieldDefinition" => some fieldDefinition
  | "Property" => some property
  | "ObjectExpression" => some objectExpression
  | "ObjectPattern" => some objectPattern
  | "ArrayExpression" => some arrayExpression
  | "ArrayPattern" => some arrayPattern
  | "RestElement" => some restElement
  | "SpreadElement" => some spreadElement
  | "AssignmentPattern" => some assignmentPattern
  | "AssignmentExpression" => some assignmentExpression
  | "UnaryExpression" => some unaryExpression
  | "UpdateExpression" => some updateExpression
  | "AwaitExpression" => some awaitExpression
  | "YieldExpression" => some yieldExpression
  | "BinaryExpression" => some binaryExpression
  | "LogicalExpression" => some logicalExpression
  | "ConditionalExpression" => some conditionalExpression
  | "CallExpression" => some callExpression
  | "NewExpression" => some newExpression
  | "SequenceExpression" => some sequenceExpression
  | "MemberExpression" => some memberExpression
  | "TemplateLiteral" => some templateLiteral
  | "TaggedTemplateExpression" => some taggedTemplateExpression
  | "TemplateElement" => some templateElement
  | "Literal" => some literal
  | "Identifier" => some identifier
  | "ThisExpression" => some thisExpression
  | "Super" => some superReference
  | "MetaProperty" => some metaProperty
  | "Import" => some importCallee
  | "ImportDeclaration" => some importDeclaration
  | "ImportSpecifier" => some importSpecifier
  | "ImportDefaultSpecifier" => some importDefaultSpecifier
  | "ImportNamespaceSpecifier" => some importNamespaceSpecifier
  | "ExportNamedDeclaration" => some exportNamedDeclaration
  | "ExportDefaultDeclaration" => some exportDefaultDeclaration
  | "ExportAllDeclaration" => some exportAllDeclaration
  | _ => none

@[simp] theorem ofName?_name (k : Kind) : ofName? k.name = some k := by
  cases k <;> rfl

theorem name_injective {j k : Kind} (h : j.name = k.name) : j = k := by
  have := congrArg ofName? h
  simpa using this

/-! ### Children -/

/-- The fields of a kind that are entered, in source order. -/
def entered : Kind → List String
  | program | blockStatement | labeledStatement | classBody => ["body"]
  | expressionStatement => ["expression"]
  | withStatement => ["object", "body"]
  | returnStatement | throwStatement | restElement | spreadElement | unaryExpression
  | updateExpression | awaitExpression | yieldExpression => ["argument"]
  | ifStatement | conditionalExpression => ["test", "consequent", "alternate"]
  | switchStatement => ["discriminant", "cases"]
  | switchCase => ["test", "consequent"]
  | tryStatement => ["block", "handler", "finalizer"]
  | catchClause => ["param", "body"]
  | whileStatement => ["test", "body"]
  | doWhileStatement => ["body", "test"]
  | forStatement => ["init", "test", "update", "body"]
  | forInStatement | forOfStatement => ["left", "right", "body"]
  | functionDeclaration | functionExpression => ["id", "params", "body"]
  | arrowFunctionExpression => ["params", "body"]
  | variableDeclaration => ["declarations"]
  | variableDeclarator => ["id", "init"]
  | classDeclaration | classExpression => ["id", "superClass", "body"]
  | methodDefinition | fieldDefinition | property => ["key", "value"]
  | objectExpression | objectPattern => ["properties"]
  | arrayExpression | arrayPattern => ["elements"]
  | assignmentPattern | assignmentExpression | binaryExpression | logicalExpression =>
    ["left", "right"]
  | callExpression | newExpression => ["callee", "arguments"]
  | sequenceExpression => ["expressions"]
  | memberExpression => ["object", "property"]
  | templateLiteral => ["quasis", "expressions"]
  | taggedTemplateExpression => ["tag", "quasi"]
  | importDeclaration => ["specifiers", "source"]
  | exportNamedDeclaration => ["declaration", "source"]
  | exportDefaultDeclaration => ["declaration"]
  | exportAllDeclaration => ["source"]
  | _ => []

/-- The field that is entered only when the node is computed. -/
def computedField : Kind → Option String
  | property | methodDefinition | fieldDefinition => some "key"
  | memberExpression => some "property"
  | _ => none

theorem nodup_entered (k : Kind) : k.entered.Nodup := by
  cases k <;> simp [entered]

/-! ### Scopes -/

/-- Scopes that `var` and function declarations bind into. -/
def isScope : Kind → Bool
  | program | functionDeclaration | functionExpression | arrowFunctionExpression => true
  | _ => false

/-- Scopes that `let`, `const` and class declarations bind into. -/
def isBlockScope : Kind → Bool
  | blockStatement | catchClause => true
  | k => k.isScope

/-- Plain functions bind `this` and `arguments`; arrow functions and the program do not. -/
def bindsReceiver : Kind → Bool
  | functionDeclaration | functionExpression => true
  | _ => false

theorem isBlockScope_of_isScope {k : Kind} (h : k.isScope) : k.isBlockScope := by
  cases k <;> simp_all [isScope, isBlockScope]

end Kind

end FreeNames
