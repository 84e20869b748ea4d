import FreeNames.Grammar.Expression

/-!
# Declarations

Variables, and the imports and exports of a module.
-/

namespace FreeNames.Grammar.Parser

/-! ### Variables -/

/-- A variable with its initial value. -/
def declarator (mark : Mark) (id init : Value) : Parser Value :=
  node mark .variableDeclarator [("id", id), ("init", init)]

/-- Reads the pattern of a variable, whose name strict mode may refuse. -/
def variablePattern (kind : String) : Parser Value := do
  let (id, _) ← collecting (ask (.pattern kind))
  if (← context).strict && isNameWith id isRestricted then passAfterLast .strictVariable
  return id

/-- Reads a `let` or `const` variable. In the head of a loop the initial value may be missing. -/
def lexicalBinding (kind : String) (inHead : Bool) : Parser Value := do
  let mark ← here
  let id ← variablePattern kind
  if kind = "const" then
    if (← isKeyword "in") || (← isWord "of") then declarator mark id .null
    else if ← takesMark "=" then declarator mark id (← isolated (ask .assignment))
    else refuseAfterLast (.missingInitializer kind)
  else if (!inHead && !isKind id .identifier) || (← isMark "=") then
    expect "="
    declarator mark id (← isolated (ask .assignment))
  else declarator mark id .null

/-- Whether a `let` that comes next begins a declaration. -/
def isLexicalDeclaration : Parser Bool := do
  let next ← peek
  return next.isIdentifier || ["[", leftBrace].any next.isMark || ["let", "yield"].any next.isKeyword

/-- A declaration of variables. -/
def variablesNode (mark : Mark) (declarations : List Value) (kind : String) : Parser Value :=
  node mark .variableDeclaration
    [("declarations", .array declarations), ("kind", .text kind)]

/-- Reads a `let` or `const` declaration. -/
def lexicalDeclaration : Parser Value := do
  let mark ← here
  let kind := (← take).text.shown
  let declarations ← commaList (lexicalBinding kind false)
  endStatement
  variablesNode mark declarations kind

/-- Reads a `var` variable. -/
def variable' (inHead : Bool) : Parser Value := do
  let mark ← here
  let id ← variablePattern "var"
  if ← takesMark "=" then declarator mark id (← isolated (ask .assignment))
  else
    if !isKind id .identifier && !inHead then expect "="
    declarator mark id .null

/-- Reads a `var` declaration. -/
def variableStatement : Parser Value := do
  let mark ← here
  expectKeyword "var"
  let declarations ← commaList (variable' false)
  endStatement
  variablesNode mark declarations "var"

/-! ### Imports and exports -/

/-- Reads imports and exports as outside functions, where the options allow them everywhere. -/
def moduleItem (complaint : Complaint) (rule : Parser Value) : Parser Value := do
  if (← get).options.allowImportExport.isTrue then
    let before := (← context).inFunction
    change fun c => { c with inFunction := false }
    let v ← rule
    change fun c => { c with inFunction := before }
    return v
  else
    if (← context).inFunction then refuseAfterLast complaint
    rule

/-- Reads the name of the module that is imported from. -/
def moduleSource : Parser Value := do
  let mark ← here
  let token ← ahead
  match token.lexeme with
  | .string value _ => literal mark (.text value) (← take)
  | _ => refuseAfterLast .unexpected

/-- Refuses the text for a missing `from`. -/
def missingFrom {α : Type} : Parser α := do
  let next ← ahead
  refuseAfterLast (if next.hasText then .unexpectedToken next.text else .unexpected)

/-- Reads the word `from` and the name of a module. -/
def fromModule : Parser Value := do
  if !(← isWord "from") then missingFrom
  let _ ← take
  moduleSource

/-- Reads a name that is imported, perhaps under another name. -/
def importSpecifier : Parser Value := do
  let mark ← here
  let isPlain := (← ahead).isIdentifier
  let imported ← if isPlain then variableName "" else identifierName
  let local' ← if ← isWord "as" then
      let _ ← take
      variableName ""
    else if isPlain then pure imported
    else refuseToken (← take)
  node mark .importSpecifier [("local", local'), ("imported", imported)]

/-- Reads the names that are imported, in braces. -/
def namedImports : Parser (List Value) := do
  expect leftBrace
  let items ← separated rightBrace (expect ",") importSpecifier
  expect rightBrace
  return items

/-- Reads the name under which a whole module is imported. -/
def namespaceImport : Parser Value := do
  let mark ← here
  expect "*"
  if !(← isWord "as") then refuseAfterLast .unexpected
  let _ ← take
  node mark .importNamespaceSpecifier [("local", ← identifierName)]

/-- Reads what is imported. -/
def importClause : Parser (List Value) := do
  let next ← ahead
  if next.isMark leftBrace then namedImports
  else if next.isMark "*" then return [← namespaceImport]
  else if next.isName && !next.isKeyword "default" then
    let mark ← here
    let default ← node mark .importDefaultSpecifier [("local", ← identifierName)]
    if ← takesMark "," then
      if ← isMark "*" then return [default, ← namespaceImport]
      else if ← isMark leftBrace then return default :: (← namedImports)
      else refuseToken (← ahead)
    else return [default]
  else refuseToken (← take)

/-- Reads an import. -/
def importDeclaration : Parser Value := moduleItem .illegalImport do
  let mark ← here
  expectKeyword "import"
  if (← ahead).isString then
    let source ← moduleSource
    endStatement
    node mark .importDeclaration [("specifiers", .array []), ("source", source)]
  else
    let specifiers ← importClause
    let source ← fromModule
    endStatement
    node mark .importDeclaration [("specifiers", .array specifiers), ("source", source)]

/-- Reads a name that is exported, perhaps under another name. -/
def exportSpecifier : Parser Value := do
  let mark ← here
  let local' ← identifierName
  let exported ← if ← isWord "as" then
      let _ ← take
      identifierName
    else pure local'
  finish mark "ExportSpecifier" [("exported", exported), ("local", local')]

/-- Reads the exported names in braces, and whether a reserved word is among them. -/
def exportedNames : Parser (List Value × Bool) := do
  expect leftBrace
  let items ← separated rightBrace (expect ",") do
    let isDefault ← isKeyword "default"
    return (← exportSpecifier, isDefault)
  expect rightBrace
  return (items.map Prod.fst, items.any Prod.snd)

/-- Reads the rest of an export of names. -/
def namedExport (mark : Mark) : Parser Value := do
  let first ← if (← ahead).isIdentifier then
      let own ← here
      let v ← finish own "ExportDefaultSpecifier" [("local", ← identifierName)]
      pure [v]
    else pure []
  let hasNames ← if first.isEmpty then pure true else takesMark ","
  let (names, hasDefault) ← if hasNames then exportedNames else pure ([], false)
  let source ← if ← isWord "from" then fromModule
    else if hasDefault then missingFrom
    else pure .null
  endStatement
  node mark .exportNamedDeclaration
    [("specifiers", .array (first ++ names)), ("source", source)]

/-- Reads the rest of a default export. -/
def defaultExport (mark : Mark) : Parser Value := do
  let result (v : Value) : Parser Value := node mark .exportDefaultDeclaration [("declaration", v)]
  if ← isKeyword "function" then result (← functionDeclaration true)
  else if ← isKeyword "class" then result (← classDeclaration true)
  else if ← isWord "async" then
    if ← isAsyncFunction then result (← functionDeclaration true)
    else result (← ask .assignment)
  else
    if ← isWord "from" then refuseAfterLast (.unexpectedToken "from")
    let v ← if ← isMark leftBrace then objectLiteral
      else if ← isMark "[" then array
      else ask .assignment
    endStatement
    result v

/-- Reads an export. -/
def exportDeclaration : Parser Value := moduleItem .illegalExport do
  let mark ← here
  expectKeyword "export"
  let declared (v : Value) : Parser Value :=
    node mark .exportNamedDeclaration [("declaration", v), ("specifiers", .array [])]
  let next ← ahead
  match next.lexeme with
  | .keyword "default" =>
    let _ ← take
    defaultExport mark
  | .punctuator "*" =>
    let _ ← take
    let source ← fromModule
    endStatement
    node mark .exportAllDeclaration [("source", source)]
  | .keyword word =>
    if word == "let" || word == "const" then declared (← lexicalDeclaration)
    else if word == "var" || word == "class" || word == "function" then declared (← ask .item)
    else refuseToken next
  | _ =>
    if ← isAsyncFunction then declared (← functionDeclaration false)
    else namedExport mark

end FreeNames.Grammar.Parser
