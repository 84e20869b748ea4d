import FreeNames.Grammar.Declaration

/-!
# Statements

A tolerant reader passes over a missing parenthesis behind the head of a statement; the statement
then has an empty body.
-/

namespace FreeNames.Grammar.Parser

/-! ### Blocks and expressions -/

/-- Reads a block. -/
def block : Parser Value := do
  let mark ← here
  expect leftBrace
  let items ← itemsUntil (isMark rightBrace) (ask .item)
  expect rightBrace
  node mark .blockStatement [("body", .array items)]

/-- Reads a statement that is an expression. -/
def expressionStatement : Parser Value := do
  let mark ← here
  let e ← expression
  endStatement
  node mark .expressionStatement [("expression", e)]

/-- Reads the parenthesis behind the head of a statement and then its body. -/
def bodyBehindHead (body : Parser Value) : Parser Value := do
  if !(← isMark ")") && (← isTolerant) then
    passToken (← take)
    missingBody
  else
    expect ")"
    body

/-! ### Choices and loops -/

/-- Reads a branch of an `if`. -/
def branch : Parser Value := do
  if (← context).strict && (← isKeyword "function") then passAfterLast .strictFunction
  ask .statement

/-- Reads an `if`. -/
def ifStatement : Parser Value := do
  let mark ← here
  expectKeyword "if"
  expect "("
  let test ← expression
  let isClosed ← isMark ")"
  let consequent ← bodyBehindHead branch
  let alternate ← if isClosed && (← isKeyword "else") then
      let _ ← take
      branch
    else pure .null
  node mark .ifStatement
    [("test", test), ("consequent", consequent), ("alternate", alternate)]

/-- Reads a `do` loop. -/
def doWhileStatement : Parser Value := do
  let mark ← here
  expectKeyword "do"
  let body ← inLoop (ask .statement)
  expectKeyword "while"
  expect "("
  let test ← expression
  if !(← isMark ")") && (← isTolerant) then passToken (← take)
  else
    expect ")"
    let _ ← takesMark ";"
  node mark .doWhileStatement [("body", body), ("test", test)]

/-- Reads a `while` loop. -/
def whileStatement : Parser Value := do
  let mark ← here
  expectKeyword "while"
  expect "("
  let test ← expression
  let body ← bodyBehindHead (inLoop (ask .statement))
  node mark .whileStatement [("test", test), ("body", body)]

/-- The head of a `for` loop. -/
inductive ForHead where
  | counting (init : Value)
  | ranging (kind : Kind) (left right : Value)

/-- The kind of loop that the next word makes, `in` over keys and `of` over items. -/
def rangingKind? : Parser (Option Kind) := do
  if ← isKeyword "in" then return some .forInStatement
  else if ← isWord "of" then return some .forOfStatement
  else return none

/-- Reads the rest of the head of a loop over the keys or the items of something. -/
def rangingRest (kind : Kind) (left : Value) : Parser ForHead := do
  let _ ← take
  let right ← if kind = .forInStatement then expression else ask .assignment
  return .ranging kind left right

/-- Whether a single variable without an initial value is declared. -/
def isBareVariable : List Value → Bool
  | [d] => (fieldOf d "init").isNull
  | _ => false

/-- Whether a loop over keys gives its variable an initial value where it may not. -/
def isBadLoopVariable (strict : Bool) (d : Value) : Bool :=
  !(fieldOf d "init").isNull &&
    (isKind (fieldOf d "id") .arrayPattern || isKind (fieldOf d "id") .objectPattern || strict)

/-- Reads the head of a loop with `var`. -/
def varHead : Parser ForHead := do
  let mark ← here
  let _ ← take
  let declarations ← withIn false (commaList (variable' true))
  let form ← rangingKind?
  match declarations, form with
  | [d], some .forInStatement =>
    if isBadLoopVariable (← context).strict d then passAfterLast (.loopInitializer "for-in")
    rangingRest .forInStatement (← variablesNode mark declarations "var")
  | _, _ =>
    let left ← variablesNode mark declarations "var"
    if form = some .forOfStatement && isBareVariable declarations then
      rangingRest .forOfStatement left
    else
      expect ";"
      return .counting left

/-- Reads the head of a loop with `let` or `const`, which outside strict mode can be a name before
`in`. -/
def lexicalHead : Parser ForHead := do
  let mark ← here
  let kind := (← take).text.shown
  if !(← context).strict && (← ahead).text == "in" then
    rangingRest .forInStatement (← identifier mark kind)
  else
    let declarations ← withIn false (commaList (lexicalBinding kind true))
    match ← rangingKind?, isBareVariable declarations with
    | some form, true => rangingRest form (← variablesNode mark declarations kind)
    | _, _ =>
      endStatement
      return .counting (← variablesNode mark declarations kind)

/-- Reads the head of a loop with an expression. -/
def expressionHead : Parser ForHead := do
  let first ← ahead
  let init ← withIn false (inherited (ask .assignment))
  match ← rangingKind? with
  | some form =>
    if !(← context).isTarget || isKind init .assignmentExpression then
      passAfterLast (if form = .forInStatement then .badForInTarget else .badForLoopTarget)
    rangingRest form (asPattern init)
  | none =>
    let rest ← itemsUntil (return !(← isMark ",")) do
      let _ ← take
      isolated (ask .assignment)
    let init ← if rest.isEmpty then pure init
      else node (markOf first) .sequenceExpression [("expressions", .array (init :: rest))]
    expect ";"
    return .counting init

/-- Reads a `for` loop. -/
def forStatement : Parser Value := do
  let mark ← here
  expectKeyword "for"
  expect "("
  let head ← if ← takesMark ";" then pure (.counting .null)
    else if ← isKeyword "var" then varHead
    else if (← isKeyword "const") || (← isKeyword "let") then lexicalHead
    else expressionHead
  let body := bodyBehindHead (inLoop (isolated (ask .statement)))
  match head with
  | .ranging kind left right =>
    let body ← body
    let each := if kind = .forInStatement then Value.bool false else .null
    node mark kind [("left", left), ("right", right), ("body", body), ("each", each)]
  | .counting init =>
    let test ← if ← isMark ";" then pure .null else expression
    expect ";"
    let update ← if ← isMark ")" then pure .null else expression
    let body ← body
    node mark .forStatement [("init", init), ("test", test), ("update", update), ("body", body)]

/-! ### Jumps -/

/-- Reads the label that a jump names, if there is one. -/
def jumpLabel : Parser Value := do
  if (← ahead).isIdentifier && !(← get).lineBreak then
    let id ← variableName ""
    if !(← context).labels.contains (nameOf id) then refuseAfterLast (.unknownLabel (nameOf id))
    return id
  else return .null

/-- Reads a `continue`. -/
def continueStatement : Parser Value := do
  let mark ← here
  expectKeyword "continue"
  let label ← jumpLabel
  endStatement
  if label.isNull && !(← context).inLoop then refuseAfterLast .illegalContinue
  node mark .continueStatement [("label", label)]

/-- Reads a `break`. -/
def breakStatement : Parser Value := do
  let mark ← here
  expectKeyword "break"
  let label ← jumpLabel
  endStatement
  let c ← context
  if label.isNull && !c.inLoop && !c.inSwitch then refuseAfterLast .illegalBreak
  node mark .breakStatement [("label", label)]

/-- Reads a `return`. A string or a template is its value also behind a line end. -/
def returnStatement : Parser Value := do
  if !(← context).inFunction && !(← get).options.allowReturn.isTrue then passAfterLast .illegalReturn
  let mark ← here
  expectKeyword "return"
  let next ← ahead
  let hasValue := next.isString || next.isTemplate ||
    !(next.isMark ";" || next.isMark rightBrace || next.isEnd || (← get).lineBreak)
  let argument ← if hasValue then expression else pure .null
  endStatement
  node mark .returnStatement [("argument", argument)]

/-- Reads a `throw`. -/
def throwStatement : Parser Value := do
  let mark ← here
  expectKeyword "throw"
  if (← get).lineBreak then refuseAfterLast .newlineAfterThrow
  let argument ← expression
  endStatement
  node mark .throwStatement [("argument", argument)]

/-! ### Other statements -/

/-- Reads a `with`. -/
def withStatement : Parser Value := do
  if (← context).strict then passAfterLast .strictWith
  let mark ← here
  expectKeyword "with"
  expect "("
  let v ← expression
  let body ← bodyBehindHead (ask .statement)
  node mark .withStatement [("object", v), ("body", body)]

/-- Reads one case of a `switch`. -/
def switchCase : Parser Value := do
  let mark ← here
  let test ← if ← takesKeyword "default" then pure .null
    else
      expectKeyword "case"
      expression
  expect ":"
  let stop : Parser Bool := do
    let next ← ahead
    return next.isMark rightBrace || next.isKeyword "default" || next.isKeyword "case"
  let consequent ← itemsUntil stop (ask .item)
  node mark .switchCase [("test", test), ("consequent", .array consequent)]

/-- Reads a `switch`. -/
def switchStatement : Parser Value := do
  let mark ← here
  expectKeyword "switch"
  expect "("
  let discriminant ← expression
  expect ")"
  let before := (← context).inSwitch
  change fun c => { c with inSwitch := true }
  expect leftBrace
  let cases ← repeating (([], false) : List Value × Bool) fun (cases, hasDefault) => do
    if ← isMark rightBrace then return .inr cases.reverse
    let v ← switchCase
    let isDefault := (fieldOf v "test").isNull
    if isDefault && hasDefault then refuseAfterLast .secondDefault
    return .inl (v :: cases, hasDefault || isDefault)
  expect rightBrace
  change fun c => { c with inSwitch := before }
  node mark .switchStatement [("discriminant", discriminant), ("cases", .array cases)]

/-- Reads what stands behind a label. -/
def labelledBody : Parser Value := do
  let token ← ahead
  if token.isKeyword "class" then
    passToken token
    classDeclaration false
  else if token.isKeyword "function" then
    let v ← functionDeclaration false
    if (← context).strict then passAt token .strictFunction
    else if (fieldOf v "generator").isTrue then passAt token .generatorInLegacyContext
    return v
  else ask .statement

/-- Reads a statement that starts with a name: one with a label, or an expression. -/
def labelledStatement : Parser Value := do
  let mark ← here
  let e ← expression
  if isKind e .identifier && (← isMark ":") then
    let _ ← take
    let name := nameOf e
    if (← context).labels.contains name then refuseAfterLast (.duplicateLabel name)
    change fun c => { c with labels := name :: c.labels }
    let body ← labelledBody
    change fun c => { c with labels := c.labels.erase name }
    node mark .labeledStatement [("label", e), ("body", body)]
  else
    endStatement
    node mark .expressionStatement [("expression", e)]

/-- Passes over names that a `catch` binds twice. -/
def checkRepeatedNames (seen : List Text) : List Token → Parser Unit
  | [] => pure ()
  | t :: rest => do
    if seen.contains t.text then passAfterLast (.duplicateBinding t.text)
    checkRepeatedNames (t.text :: seen) rest

/-- Reads a `catch`. -/
def catchClause : Parser Value := do
  let mark ← here
  expectKeyword "catch"
  expect "("
  if ← isMark ")" then refuseToken (← ahead)
  let (param, names) ← collecting (ask (.pattern ""))
  checkRepeatedNames [] names
  if (← context).strict && isNameWith param isRestricted then passAfterLast .strictCatch
  expect ")"
  let body ← block
  node mark .catchClause [("param", param), ("body", body)]

/-- Reads a `try`. -/
def tryStatement : Parser Value := do
  let mark ← here
  expectKeyword "try"
  let body ← block
  let handler ← if ← isKeyword "catch" then catchClause else pure .null
  let finalizer ← if ← takesKeyword "finally" then block else pure .null
  if handler.isNull && finalizer.isNull then refuseAfterLast .noCatchOrFinally
  node mark .tryStatement [("block", body), ("handler", handler), ("finalizer", finalizer)]

/-- Reads a `debugger`. -/
def debuggerStatement : Parser Value := do
  let mark ← here
  expectKeyword "debugger"
  endStatement
  node mark .debuggerStatement []

/-- Reads a statement that starts with a keyword. -/
def keywordStatement (word : String) : Parser Value :=
  match word with
  | "break" => breakStatement
  | "continue" => continueStatement
  | "debugger" => debuggerStatement
  | "do" => doWhileStatement
  | "for" => forStatement
  | "function" => functionDeclaration false
  | "if" => ifStatement
  | "return" => returnStatement
  | "switch" => switchStatement
  | "throw" => throwStatement
  | "try" => tryStatement
  | "var" => variableStatement
  | "while" => whileStatement
  | "with" => withStatement
  | _ => expressionStatement

/-- Reads a statement. -/
def statement : Parser Value := do
  let token ← ahead
  match token.lexeme with
  | .endOfText => refuseToken token
  | .punctuator leftBrace => block
  | .punctuator ";" =>
    let mark ← here
    let _ ← take
    node mark .emptyStatement []
  | .identifier _ => if ← isAsyncFunction then functionDeclaration false else labelledStatement
  | .keyword word => keywordStatement word
  | _ => expressionStatement

/-- Passes over an import or export in a script, unless the options allow it. -/
def checkModuleItem (token : Token) (complaint : Complaint) : Parser Unit := do
  if !(← isModule) && !(← get).options.allowImportExport.isTrue then passAt token complaint

/-- Reads a statement or a declaration. -/
def item : Parser Value := do
  change fun c => { c with isTarget := true, isBinding := true }
  let token ← ahead
  match token.lexeme with
  | .keyword "export" =>
    checkModuleItem token .illegalExport
    exportDeclaration
  | .keyword "import" =>
    if ← isImportCall then expressionStatement
    else
      checkModuleItem token .illegalImport
      importDeclaration
  | .keyword "const" => lexicalDeclaration
  | .keyword "function" => functionDeclaration false
  | .keyword "class" => classDeclaration false
  | .keyword "let" => if ← isLexicalDeclaration then lexicalDeclaration else statement
  | _ => statement

end FreeNames.Grammar.Parser
