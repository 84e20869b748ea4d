import FreeNames.Grammar.Binding

/-!
# Functions and methods

A function body starts with directives, which may turn on strict mode for the whole function; what
was read of the function before is then looked at again.
-/

namespace FreeNames.Grammar.Parser

/-! ### Bodies -/

/-- Reads a directive: its statement and, if it is a plain string, the text between the quotes. -/
def directive : Parser (Value × Option String) := do
  let first ← ahead
  let mark ← here
  let e ← expression
  let raw ← rawText first
  let inner := if isKind e .literal then String.ofList (raw.toList.drop 1).dropLast else ""
  endStatement
  if inner.isEmpty then
    return (← node mark .expressionStatement [("expression", e)], none)
  else
    let statement ← node mark .expressionStatement
      [("expression", e), ("directive", .text inner)]
    return (statement, some inner)

/-- Reads the directives at the start of a program or a body. -/
def directives : Parser (List Value) :=
  repeating (([], none) : List Value × Option Token) fun (items, octal) => do
    let first ← ahead
    if !first.isString then return .inr items.reverse
    match ← directive with
    | (statement, none) => return .inr (statement :: items).reverse
    | (statement, some inner) =>
      let items := statement :: items
      if inner = "use strict" then
        change fun c => { c with strict := true }
        if let some token := octal then passAt token .strictOctal
        if !(← context).allowStrictDirective then
          passAt first .useStrictWithComplexParameters
        return .inl (items, octal)
      else
        return .inl (items, octal <|> if first.isOctal then some first else none)

/-- Reads the body of a function in braces. -/
def functionBody : Parser Value := do
  let mark ← here
  expect leftBrace
  let prologue ← directives
  let before ← context
  change fun c => { c with labels := [], inLoop := false, inSwitch := false, inFunction := true }
  let items ← itemsUntil (do if ← isEnd then return true else isMark rightBrace) (ask .item)
  expect rightBrace
  change fun c => { c with
    labels := before.labels, inLoop := before.inLoop, inSwitch := before.inSwitch
    inFunction := before.inFunction }
  node mark .blockStatement [("body", .array (prologue ++ items))]

/-! ### Parameters -/

/-- Reads one parameter and adds it to those before. -/
def formalParameter (ps : Parameters) : Parser Parameters := do
  let (param, names) ← collecting do
    if ← isMark "..." then restOfParameters else patternWithDefault ""
  let strict := (← context).strict
  return (names.foldl (fun ps t => ps.addName strict t.text (.token t)) ps).addNode param

/-- Reads parameters in parentheses. The name of the function may have offended already. -/
def formalParameters (firstOffender : Option Token) : Parser Parameters := do
  expect "("
  let start : Parameters := { firstOffender := firstOffender.map .token }
  let ps ← repeating start fun ps => do
    if (← isEnd) || (← isMark ")") then return .inr ps
    let ps ← formalParameter ps
    if !(← isMark ")") then expect ","
    return .inl ps
  expect ")"
  return ps

/-! ### Functions -/

/-- A function node. -/
def functionNode (mark : Mark) (kind : Kind) (id : Value) (params : List Value) (body : Value)
    (isGenerator isAsync isExpression : Bool) : Parser Value :=
  node mark kind [("id", id), ("params", .array params), ("body", body),
    ("generator", .bool isGenerator), ("expression", .bool isExpression), ("async", .bool isAsync)]

/-- What strict mode holds against the name of a function. Outside strict mode it is not yet said. -/
def checkFunctionName (token : Token) : Parser (Option (Token × Complaint)) := do
  let name := token.text
  if (← context).strict then
    if isRestricted name then passAt token .strictFunctionName
    return none
  else if isRestricted name then return some (token, .strictFunctionName)
  else if isStrictReserved name then return some (token, .strictReserved)
  else return none

/-- Reads the parameters and the body of a function whose name may have offended. -/
def parametersAndBody (named : Option (Token × Complaint)) : Parser (List Value × Value) := do
  let ps ← formalParameters (named.map Prod.fst)
  let blame := (ps.complaint <|> named.map Prod.snd).getD .unexpected
  let body ← keepingStrict do
    change fun c => { c with allowStrictDirective := ps.simple }
    let body ← functionBody
    if (← context).strict then
      if let some who := ps.firstOffender then refuseOffender who blame
      if let some who := ps.offender then passOffender who blame
    return body
  return (ps.nodes, body)

/-- Reads the words in front of the name of a function: whether it is asynchronous, and whether it
is a generator. -/
def functionWords : Parser (Bool × Bool) := do
  let isAsync ← isWord "async"
  if isAsync then let _ ← take
  expectKeyword "function"
  let isGenerator ← if isAsync then pure false else takesMark "*"
  return (isAsync, isGenerator)

/-- Makes `yield` and `await` mean what they mean in a function. -/
def enterFunction (isAsync isGenerator : Bool) : Parser Unit :=
  change fun c => { c with allowAwait := isAsync, allowYield := !isGenerator }

/-- Reads a function declaration. -/
def functionDeclaration (nameIsOptional : Bool) : Parser Value := do
  let mark ← here
  let (isAsync, isGenerator) ← functionWords
  let mut id := Value.null
  let mut named := none
  if !nameIsOptional || !(← isMark "(") then
    let token ← ahead
    id ← variableName ""
    named ← checkFunctionName token
  let (params, body) ← keepingWords do
    enterFunction isAsync isGenerator
    parametersAndBody named
  functionNode mark .functionDeclaration id params body isGenerator isAsync false

/-- Reads a function expression. -/
def functionExpression : Parser Value := do
  let mark ← here
  let (isAsync, isGenerator) ← functionWords
  let (id, params, body) ← keepingWords do
    enterFunction isAsync isGenerator
    let mut id := Value.null
    let mut named := none
    if !(← isMark "(") then
      let token ← ahead
      id ← if !(← context).strict && !isGenerator && token.isKeyword "yield" then identifierName
        else variableName ""
      named ← checkFunctionName token
    let (params, body) ← parametersAndBody named
    return (id, params, body)
  functionNode mark .functionExpression id params body isGenerator isAsync false

/-- Whether an asynchronous function starts here. -/
def isAsyncFunction : Parser Bool := do
  if ← isWord "async" then
    let line := (← get).scanner.line
    let next ← peek
    return next.line = line && next.isKeyword "function"
  else return false

/-! ### Methods -/

/-- Reads the body of a method. -/
def methodBody (ps : Parameters) : Parser Value := do
  markPlain
  keepingStrict do
    change fun c => { c with allowStrictDirective := ps.simple }
    let body ← isolated functionBody
    if (← context).strict then
      if let some who := ps.firstOffender then passOffender who ps.blame
      if let some who := ps.offender then passOffender who ps.blame
    return body

/-- Reads a method behind its key. The rule `check` looks at the parameters before the body is
read. -/
def methodWith (isGenerator isAsync : Bool) (check : Parameters → Parser Unit) : Parser Value := do
  let mark ← here
  let (params, body) ← keepingWords do
    change fun c => { c with allowYield := !isAsync, allowAwait := isAsync || c.allowAwait }
    let ps ← formalParameters none
    check ps
    return (ps.nodes, ← methodBody ps)
  functionNode mark .functionExpression .null params body isGenerator isAsync false

/-- Reads a plain or an asynchronous method. -/
def method (isAsync : Bool) : Parser Value := methodWith false isAsync fun _ => pure ()

/-- Reads a generator method. -/
def generatorMethod : Parser Value :=
  methodWith true false fun _ => change fun c => { c with allowYield := false }

/-- Reads a getter behind its key. -/
def getter : Parser Value := methodWith false false fun ps => do
  if !ps.nodes.isEmpty then passAfterLast .getterParameters

/-- Reads a setter behind its key. -/
def setter : Parser Value := methodWith false false fun ps => do
  match ps.nodes with
  | [param] => if isKind param .restElement then passAfterLast .setterRest
  | _ => passAfterLast .setterParameters

end FreeNames.Grammar.Parser
