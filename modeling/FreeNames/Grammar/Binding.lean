import FreeNames.Grammar.Cover

/-!
# Names, keys and binding patterns

The rules for the places where a name is declared: a variable, a parameter, an import. A pattern
notes the token of every name that it binds.
-/

namespace FreeNames.Grammar.Parser

/-- Reads an expression that may have commas in it. -/
def expression : Parser Value := do
  let first ← ahead
  let items ← commaList (isolated (ask .assignment))
  match items with
  | [v] => return v
  | _ => node (markOf first) .sequenceExpression [("expressions", .array items)]

/-- Reads a word as a name, also if it is reserved. -/
def identifierName : Parser Value := do
  let mark ← here
  let token ← take
  if !token.isName then refuseToken token
  identifier mark token.text

/-- Reads a name that is declared or referred to in a declaration of a kind. -/
def variableName (kind : String) : Parser Value := do
  let mark ← here
  let token ← take
  let c ← context
  if token.isKeyword "yield" then
    if c.strict then passAt token .strictReserved
    else if !c.allowYield then refuseToken token
  else if !token.isIdentifier then
    let reserved := match token.lexeme with
      | .keyword word => isStrictReserved word
      | _ => false
    if c.strict && reserved then passAt token .strictReserved
    else if c.strict || token.text != "let" || kind != "var" then refuseToken token
  else if ((← isModule) || c.allowAwait) && token.isWord "await" then passToken token
  identifier mark token.text

/-- Reads the key of a property or method. -/
def propertyKey : Parser Value := do
  let mark ← here
  let token ← take
  let checkOctal : Parser Unit := do
    if (← context).strict && token.isOctal then passAt token .strictOctal
  match token.lexeme with
  | .string value _ =>
    checkOctal
    literal mark (.text value) token
  | .number value _ =>
    checkOctal
    literal mark value token
  | .punctuator "[" =>
    let key ← isolated (ask .assignment)
    expect "]"
    return key
  | _ =>
    if token.isName then identifier mark token.text else refuseToken token

/-- Whether a key is the name or string `text`. -/
def isKeyText (key : Value) (text : String) : Bool :=
  isNameWith key (· == text) ||
    (isKind key .literal && (fieldOf key "value").isText text)

/-- A property node. -/
def propertyNode (mark : Mark) (kind : String) (key : Value) (computed : Bool) (value : Value)
    (method shorthand : Bool) : Parser Value :=
  node mark .property [("key", key), ("computed", .bool computed), ("value", value),
    ("kind", .text kind), ("method", .bool method), ("shorthand", .bool shorthand)]

/-! ### Patterns -/

/-- Reads a pattern that may have a default. -/
def patternWithDefault (kind : String) : Parser Value := do
  let first ← ahead
  let left ← ask (.pattern kind)
  if ← takesMark "=" then
    let before := (← context).allowYield
    change fun c => { c with allowYield := true }
    let right ← isolated (ask .assignment)
    change fun c => { c with allowYield := before }
    node (markOf first) .assignmentPattern [("left", left), ("right", right)]
  else return left

/-- Reads the rest of an array in a pattern. -/
def restInArray (kind : String) : Parser Value := do
  let mark ← here
  expect "..."
  node mark .restElement [("argument", ← ask (.pattern kind))]

/-- Reads an array pattern. Nothing may follow its rest. -/
def arrayPattern (kind : String) : Parser Value := do
  let mark ← here
  expect "["
  let items ← repeating ([] : List Value) fun items => do
    if ← isMark "]" then return .inr items
    else if ← takesMark "," then return .inl (.null :: items)
    else if ← isMark "..." then return .inr ((← restInArray kind) :: items)
    else
      let item ← patternWithDefault kind
      if !(← isMark "]") then expect ","
      return .inl (item :: items)
  expect "]"
  node mark .arrayPattern [("elements", .array items.reverse)]

/-- Reads a property of an object pattern. -/
def propertyPattern (kind : String) : Parser Value := do
  let mark ← here
  let first ← ahead
  if first.isIdentifier then
    let key ← variableName ""
    let name ← identifier mark first.text
    if ← isMark "=" then
      noteName first
      let _ ← take
      let right ← ask .assignment
      let value ← node (markOf first) .assignmentPattern [("left", name), ("right", right)]
      propertyNode mark "init" key false value false true
    else if ← takesMark ":" then
      propertyNode mark "init" key false (← patternWithDefault kind) false false
    else
      noteName first
      propertyNode mark "init" key false name false true
  else
    let computed ← isMark "["
    let key ← propertyKey
    expect ":"
    propertyNode mark "init" key computed (← patternWithDefault kind) false false

/-- Reads the rest of an object in a pattern. -/
def restInObject : Parser Value := do
  let mark ← here
  expect "..."
  let argument ← ask (.pattern "")
  if ← isMark "=" then refuseAfterLast (.unexpectedToken "=")
  if !(← isMark rightBrace) then refuseAfterLast .unexpected
  node mark .restElement [("argument", argument)]

/-- Reads an object pattern. -/
def objectPattern (kind : String) : Parser Value := do
  let mark ← here
  expect leftBrace
  let properties ← separated rightBrace (expect ",") do
    if ← isMark "..." then restInObject else propertyPattern kind
  expect rightBrace
  node mark .objectPattern [("properties", .array properties)]

/-- Reads a pattern. -/
def pattern (kind : String) : Parser Value := do
  if ← isMark "[" then arrayPattern kind
  else if ← isMark leftBrace then objectPattern kind
  else
    let token ← ahead
    if token.isKeyword "let" && (kind == "const" || kind == "let") then
      passAt token .letAsLexicalName
    noteName token
    variableName kind

/-- Reads the rest of some parameters. -/
def restOfParameters : Parser Value := do
  let mark ← here
  expect "..."
  let argument ← ask (.pattern "")
  if ← isMark "=" then refuseAfterLast (.unexpectedToken "=")
  if !(← isMark ")") then refuseAfterLast .parameterAfterRest
  node mark .restElement [("argument", argument)]

end FreeNames.Grammar.Parser
