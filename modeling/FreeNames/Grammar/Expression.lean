import FreeNames.Grammar.Class

/-!
# Expressions

The rules for expressions, from the literals up to assignments and arrow functions.
-/

namespace FreeNames.Grammar.Parser

/-! ### Templates -/

/-- A piece of a template from its token, and whether it is the last one. -/
def templatePiece : Parser (Value × Bool) := do
  let mark ← here
  let token ← take
  match token.lexeme with
  | .template raw cooked _ tail =>
    let value := object [("raw", .text raw), ("cooked", .text cooked)]
    return (← node mark .templateElement [("value", value), ("tail", .bool tail)], tail)
  | _ => throw .strayTemplate

/-- Reads a template. A piece that goes on with a template can stand only inside one. -/
def template : Parser Value := do
  if !(← ahead).isTemplateHead then throw .strayTemplate
  let mark ← here
  let (head, ends) ← templatePiece
  let (quasis, expressions) ← repeating (([head], [], ends) : List Value × List Value × Bool)
    fun (quasis, expressions, ends) => do
      if ends then return .inr (quasis.reverse, expressions.reverse)
      let e ← expression
      if !(← ahead).isTemplate then refuseAfterLast .illegal
      let (piece, ends) ← templatePiece
      return .inl (piece :: quasis, e :: expressions, ends)
  node mark .templateLiteral [("quasis", .array quasis), ("expressions", .array expressions)]

/-! ### Arrays and objects -/

/-- Reads a spread. -/
def spread : Parser Value := do
  let mark ← here
  expect "..."
  let argument ← inherited (ask .assignment)
  node mark .spreadElement [("argument", argument)]

/-- Reads an array. A spread that is not last can be no rest of a pattern. -/
def array : Parser Value := do
  let mark ← here
  expect "["
  let items ← itemsUntil (isMark "]") do
    if ← takesMark "," then return .null
    else if ← isMark "..." then
      let item ← spread
      if !(← isMark "]") then
        markPlain
        expect ","
      return item
    else
      let item ← inherited (ask .assignment)
      if !(← isMark "]") then expect ","
      return item
  expect "]"
  node mark .arrayExpression [("elements", .array items)]

/-- Reads what follows the key of a plain property: a value, a method, or nothing where the key is
a name. `hasProto` says whether the object sets its prototype already. -/
def propertyRest (mark : Mark) (first : Token) (key : Value) (computed isAsync hasProto : Bool) :
    Parser (Value × Bool) := do
  if !isAsync && (← isMark ":") then
    let isProto := !computed && isKeyText key "__proto__"
    if isProto && hasProto then passAfterLast .duplicateProto
    let _ ← take
    let value ← inherited (ask .assignment)
    return (← propertyNode mark "init" key computed value false false, hasProto || isProto)
  else if ← isMark "(" then
    let value ← method isAsync
    return (← propertyNode mark "init" key computed value true false, hasProto)
  else if first.isIdentifier then
    let name ← identifier mark first.text
    let equals ← ahead
    if equals.isMark "=" then
      change fun c => { c with initializer := some equals }
      let _ ← take
      let right ← isolated (ask .assignment)
      let value ← node mark .assignmentPattern [("left", name), ("right", right)]
      return (← propertyNode mark "init" key computed value false true, hasProto)
    else return (← propertyNode mark "init" key computed name false true, hasProto)
  else refuseToken (← take)

/-- Reads the key of a property, with `async` in front of it: the key, whether it is computed, and
whether the word `async` stood there. None if there is a star in place of the key. -/
def propertyHead (mark : Mark) (first : Token) : Parser (Option Value × Bool × Bool) := do
  if first.isIdentifier then
    let _ ← take
    let computed ← isMark "["
    let isAsync := !(← get).lineBreak && first.isWord "async" &&
      !(← isOneOfMarks [":", "(", "*", ","])
    let key ← if isAsync then propertyKey else identifier mark first.text
    return (some key, computed, isAsync)
  else if ← takesMark "*" then return (none, false, false)
  else
    let computed ← isMark "["
    return (some (← propertyKey), computed, false)

/-- Reads a property of an object. -/
def property (hasProto : Bool) : Parser (Value × Bool) := do
  let mark ← here
  let first ← ahead
  let (head, computed, isAsync) ← propertyHead mark first
  let hasKey := (← ahead).isPropertyName
  if !isAsync && first.isWord "get" && hasKey then
    let computed ← isMark "["
    let key ← propertyKey
    change fun c => { c with allowYield := false }
    let value ← getter
    return (← propertyNode mark "get" key computed value false false, hasProto)
  else if !isAsync && first.isWord "set" && hasKey then
    let computed ← isMark "["
    let key ← propertyKey
    let value ← setter
    return (← propertyNode mark "set" key computed value false false, hasProto)
  else if first.isMark "*" && hasKey then
    let computed ← isMark "["
    let key ← propertyKey
    let value ← generatorMethod
    return (← propertyNode mark "init" key computed value true false, hasProto)
  else
    match head with
    | some key => propertyRest mark first key computed isAsync hasProto
    | none => refuseToken (← ahead)

/-- Reads an object. -/
def objectLiteral : Parser Value := do
  let mark ← here
  expect leftBrace
  let properties ← repeating (([], false) : List Value × Bool) fun (items, hasProto) => do
    if ← isMark rightBrace then return .inr items.reverse
    let (item, hasProto) ← if ← isMark "..." then
        let item ← spread
        pure (item, hasProto)
      else property hasProto
    if !(← isMark rightBrace) then expectSeparator
    return .inl (item :: items, hasProto)
  expect rightBrace
  node mark .objectExpression [("properties", .array properties)]

/-! ### Parentheses -/

/-- Parameters in parentheses that are read up to the arrow, which has to follow. -/
def beforeArrow (params : List Value) : Parser Value := do
  if !(← isMark "=>") then expect "=>"
  return arrowParameters params false

/-- Reads the items behind the first comma in parentheses: the items, and whether they end as only
parameters can, in which case the closing parenthesis is read. -/
def groupItems (items : List Value) : Parser (List Value × Bool) :=
  repeating items.reverse fun items => do
    if !(← isMark ",") then return .inr (items.reverse, false)
    let _ ← take
    if ← takesMark ")" then return .inr (items.reverse.map asPattern, true)
    else if ← isMark "..." then
      if !(← context).isBinding then refuseToken (← ahead)
      let (rest, _) ← collecting restOfParameters
      expect ")"
      if !(← isMark "=>") then expect "=>"
      change fun c => { c with isBinding := false }
      return .inr ((rest :: items).reverse.map asPattern, true)
    else return .inl ((← inherited (ask .assignment)) :: items)

/-- Reads the closing parenthesis of a group. Before an arrow, the group has to be parameters. -/
def closeGroup (e : Value) : Parser Value := do
  expect ")"
  let result ← if ← isMark "=>" then
      if isNameWith e (· == "yield") then pure (arrowParameters [e] false)
      else
        if !(← context).isBinding then refuseToken (← ahead)
        let items := if isKind e .sequenceExpression then itemsOf (fieldOf e "expressions") else [e]
        pure (arrowParameters (items.map asPattern) false)
    else pure e
  change fun c => { c with isBinding := false }
  return result

/-- Reads an expression in parentheses, or the parameters of an arrow function. -/
def group : Parser Value := do
  expect "("
  if ← takesMark ")" then beforeArrow []
  else
    let first ← ahead
    if ← isMark "..." then
      let (rest, _) ← collecting restOfParameters
      expect ")"
      beforeArrow [rest]
    else
      change fun c => { c with isBinding := true }
      let e ← inherited (ask .assignment)
      if ← isMark "," then
        change fun c => { c with isTarget := false }
        let (items, areParameters) ← groupItems [e]
        if areParameters then return arrowParameters items false
        else
          closeGroup (← node (markOf first) .sequenceExpression [("expressions", .array items)])
      else closeGroup e

/-! ### Primary expressions -/

/-- Whether a call of `import` starts here. -/
def isImportCall : Parser Bool := do
  if ← isKeyword "import" then return (← peek).isMark "("
  else return false

/-- Reads a regular expression. -/
def regExp : Parser Value := do
  let mark ← here
  markPlain
  let token ← takeRegExp
  let regex := match token.lexeme with
    | .regExp pattern flags => object [("pattern", .text pattern), ("flags", .text flags)]
    | _ => .null
  node mark .literal [("raw", .text (← rawText token)), ("regex", regex)]

/-- Reads a number or a string. -/
def plainLiteral (value : Value) : Parser Value := do
  let mark ← here
  let token ← ahead
  if (← context).strict && token.isOctal then passAt token .strictOctal
  markPlain
  literal mark value (← take)

/-- Reads an expression that starts with a keyword. -/
def keywordExpression : Parser Value := do
  let mark ← here
  let token ← ahead
  let c ← context
  if !c.strict && c.allowYield && token.isKeyword "yield" then identifierName
  else if !c.strict && token.isKeyword "let" then
    let _ ← take
    identifier mark token.text
  else
    markPlain
    if token.isKeyword "function" then functionExpression
    else if token.isKeyword "this" then
      let _ ← take
      node mark .thisExpression []
    else if token.isKeyword "class" then classExpression
    else if ← isImportCall then
      let _ ← take
      node mark .importCallee []
    else refuseToken (← take)

/-- Reads an expression that is not made of others by operators. -/
def primary : Parser Value := do
  let mark ← here
  let token ← ahead
  match token.lexeme with
  | .identifier name =>
    if ((← isModule) || (← context).allowAwait) && name == "await" then passToken token
    if ← isAsyncFunction then functionExpression
    else
      let _ ← take
      identifier mark name
  | .number value _ => plainLiteral value
  | .string value _ => plainLiteral (.text value)
  | .boolean b => plainLiteral (.bool b)
  | .nullWord => plainLiteral .null
  | .template .. => template
  | .keyword _ => keywordExpression
  | .punctuator "(" =>
    change fun c => { c with isBinding := false }
    inherited group
  | .punctuator "[" => inherited array
  | .punctuator leftBrace => inherited objectLiteral
  | .punctuator "/" => regExp
  | .punctuator "/=" => regExp
  | _ => refuseToken (← take)

/-! ### Members and calls -/

/-- Reads arguments in parentheses by a rule for each. -/
def argumentsBy (item : Parser Value) : Parser (List Value) := do
  expect "("
  let items ← separated ")" expectSeparator do
    if ← isMark "..." then spread else isolated item
  expect ")"
  return items

/-- Reads the arguments of a call. -/
def callArguments : Parser (List Value) := argumentsBy (ask .assignment)

/-- Reads arguments that may turn out to be the parameters of an asynchronous arrow function. -/
def asyncArguments : Parser (List Value) := argumentsBy do
  let v ← ask .assignment
  change fun c => { c with initializer := none }
  return v

/-- Reads an object creation, or the target of one. -/
def creation : Parser Value := do
  let mark ← here
  let id ← identifierName
  if ← takesMark "." then
    let next ← ahead
    if next.isWord "target" && (← context).inFunction then
      let property ← identifierName
      node mark .metaProperty [("meta", id), ("property", property)]
    else refuseToken next
  else if ← isKeyword "import" then refuseToken (← ahead)
  else
    let callee ← isolated (ask .member)
    let args ← if ← isMark "(" then callArguments else pure []
    markPlain
    node mark .newExpression [("callee", callee), ("arguments", .array args)]

/-- A member of an object. -/
def memberNode (mark : Mark) (v property : Value) (computed : Bool) : Parser Value :=
  node mark .memberExpression
    [("object", v), ("property", property), ("computed", .bool computed)]

/-- Reads one more part of a chain of members: a name, a computed key or a template. None if no such
part follows. -/
def memberPart (mark : Mark) (v : Value) : Parser (Option Value) := do
  if ← isMark "." then
    markTarget
    expect "."
    return some (← memberNode mark v (← identifierName) false)
  else if ← isMark "[" then
    markTarget
    expect "["
    let property ← isolated expression
    expect "]"
    return some (← memberNode mark v property true)
  else if (← ahead).isTemplateHead then
    let quasi ← template
    return some (← node mark .taggedTemplateExpression [("tag", v), ("quasi", quasi)])
  else return none

/-- Reads the start of a chain of members. The rule `isFollowed` says what may follow `super`. -/
def chainStart (isFollowed : Parser Bool) : Parser Value := do
  if (← isKeyword "super") && (← context).inFunction then
    let mark ← here
    let _ ← take
    if !(← isFollowed) then refuseToken (← ahead)
    node mark .superReference []
  else if ← isKeyword "new" then inherited creation
  else inherited primary

/-- Reads a chain of members without calls. -/
def memberChain : Parser Value := do
  let first ← ahead
  let v ← chainStart (isOneOfMarks ["[", "."])
  repeating v fun v => do
    match ← memberPart (markOf first) v with
    | some v => return .inl v
    | none => return .inr v

/-- Reads a call of a value. Arguments of a call of `async` may turn out to be parameters. -/
def callOf (first : Token) (maybeAsync : Bool) (v : Value) : Parser Value := do
  let isAsync := maybeAsync && first.line = (← ahead).line
  markPlain
  let args ← if isAsync then asyncArguments else callArguments
  if isKind v .importCallee && args.length ≠ 1 then passAfterLast .unexpected
  if isAsync && (← isMark "=>") then return arrowParameters (args.map asPattern) true
  else node (markOf first) .callExpression [("callee", v), ("arguments", .array args)]

/-- Reads a chain of members and calls. -/
def callChain : Parser Value := withIn true do
  let first ← ahead
  let maybeAsync := first.isWord "async"
  let v ← chainStart (isOneOfMarks ["(", ".", "["])
  repeating v fun v => do
    if ← isMark "(" then return .inl (← callOf first maybeAsync v)
    else
      match ← memberPart (markOf first) v with
      | some v => return .inl v
      | none => return .inr v

/-! ### Operators -/

/-- Passes over a protected name, or something that cannot be assigned to, next to `++` or `--`. -/
def checkUpdated (v : Value) (complaint : Complaint) : Parser Unit := do
  if (← context).strict && isNameWith v isRestricted then passAfterLast complaint
  if !(← context).isTarget then passAfterLast .badAssignmentTarget

/-- Reads an expression with `++` or `--` in front of it or behind it. -/
def update : Parser Value := do
  let first ← ahead
  let updateNode (operator : Text) (v : Value) (isFirst : Bool) : Parser Value :=
    node (markOf first) .updateExpression
      [("operator", .text operator), ("argument", v), ("prefix", .bool isFirst)]
  if ← isOneOfMarks ["++", "--"] then
    let _ ← take
    let v ← inherited (ask .unary)
    checkUpdated v .strictPrefix
    let v ← updateNode first.text v true
    markPlain
    return v
  else
    let v ← inherited callChain
    if !(← get).lineBreak && (← isOneOfMarks ["++", "--"]) then
      checkUpdated v .strictPostfix
      markPlain
      let operator ← take
      updateNode operator.text v false
    else return v

/-- Reads an expression with a unary operator in front of it. -/
def unary : Parser Value := do
  let token ← ahead
  let isOperator := ["+", "-", "~", "!"].any token.isMark ||
    ["delete", "void", "typeof"].any token.isKeyword
  if isOperator then
    let _ ← take
    let v ← inherited (ask .unary)
    let result ← node (markOf token) .unaryExpression
      [("operator", .text token.text), ("argument", v), ("prefix", .bool true)]
    if (← context).strict && token.text == "delete" && isKind v .identifier then
      passAfterLast .strictDelete
    markPlain
    return result
  else if (← context).allowAwait && token.isWord "await" then
    let mark ← here
    let _ ← take
    node mark .awaitExpression [("argument", ← ask .unary)]
  else update

/-- A node for two operands. -/
def binaryNode (mark : Mark) (operator : Text) (left right : Value) : Parser Value :=
  let kind : Kind :=
    if operator.isOneOf ["||", "&&"] then .logicalExpression else .binaryExpression
  node mark kind [("operator", .text operator), ("left", left), ("right", right)]

/-- Reads a power. A unary expression can be no base. -/
def exponent : Parser Value := do
  let first ← ahead
  let base ← inherited (ask .unary)
  if !isKind base .unaryExpression && (← isMark "**") then
    let _ ← take
    markPlain
    let right ← isolated (ask .exponent)
    binaryNode (markOf first) "**" base right
  else return base

/-- How strongly a token binds as a binary operator, zero if it is none. -/
def precedence (t : Token) : Parser Nat := do
  match t.lexeme with
  | .punctuator mark => return (table.lookup mark).getD 0
  | .keyword "instanceof" => return 7
  | .keyword "in" => return if (← context).allowIn then 7 else 0
  | _ => return 0
where
  table : List (String × Nat) :=
    [("||", 1), ("&&", 2), ("|", 3), ("^", 4), ("&", 5),
     ("==", 6), ("!=", 6), ("===", 6), ("!==", 6),
     ("<", 7), (">", 7), ("<=", 7), (">=", 7),
     ("<<", 8), (">>", 8), (">>>", 8),
     ("+", 9), ("-", 9), ("*", 11), ("/", 11), ("%", 11)]

/-- An operand that waits for the right side of an operator: the operand, its first token, the
operator and how strongly that binds. -/
structure Pending where
  first : Token
  left : Value
  operator : Text
  strength : Nat

/-- Joins the waiting operands that bind at least as strongly as the next operator. -/
def joinStronger (strength : Nat) : List Pending → Token → Value →
    Parser (List Pending × Token × Value)
  | [], first, v => return ([], first, v)
  | p :: rest, first, v => do
    if strength ≤ p.strength then
      let v ← binaryNode (markOf p.first) p.operator p.left v
      joinStronger strength rest p.first v
    else return (p :: rest, first, v)

/-- Joins all waiting operands with the last one. The line of an operand that is split over lines is
measured from the operand behind it. -/
def joinAll : List Pending → Token → Value → Parser Value
  | [], _, v => return v
  | p :: rest, first, v => do
    let v ← binaryNode (markFrom p.first first.lineStart) p.operator p.left v
    joinAll rest p.first v

/-- Reads operands with binary operators between them. -/
def binary : Parser Value := do
  let first ← ahead
  let v ← inherited exponent
  repeating (([], first, v) : List Pending × Token × Value) fun (waiting, first, v) => do
    let strength ← precedence (← ahead)
    if strength = 0 then return .inr (← joinAll waiting first v)
    let (waiting, first, v) ← joinStronger strength waiting first v
    let operator ← take
    markPlain
    let next ← ahead
    let right ← isolated exponent
    return .inl (⟨first, v, operator.text, strength⟩ :: waiting, next, right)

/-- Reads a choice between two expressions. -/
def conditional : Parser Value := do
  let first ← ahead
  let test ← inherited binary
  if ← takesMark "?" then
    let consequent ← withIn true (isolated (ask .assignment))
    expect ":"
    let alternate ← isolated (ask .assignment)
    let v ← node (markOf first) .conditionalExpression
      [("test", test), ("consequent", consequent), ("alternate", alternate)]
    markPlain
    return v
  else return test

/-! ### Assignments and arrows -/

/-- Whether an expression can start with a token. -/
def startsExpression (t : Token) : Bool :=
  match t.lexeme with
  | .punctuator mark =>
    ["[", "(", leftBrace, "+", "-", "!", "~", "++", "--", "/", "/="].contains mark
  | .keyword word =>
    ["class", "delete", "function", "let", "new", "super", "this", "typeof", "void",
      "yield"].contains word
  | _ => true

/-- Reads a `yield` in a generator. -/
def yieldExpression : Parser Value := do
  let mark ← here
  expectKeyword "yield"
  let mut argument := Value.null
  let mut delegate := false
  if !(← get).lineBreak then
    let before := (← context).allowYield
    change fun c => { c with allowYield := false }
    delegate ← takesMark "*"
    if delegate || startsExpression (← ahead) then argument ← ask .assignment
    change fun c => { c with allowYield := before }
  node mark .yieldExpression [("argument", argument), ("delegate", .bool delegate)]

/-- Reads an arrow and the body behind it. -/
def arrow (first : Token) (ps : Parameters) (isAsync : Bool) : Parser Value := do
  if (← get).lineBreak then passToken (← ahead)
  change fun c => { c with initializer := none }
  keepingStrict do keepingWords do
    change fun c => { c with
      allowStrictDirective := ps.simple, allowYield := true, allowAwait := isAsync }
    expect "=>"
    let body ← if ← isMark leftBrace then withIn true functionBody else isolated (ask .assignment)
    if (← context).strict then
      if let some who := ps.firstOffender then refuseOffender who ps.blame
      if let some who := ps.offender then passOffender who ps.blame
    functionNode (markOf first) .arrowFunctionExpression .null ps.nodes body false isAsync
      (!isKind body .blockStatement)

/-- Reads the right side of an assignment to a value. -/
def assignmentTo (first : Token) (left : Value) : Parser Value := do
  if !(← context).isTarget then passAfterLast .badAssignmentTarget
  if (← context).strict && isKind left .identifier then
    if isRestricted (nameOf left) then passAt first .strictAssignment
    if isStrictReserved (nameOf left) then passAt first .strictReserved
  let plain ← isMark "="
  if !plain then markPlain
  let left := if plain then asPattern left else left
  let operator ← take
  let right ← isolated (ask .assignment)
  let v ← node (markOf first) .assignmentExpression
    [("operator", .text operator.text), ("left", left), ("right", right)]
  change fun c => { c with initializer := none }
  return v

/-- The marks of assignments. -/
def assignmentMarks : List String :=
  ["=", "*=", "**=", "/=", "%=", "+=", "-=", "<<=", ">>=", ">>>=", "&=", "^=", "|="]

/-- Reads an assignment, an arrow function, or what can stand in their place. -/
def assignment : Parser Value := do
  if !(← context).allowYield && (← isKeyword "yield") then yieldExpression
  else
    let first ← ahead
    let mut v ← conditional
    let next ← ahead
    if first.isWord "async" && first.line = next.line &&
        (next.isIdentifier || next.isKeyword "yield") then
      let param ← primary
      v := arrowParameters [asPattern param] true
    if hasType v arrowHead || (← isMark "=>") then
      let isAsync := hasType v arrowHead && (fieldOf v "async").isTrue
      markPlain
      match ← parametersOf v with
      | some ps => arrow first ps isAsync
      | none => return v
    else if ← isOneOfMarks assignmentMarks then assignmentTo first v
    else return v

end FreeNames.Grammar.Parser
